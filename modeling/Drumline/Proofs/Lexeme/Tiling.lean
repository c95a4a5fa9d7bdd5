import Drumline.Proofs.Lexeme.Seam
import Drumline.Proofs.Log
import Drumline.Proofs.Span
import Drumline.Proofs.Token.Grammar
import Mathlib.Data.List.Pairwise
import Mathlib.Data.List.Sort

/-! The lexemes of a voice as a tiling of it.  `Tiles` says, without scanning, what the lexemes and
the dropped characters of a text are: what each of them is at its place (`IsToken`, `IsDropped`),
that they do not overlap, and that they leave only white space out.  The main statement is
`tiles_iff`, that the lexemes and the dropped characters of a voice are the only such tiling. -/

namespace Drumline

theorem Text.isGap_iff {c : Char} : Text.isGap c = true ↔ c ∈ [' ', '\t', '\r', '\n'] := by
  simp [Text.isGap, or_assoc]

theorem Text.utf8Size_of_isGap {c : Char} (h : Text.isGap c = true) : c.utf8Size = 1 := by
  have hc := isGap_iff.mp h
  simp only [List.mem_cons, List.not_mem_nil, or_false] at hc
  rcases hc with rfl | rfl | rfl | rfl <;> rfl

namespace Lexeme

open Token Text

/-- A lexeme that a text has where its span says: its text is cut out by the span and matches an
expression of the grammar, no longer text there matches one, and its token is the one that its text
stands for. -/
structure IsToken (text : List Char) (x : Lexeme) : Prop where
  raw : Span.slice? text x.span = some x.raw
  ne_nil : x.raw ≠ []
  kind : ∃ kind : Kind, kind.Matches x.raw ∧ x.token = kind.token x.raw
  longest : ∀ (kind : Kind) (part : List Char), StandsAt text x.span.start part →
    kind.Matches part → part.length ≤ x.raw.length

/-- A character that a text has where the span says, and where nothing matches. -/
structure IsDropped (text : List Char) (x : Lexeme) : Prop where
  raw : Span.slice? text x.span = some x.raw
  single : ∃ c, x.raw = [c] ∧ c ∉ [' ', '\t', '\r', '\n']
  unmatched : ∀ (kind : Kind) (part : List Char), StandsAt text x.span.start part →
    ¬kind.Matches part
  token : x.token = .stray

def IsTile (text : List Char) (x : Lexeme) : Prop := IsToken text x ∨ IsDropped text x

def Before (x y : Lexeme) : Prop := x.span.stop ≤ y.span.start

def Apart (x y : Lexeme) : Prop := Before x y ∨ Before y x

instance : Std.Symm Apart := ⟨fun _ _ => Or.symm⟩

/-- The lexemes and the dropped characters stand in the text in order and apart from each other, and
each byte outside them is a space, a tab, a carriage return or a line feed. -/
structure Tiles (text : List Char) (tokens dropped : List Lexeme) : Prop where
  isToken : ∀ x ∈ tokens, IsToken text x
  isDropped : ∀ x ∈ dropped, IsDropped text x
  tokens_increasing : tokens.Pairwise Before
  dropped_increasing : dropped.Pairwise Before
  disjoint : ∀ x ∈ tokens, ∀ y ∈ dropped, Apart x y
  blank : ∀ n < byteSize text,
    (∀ x ∈ tokens ++ dropped, n < x.span.start ∨ x.span.stop ≤ n) →
      ∃ c ∈ [' ', '\t', '\r', '\n'], StandsAt text n [c]

variable {text before rest part : List Char} {c : Char} {token : Token} {start : Nat} {x y : Lexeme}

/-! ### The longest match -/

/-- Where a token is written, one is read, and it is no shorter. -/
theorem head_longest (h : Written part token) (hPart : part <+: c :: text) :
    Written (c :: (head c text).tail) (head c text).token ∧
      part.length ≤ (c :: (head c text).tail).length := by
  obtain ⟨c', shape, t', rfl, hHead, ha'⟩ := h.exists_tail
  obtain ⟨rfl, more, rfl⟩ := List.cons_prefix_cons.mp hPart
  obtain ⟨tail, rest, hSplit⟩ := Shape.exists_split?_text_append ha' more
  obtain ⟨t, ha, hs, rfl⟩ := Shape.exists_tail hSplit
  obtain ⟨token, hToken⟩ := exists_written hHead ha
  have hText := Shape.split?_append hSplit
  have hRead : head c' (t'.text ++ more) = ⟨token, t.text, rest⟩ := by
    rw [← hText]
    exact head_text_append hHead ha hs hToken
  rw [hRead]
  refine ⟨hToken, ?_⟩
  have hLength := hs.length_le ha' (hText ▸ List.prefix_append t'.text more)
  simpa using hLength

theorem written_of_matches {kind : Kind} (h : kind.Matches part) :
    Written part (kind.token part) :=
  written_iff.mpr ⟨kind, h, rfl⟩

/-! ### The lexeme at a place -/

/-- The lexeme or stray that `c :: text` starts with at byte `start`. -/
def first (start : Nat) (c : Char) (text : List Char) : Lexeme :=
  ⟨(head c text).token, c :: (head c text).tail,
    ⟨start, start + byteSize (c :: (head c text).tail)⟩⟩

theorem cut?_cons (h : Span.cut? start text = some (before, c :: rest)) :
    Span.cut? (start + c.utf8Size) text = some (before ++ [c], rest) := by
  have hOne : Span.cut? start text = some (before, [c] ++ rest) := h
  exact Span.cut?_add hOne

theorem cut?_head (h : Span.cut? start text = some (before, c :: rest)) :
    Span.cut? (start + byteSize (c :: (head c rest).tail)) text =
      some (before ++ c :: (head c rest).tail, (head c rest).rest) := by
  apply Span.cut?_add
  rw [h, List.cons_append, head_append]

theorem slice?_first (h : Span.cut? start text = some (before, c :: rest)) :
    Span.slice? text (first start c rest).span = some (first start c rest).raw := by
  refine Span.slice?_eq_some_iff.mpr ⟨(Span.standsAt_iff h).mpr ?_, rfl⟩
  exact List.cons_prefix_cons.mpr ⟨rfl, (head c rest).rest, head_append c rest⟩

theorem isToken_first (h : Span.cut? start text = some (before, c :: rest))
    (hToken : (first start c rest).token ≠ .stray) : IsToken text (first start c rest) := by
  have hWritten : Written (c :: (head c rest).tail) (head c rest).token := by
    apply (head_stray_or_written c rest).resolve_left
    intro hStray
    apply hToken
    rw [first, hStray]
  obtain ⟨kind, hKind, hEq⟩ := written_iff.mp hWritten
  refine ⟨slice?_first h, List.cons_ne_nil _ _, ⟨kind, hKind, hEq.symm⟩, ?_⟩
  intro kind part hPart hMatches
  exact (head_longest (written_of_matches hMatches) ((Span.standsAt_iff h).mp hPart)).2

theorem isDropped_first (h : Span.cut? start text = some (before, c :: rest))
    (hGap : isGap c = false) (hToken : (first start c rest).token = .stray) :
    IsDropped text (first start c rest) := by
  have hNot : ¬Written (c :: (head c rest).tail) (head c rest).token := fun hWritten =>
    Written.ne_stray hWritten hToken
  have hStray := (head_stray_or_written c rest).resolve_right hNot
  refine ⟨slice?_first h, ⟨c, by rw [first, hStray], ?_⟩, ?_, hToken⟩
  · rw [← isGap_iff, hGap]
    decide
  · intro kind part hPart hMatches
    exact hNot (head_longest (written_of_matches hMatches) ((Span.standsAt_iff h).mp hPart)).1

theorem isTile_first (h : Span.cut? start text = some (before, c :: rest))
    (hGap : isGap c = false) : IsTile text (first start c rest) := by
  by_cases hToken : (first start c rest).token = .stray
  · exact .inr (isDropped_first h hGap hToken)
  · exact .inl (isToken_first h hToken)

theorem standsAt_raw (hx : IsTile text x) :
    StandsAt text x.span.start x.raw ∧ x.span.stop = x.span.start + byteSize x.raw ∧
      x.raw ≠ [] := by
  rcases hx with hx | hx
  · obtain ⟨hStands, hStop⟩ := Span.slice?_eq_some_iff.mp hx.raw
    exact ⟨hStands, hStop, hx.ne_nil⟩
  · obtain ⟨hStands, hStop⟩ := Span.slice?_eq_some_iff.mp hx.raw
    obtain ⟨c, hc, -⟩ := hx.single
    exact ⟨hStands, hStop, by simp [hc]⟩

theorem start_lt_stop (hx : IsTile text x) : x.span.start < x.span.stop := by
  obtain ⟨-, hStop, hNe⟩ := standsAt_raw hx
  have := byteSize_pos hNe
  omega

theorem IsToken.written (hx : IsToken text x) : Written x.raw x.token := by
  obtain ⟨kind, hKind, hToken⟩ := hx.kind
  rw [hToken]
  exact written_of_matches hKind

theorem IsToken.token_ne_stray (hx : IsToken text x) : x.token ≠ .stray :=
  Written.ne_stray hx.written

theorem raw_eq (hx : IsTile text x) (hy : IsTile text y) (hStart : x.span.start = y.span.start)
    (hLength : x.raw.length = y.raw.length) : x.raw = y.raw := by
  have hStands := (standsAt_raw hy).1
  rw [← hStart] at hStands
  rcases Span.prefix_or_prefix_of_standsAt (standsAt_raw hx).1 hStands with h | h
  · exact h.eq_of_length hLength
  · exact (h.eq_of_length hLength.symm).symm

/-- At each place a text has at most one token or dropped character. -/
theorem eq_of_start_eq (hx : IsTile text x) (hy : IsTile text y)
    (hStart : x.span.start = y.span.start) : x = y := by
  have hX := standsAt_raw hx
  have hY := standsAt_raw hy
  have hExt : x.raw.length = y.raw.length → x.token = y.token → x = y := by
    intro hLength hToken
    have hRaw := raw_eq hx hy hStart hLength
    have hStop : x.span.stop = y.span.stop := by rw [hX.2.1, hY.2.1, hStart, hRaw]
    obtain ⟨token, raw, start, stop⟩ := x
    obtain ⟨token', raw', start', stop'⟩ := y
    simp_all
  -- two tokens are both the longest, and a token excludes a dropped character
  rcases hx with hx | hx <;> rcases hy with hy | hy
  · obtain ⟨kind, hKind, -⟩ := hx.kind
    obtain ⟨kind', hKind', -⟩ := hy.kind
    have hLength : x.raw.length = y.raw.length := by
      refine Nat.le_antisymm (hy.longest kind x.raw (hStart ▸ hX.1) hKind) ?_
      exact hx.longest kind' y.raw (hStart ▸ hY.1) hKind'
    have hRead := hx.written.read?
    rw [raw_eq (.inl hx) (.inl hy) hStart hLength, hy.written.read?] at hRead
    exact hExt hLength (Option.some.inj hRead).symm
  · obtain ⟨kind, hKind, -⟩ := hx.kind
    exact absurd hKind (hy.unmatched kind x.raw (hStart ▸ hX.1))
  · obtain ⟨kind, hKind, -⟩ := hy.kind
    exact absurd hKind (hx.unmatched kind y.raw (hStart ▸ hY.1))
  · obtain ⟨c, hc, -⟩ := hx.single
    obtain ⟨d, hd, -⟩ := hy.single
    exact hExt (by simp [hc, hd]) (hx.token.trans hy.token.symm)

/-- What a text has starts with no white space. -/
theorem isGap_eq_false_of_raw (hx : IsTile text x) (hRaw : x.raw <+: c :: rest) :
    isGap c = false := by
  rcases hx with hx | hx
  · obtain ⟨c', shape, t, hText, hHead, -⟩ := hx.written.exists_tail
    rw [hText, List.cons_prefix_cons] at hRaw
    rw [← hRaw.1]
    exact isGap_eq_false_of_ofHead? hHead
  · obtain ⟨c', hText, hc⟩ := hx.single
    rw [hText, List.cons_prefix_cons] at hRaw
    rw [← hRaw.1, ← Bool.not_eq_true, isGap_iff]
    exact hc

/-! ### What is read is a tiling -/

theorem isTile_of_mem_scanFrom (hCut : Span.cut? start text = some (before, rest))
    (hx : x ∈ scanFrom start rest) : IsTile text x ∧ start ≤ x.span.start := by
  induction start, rest using scanFrom.induct generalizing before with
  | case1 start => simp [scanFrom] at hx
  | case2 start c rest hGap ih =>
    rw [scanFrom_gap hGap] at hx
    obtain ⟨hTile, hStart⟩ := ih (cut?_cons hCut) hx
    exact ⟨hTile, by omega⟩
  | @case3 start c rest hGap stop ih =>
    rw [Bool.not_eq_true] at hGap
    have hFirst := isTile_first hCut hGap
    have hLt : start < stop := start_lt_stop hFirst
    rw [scanFrom_cons hGap, ← first, List.mem_cons] at hx
    rcases hx with rfl | hx
    · exact ⟨hFirst, Nat.le_refl start⟩
    · obtain ⟨hTile, hStart⟩ := ih (cut?_head hCut) hx
      exact ⟨hTile, by omega⟩

theorem pairwise_scanFrom (hCut : Span.cut? start text = some (before, rest)) :
    (scanFrom start rest).Pairwise Before := by
  induction start, rest using scanFrom.induct generalizing before with
  | case1 start => simp [scanFrom]
  | case2 start c rest hGap ih =>
    rw [scanFrom_gap hGap]
    exact ih (cut?_cons hCut)
  | @case3 start c rest hGap stop ih =>
    rw [Bool.not_eq_true] at hGap
    rw [scanFrom_cons hGap, List.pairwise_cons]
    exact ⟨fun y hy => (isTile_of_mem_scanFrom (cut?_head hCut) hy).2, ih (cut?_head hCut)⟩

theorem exists_gap_of_outside {n : Nat} (hCut : Span.cut? start text = some (before, rest))
    (hStart : start ≤ n) (hn : n < byteSize text)
    (hOutside : ∀ x ∈ scanFrom start rest, n < x.span.start ∨ x.span.stop ≤ n) :
    ∃ c ∈ [' ', '\t', '\r', '\n'], StandsAt text n [c] := by
  induction start, rest using scanFrom.induct generalizing before with
  | case1 start =>
    obtain ⟨rfl, rfl⟩ := Span.eq_of_cut? hCut
    rw [List.append_nil] at hn
    omega
  | case2 start c rest hGap ih =>
    rw [scanFrom_gap hGap] at hOutside
    rcases Nat.eq_or_lt_of_le hStart with rfl | hLt
    · refine ⟨c, isGap_iff.mp hGap, (Span.standsAt_iff hCut).mpr ?_⟩
      exact List.prefix_append [c] rest
    · refine ih (cut?_cons hCut) ?_ hOutside
      rw [utf8Size_of_isGap hGap]
      exact hLt
  | @case3 start c rest hGap stop ih =>
    rw [Bool.not_eq_true] at hGap
    rw [scanFrom_cons hGap, List.forall_mem_cons] at hOutside
    obtain ⟨hFirst, hRest⟩ := hOutside
    have hStop : stop ≤ n := hFirst.resolve_left (Nat.not_lt_of_le hStart)
    exact ih (cut?_head hCut) hStop hRest

theorem cut?_zero (text : List Char) : Span.cut? 0 text = some ([], text) :=
  Span.cut?_append [] text

theorem mem_tokenize_iff : x ∈ tokenize text ↔ x ∈ scan text ∧ x.token ≠ .stray := by
  simp [tokenize, isStray]

theorem mem_strays_iff : x ∈ strays text ↔ x ∈ scan text ∧ x.token = .stray := by
  simp [strays, isStray]

theorem tiles_scan (text : List Char) : Tiles text (tokenize text) (strays text) := by
  have hTile : ∀ x ∈ scan text, IsTile text x := fun x hx =>
    (isTile_of_mem_scanFrom (cut?_zero text) hx).1
  have hScan : (scan text).Pairwise Before := pairwise_scanFrom (cut?_zero text)
  refine ⟨?_, ?_, hScan.filter _, hScan.filter _, ?_, ?_⟩
  · intro x hx
    obtain ⟨hx, hToken⟩ := mem_tokenize_iff.mp hx
    exact (hTile x hx).resolve_right fun hDropped => hToken hDropped.token
  · intro x hx
    obtain ⟨hx, hToken⟩ := mem_strays_iff.mp hx
    exact (hTile x hx).resolve_left fun hIsToken => hIsToken.token_ne_stray hToken
  · intro x hx y hy
    obtain ⟨hx, hTokenX⟩ := mem_tokenize_iff.mp hx
    obtain ⟨hy, hTokenY⟩ := mem_strays_iff.mp hy
    have hApart : (scan text).Pairwise Apart := hScan.imp .inl
    apply hApart.forall hx hy
    rintro rfl
    exact hTokenX hTokenY
  · intro n hn hOutside
    apply exists_gap_of_outside (cut?_zero text) (Nat.zero_le n) hn
    intro x hx
    apply hOutside
    rw [List.mem_append, mem_tokenize_iff, mem_strays_iff, ← and_or_left]
    exact ⟨hx, ne_or_eq x.token .stray⟩

/-! ### There is no other tiling -/

section Unique

variable {tokens dropped : List Lexeme} (h : Tiles text tokens dropped)

include h

theorem Tiles.isTile (hx : x ∈ tokens ++ dropped) : IsTile text x := by
  rcases List.mem_append.mp hx with hx | hx
  · exact .inl (h.isToken x hx)
  · exact .inr (h.isDropped x hx)

theorem Tiles.apart (hx : x ∈ tokens ++ dropped) (hy : y ∈ tokens ++ dropped) (hNe : x ≠ y) :
    Apart x y := by
  have hApart : (tokens ++ dropped).Pairwise Apart :=
    List.pairwise_append.mpr ⟨h.tokens_increasing.imp .inl, h.dropped_increasing.imp .inl,
      h.disjoint⟩
  exact hApart.forall hx hy hNe

theorem Tiles.start_ne (hCut : Span.cut? start text = some (before, c :: rest))
    (hGap : isGap c = true) (hx : x ∈ tokens ++ dropped) : x.span.start ≠ start := by
  rintro rfl
  have hTile := h.isTile hx
  have hRaw := (Span.standsAt_iff hCut).mp (standsAt_raw hTile).1
  rw [isGap_eq_false_of_raw hTile hRaw] at hGap
  cases hGap

theorem Tiles.first_mem (hCut : Span.cut? start text = some (before, c :: rest))
    (hInside : ∀ x ∈ tokens ++ dropped, x.span.stop ≤ start ∨ start ≤ x.span.start)
    (hGap : isGap c = false) : first start c rest ∈ tokens ++ dropped := by
  have hFirst := isTile_first hCut hGap
  by_contra hNot
  have hOutside : ∀ x ∈ tokens ++ dropped, start < x.span.start ∨ x.span.stop ≤ start := by
    intro x hx
    rcases hInside x hx with hStop | hStart
    · exact .inr hStop
    · refine .inl (Nat.lt_of_le_of_ne hStart fun hEq => hNot ?_)
      rwa [eq_of_start_eq hFirst (h.isTile hx) hEq]
  have hLt : start < byteSize text := by
    have := (standsAt_raw hFirst).1.add_le
    have := byteSize_pos (standsAt_raw hFirst).2.2
    simp only [first] at *
    omega
  obtain ⟨d, hd, hStands⟩ := h.blank start hLt hOutside
  rw [Span.standsAt_iff hCut, List.cons_prefix_cons] at hStands
  rw [← isGap_iff, hStands.1, hGap] at hd
  cases hd

/-- Where a byte is inside no tile, the tiles behind it are what is read from there on. -/
theorem Tiles.mem_scanFrom_iff (hCut : Span.cut? start text = some (before, rest))
    (hInside : ∀ x ∈ tokens ++ dropped, x.span.stop ≤ start ∨ start ≤ x.span.start) :
    x ∈ scanFrom start rest ↔ x ∈ tokens ++ dropped ∧ start ≤ x.span.start := by
  induction start, rest using scanFrom.induct generalizing before with
  | case1 start =>
    -- a tile that starts at the end would have no characters
    have hEnd : byteSize text = start := by
      obtain ⟨rfl, rfl⟩ := Span.eq_of_cut? hCut
      rw [List.append_nil]
    have hNone : x ∈ tokens ++ dropped → x.span.start < start := by
      intro hx
      have hStands := standsAt_raw (h.isTile hx)
      have := hStands.1.add_le
      have := byteSize_pos hStands.2.2
      omega
    simp only [scanFrom, List.not_mem_nil, false_iff, not_and, not_le]
    exact hNone
  | case2 start c rest hGap ih =>
    -- no tile starts with white space, so the same tiles are behind it
    have hNext : ∀ x ∈ tokens ++ dropped, start ≤ x.span.start ↔
        start + c.utf8Size ≤ x.span.start := by
      intro x hx
      have := h.start_ne hCut hGap hx
      rw [utf8Size_of_isGap hGap]
      omega
    have hSkipped : ∀ x ∈ tokens ++ dropped,
        x.span.stop ≤ start + c.utf8Size ∨ start + c.utf8Size ≤ x.span.start := fun x hx =>
      (hInside x hx).imp (Nat.le_add_right_of_le ·) (hNext x hx).mp
    rw [scanFrom_gap hGap, ih (cut?_cons hCut) hSkipped]
    exact and_congr_right fun hx => (hNext x hx).symm
  | @case3 start c rest hGap stop ih =>
    rw [Bool.not_eq_true] at hGap
    -- the lexeme that is read here is a tile, and the others are apart from it
    have hMem := h.first_mem hCut hInside hGap
    have hLt : start < stop := start_lt_stop (h.isTile hMem)
    have hApart : ∀ x ∈ tokens ++ dropped, x ≠ first start c rest →
        x.span.stop ≤ start ∨ stop ≤ x.span.start := fun x hx hNe => h.apart hx hMem hNe
    have hBehind : ∀ x ∈ tokens ++ dropped, x.span.stop ≤ stop ∨ stop ≤ x.span.start := by
      intro x hx
      by_cases hEq : x = first start c rest
      · exact .inl (hEq ▸ Nat.le_refl stop)
      · exact (hApart x hx hEq).imp (fun hStop => by omega) id
    rw [scanFrom_cons hGap, ← first, List.mem_cons, ih (cut?_head hCut) hBehind]
    constructor
    · rintro (rfl | ⟨hx, hStart⟩)
      · exact ⟨hMem, Nat.le_refl start⟩
      · exact ⟨hx, by omega⟩
    · rintro ⟨hx, hStart⟩
      by_cases hEq : x = first start c rest
      · exact .inl hEq
      · refine .inr ⟨hx, (hApart x hx hEq).resolve_left ?_⟩
        have := start_lt_stop (h.isTile hx)
        omega

theorem Tiles.mem_scan_iff : x ∈ scan text ↔ x ∈ tokens ++ dropped := by
  have hInside : ∀ x ∈ tokens ++ dropped, x.span.stop ≤ 0 ∨ 0 ≤ x.span.start := fun x _ =>
    .inr (Nat.zero_le _)
  rw [scan, h.mem_scanFrom_iff (cut?_zero text) hInside]
  exact and_iff_left (Nat.zero_le _)

theorem Tiles.mem_tokenize_iff : x ∈ tokenize text ↔ x ∈ tokens := by
  rw [Lexeme.mem_tokenize_iff, h.mem_scan_iff, List.mem_append]
  constructor
  · rintro ⟨hx | hx, hToken⟩
    · exact hx
    · exact absurd (h.isDropped x hx).token hToken
  · intro hx
    exact ⟨.inl hx, (h.isToken x hx).token_ne_stray⟩

theorem Tiles.mem_strays_iff : x ∈ strays text ↔ x ∈ dropped := by
  rw [Lexeme.mem_strays_iff, h.mem_scan_iff, List.mem_append]
  constructor
  · rintro ⟨hx | hx, hToken⟩
    · exact absurd hToken (h.isToken x hx).token_ne_stray
    · exact hx
  · intro hx
    exact ⟨.inr hx, (h.isDropped x hx).token⟩

end Unique

theorem eq_of_mem_iff {xs ys : List Lexeme} (hTile : ∀ x ∈ xs, IsTile text x)
    (hXs : xs.Pairwise Before) (hYs : ys.Pairwise Before) (h : ∀ x, x ∈ xs ↔ x ∈ ys) :
    xs = ys := by
  have hLt : ∀ {zs : List Lexeme}, (∀ x ∈ zs, x ∈ xs) → zs.Pairwise Before →
      zs.Pairwise (InvImage (· < ·) fun x => x.span.start) := by
    intro zs hMem hBefore
    apply hBefore.imp_of_mem
    intro x y hx _ hLe
    exact Nat.lt_of_lt_of_le (start_lt_stop (hTile _ (hMem _ hx))) hLe
  exact (hLt (fun x hx => hx) hXs).eq_of_mem_iff (hLt (fun x hx => (h x).mpr hx) hYs) h

/-- A text has no tiling but the one that is read. -/
theorem Tiles.eq_scan {tokens dropped : List Lexeme} (h : Tiles text tokens dropped) :
    tokens = tokenize text ∧ dropped = strays text := by
  have hScan := tiles_scan text
  constructor
  · exact eq_of_mem_iff (fun x hx => .inl (h.isToken x hx)) h.tokens_increasing
      hScan.tokens_increasing fun x => h.mem_tokenize_iff.symm
  · exact eq_of_mem_iff (fun x hx => .inr (h.isDropped x hx)) h.dropped_increasing
      hScan.dropped_increasing fun x => h.mem_strays_iff.symm

theorem subsingleton_kinds (text : List Char) (n : Nat) :
    {kind : Kind | ∃ part, StandsAt text n part ∧ kind.Matches part}.Subsingleton := by
  rintro kind ⟨part, hPart, h⟩ kind' ⟨part', hPart', h'⟩
  apply h.eq_of_head? h'
  obtain ⟨c, tail, -, rfl, -⟩ := h.exists_cons
  obtain ⟨c', tail', -, rfl, -⟩ := h'.exists_cons
  rcases Span.prefix_or_prefix_of_standsAt hPart hPart' with hPrefix | hPrefix
  · exact congrArg some (List.cons_prefix_cons.mp hPrefix).1
  · exact congrArg some (List.cons_prefix_cons.mp hPrefix).1.symm

/-- The lexemes and the dropped characters of a voice tile it, and nothing else does.  All that
matches at one place is of one kind, so the longest match does not depend on the order in which the
kinds are tried. -/
theorem tiles_iff (text : List Char) (tokens dropped : List Lexeme) :
    (Tiles text tokens dropped ↔ tokens = tokenize text ∧
      dropped = (Voice.events text).filterMap Event.dropped?) ∧
    ∀ n, {kind : Kind | ∃ part, StandsAt text n part ∧ kind.Matches part}.Subsingleton := by
  rw [Voice.dropped_events]
  refine ⟨⟨Tiles.eq_scan, ?_⟩, subsingleton_kinds text⟩
  rintro ⟨rfl, rfl⟩
  exact tiles_scan text

end Lexeme

end Drumline
