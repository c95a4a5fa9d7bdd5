import Drumline.Proofs.Lexeme.Pieces

/-! Dropped characters as white space.  `blanked` puts spaces in place of the characters that a
voice drops.  A token in front of such a character stops there as it stops at a space
(`head_tail_append`), so that both texts are scanned in step (`scanFrom_blankFrom`).  The main
statement is `tokenize_blanked`, that the voice keeps its lexemes. -/

namespace Drumline

open Token (Written isInner HeadNot)

namespace Lexeme

open Text

variable {c : Char} {text rest before : List Char} {start : Nat} {x : Lexeme}
  {dropped : List Lexeme}

/-- The text from byte `start` on, with spaces in place of the characters where one of the lexemes
starts: as many as the character has bytes. -/
def blankFrom (dropped : List Lexeme) (start : Nat) : List Char → List Char
  | [] => []
  | c :: text =>
    (if dropped.any (·.span.start == start) then List.replicate c.utf8Size ' ' else [c]) ++
      blankFrom dropped (start + c.utf8Size) text

/-- The voice with spaces in place of the characters that it drops. -/
def blanked (voice : List Char) : List Char := blankFrom (strays voice) 0 voice

theorem byteSize_replicate_space (n : Nat) : byteSize (List.replicate n ' ') = n := by
  induction n with
  | zero => rfl
  | succ n ih =>
    rw [List.replicate_succ, byteSize_cons, ih]
    exact Nat.add_comm 1 n

theorem blankFrom_append (dropped : List Lexeme) (start : Nat) (before rest : List Char) :
    blankFrom dropped start (before ++ rest) =
      blankFrom dropped start before ++ blankFrom dropped (start + byteSize before) rest := by
  induction before generalizing start with
  | nil => rfl
  | cons c before ih =>
    rw [List.cons_append, blankFrom, blankFrom, ih, byteSize_cons, Nat.add_assoc,
      List.append_assoc]

theorem blankFrom_eq_self
    (h : ∀ n, start ≤ n → n < start + byteSize text → dropped.any (·.span.start == n) = false) :
    blankFrom dropped start text = text := by
  induction text generalizing start with
  | nil => rfl
  | cons c text ih =>
    have hSize := c.utf8Size_pos
    rw [byteSize_cons] at h
    have hFirst := h start (Nat.le_refl start) (by omega)
    rw [blankFrom, hFirst, ih fun n hStart hStop => h n (by omega) (by omega)]
    rfl

theorem mem_head?_blankFrom (h : c ∈ (blankFrom dropped start text).head?) :
    c ∈ text.head? ∨ isInner c = false := by
  cases text with
  | nil => cases h
  | cons d text =>
    rw [blankFrom] at h
    split at h
    · obtain ⟨size, hSize⟩ := Nat.exists_eq_succ_of_ne_zero (Nat.ne_of_gt d.utf8Size_pos)
      rw [hSize, List.replicate_succ] at h
      obtain rfl : ' ' = c := Option.some.inj h
      exact .inr (by decide)
    · exact .inl h

/-- A token is read again in front of another text that does not make it longer. -/
theorem head_tail_append (hWritten : Written (c :: (head c text).tail) (head c text).token)
    (h : ∀ d ∈ rest.head?, d ∈ (head c text).rest.head? ∨ isInner d = false) :
    head c ((head c text).tail ++ rest) = ⟨(head c text).token, (head c text).tail, rest⟩ := by
  obtain ⟨shape, t, hHead, ha, hs, hText⟩ := exists_tail_of_head hWritten
  rw [← hText] at hWritten ⊢
  exact head_text_append hHead ha (hs.of_head? h) hWritten

theorem start_le_of_mem_scanFrom (h : x ∈ scanFrom start text) : start ≤ x.span.start := by
  rw [scanFrom_eq_map] at h
  obtain ⟨y, -, rfl⟩ := List.mem_map.mp h
  exact Nat.le_add_right start y.span.start

/-- The places of the strays among the lexemes that are scanned from byte `start` on. -/
def strayAt (start : Nat) (text : List Char) (n : Nat) : Bool :=
  (scanFrom start text).any fun x => x.isStray && x.span.start == n

theorem strayAt_eq_false {n : Nat} (h : n < start) : strayAt start text n = false := by
  rw [strayAt, List.any_eq_false]
  intro x hx
  have := start_le_of_mem_scanFrom hx
  simp only [Bool.and_eq_true, beq_iff_eq, not_and]
  omega

theorem strayAt_gap (h : isGap c = true) (start : Nat) (text : List Char) (n : Nat) :
    strayAt start (c :: text) n = strayAt (start + c.utf8Size) text n := by
  rw [strayAt, scanFrom_gap h, strayAt]

theorem strayAt_cons (h : isGap c = false) (start : Nat) (text : List Char) (n : Nat) :
    strayAt start (c :: text) n = ((head c text).token == .stray && start == n ||
      strayAt (start + byteSize (c :: (head c text).tail)) (head c text).rest n) := by
  rw [strayAt, scanFrom_cons h, List.any_cons]
  rfl

/-- A character that is dropped becomes white space, behind which the scan goes on. -/
theorem scanFrom_blankFrom_dropped (h : dropped.any (·.span.start == start) = true)
    (c : Char) (text : List Char) : scanFrom start (blankFrom dropped start (c :: text)) =
      scanFrom (start + c.utf8Size) (blankFrom dropped (start + c.utf8Size) text) := by
  have hGaps : ∀ d ∈ List.replicate c.utf8Size ' ', isGap d = true := by
    intro d hd
    rw [List.eq_of_mem_replicate hd]
    rfl
  rw [blankFrom, if_pos h, scanFrom_gaps hGaps, byteSize_replicate_space]

/-- A token in which nothing is dropped is read as before. -/
theorem scanFrom_blankFrom_head (hGap : isGap c = false)
    (hWritten : Written (c :: (head c text).tail) (head c text).token)
    (h : ∀ n, start ≤ n → n < start + byteSize (c :: (head c text).tail) →
      dropped.any (·.span.start == n) = false) :
    scanFrom start (blankFrom dropped start (c :: text)) =
      first start c text :: scanFrom (start + byteSize (c :: (head c text).tail))
        (blankFrom dropped (start + byteSize (c :: (head c text).tail)) (head c text).rest) := by
  have hText : blankFrom dropped start (c :: text) = c :: ((head c text).tail ++
      blankFrom dropped (start + byteSize (c :: (head c text).tail)) (head c text).rest) := by
    conv => lhs; rw [← head_append c text, ← List.cons_append]
    rw [blankFrom_append, blankFrom_eq_self h, List.cons_append]
  rw [hText, scanFrom_cons hGap, head_tail_append hWritten fun _ => mem_head?_blankFrom]
  rfl

/-- With spaces in place of its strays a text is scanned as before, without the strays. -/
theorem scanFrom_blankFrom
    (h : ∀ n, start ≤ n → dropped.any (·.span.start == n) = strayAt start text n) :
    scanFrom start (blankFrom dropped start text) = (scanFrom start text).filter (!·.isStray) := by
  induction start, text using scanFrom.induct with
  | case1 start => simp [blankFrom, scanFrom]
  | case2 start c text hGap ih =>
    have hSize := c.utf8Size_pos
    have hKept : dropped.any (·.span.start == start) = false := by
      rw [h start (Nat.le_refl start), strayAt_gap hGap, strayAt_eq_false (by omega)]
    have hRest := ih fun n hn => by rw [h n (by omega), strayAt_gap hGap]
    rw [blankFrom, hKept, scanFrom_gap hGap, ← hRest]
    exact scanFrom_gap hGap ..
  | case3 start c text hGap stop ih =>
    rw [Bool.not_eq_true] at hGap
    have hLt : start < stop := by
      have := byteSize_pos (List.cons_ne_nil c (head c text).tail)
      omega
    have hRest := ih fun n hn => by
      rw [h n (by omega), strayAt_cons hGap, beq_false_of_ne (show start ≠ n by omega),
        Bool.and_false, Bool.false_or]
    rcases head_stray_or_written c text with hStray | hWritten
    · have hDropped : dropped.any (·.span.start == start) = true := by
        rw [h start (Nat.le_refl start), strayAt_cons hGap, hStray]
        simp
      have hStop : start + c.utf8Size = stop := by simp [stop, hStray]
      have hText : (head c text).rest = text := by rw [hStray]
      rw [scanFrom_blankFrom_dropped hDropped, hStop, scanFrom_cons hGap, List.filter_cons_of_neg]
      · rw [← hRest, hText]
      · simp [isStray, hStray]
    · have hToken : ((head c text).token == .stray) = false :=
        beq_false_of_ne (Written.ne_stray hWritten)
      have hKept : ∀ n, start ≤ n → n < stop → dropped.any (·.span.start == n) = false := by
        intro n hStart hStop
        rw [h n hStart, strayAt_cons hGap, hToken, strayAt_eq_false hStop]
        rfl
      rw [scanFrom_blankFrom_head hGap hWritten hKept, scanFrom_cons hGap,
        List.filter_cons_of_pos]
      · exact congrArg _ hRest
      · simpa [isStray] using hToken

theorem scan_blanked (voice : List Char) : scan (blanked voice) = tokenize voice := by
  refine scanFrom_blankFrom fun n _ => ?_
  rw [strays, List.any_filter]
  rfl

/-- A dropped character only separates.  With as many spaces in its place as it has bytes, a voice
has the same lexemes at the same places and is converted in the same way, and nothing is dropped
from it. -/
theorem tokenize_blanked (voice : List Char) :
    tokenize (blanked voice) = tokenize voice ∧ strays (blanked voice) = [] ∧
      Voice.spaced (blanked voice) = Voice.spaced voice := by
  have hTokens : tokenize (blanked voice) = tokenize voice := by
    rw [tokenize, scan_blanked, tokenize, List.filter_filter]
    simp only [Bool.and_self]
  refine ⟨hTokens, ?_, ?_⟩
  · rw [strays, scan_blanked, tokenize, List.filter_filter]
    simp
  · rw [Voice.spaced, Voice.fragments, hTokens]
    rfl

end Lexeme

end Drumline
