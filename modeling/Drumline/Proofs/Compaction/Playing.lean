import Drumline.Proofs.Compaction.Macros
import Drumline.Proofs.State.Exact
import Drumline.Proofs.Voice.Reading

/-! Playing a compacted text.  The lexemes of a text are those of its runs, one run after the other
(`scanFrom_append_of_isFirst`), and what is left of the runs is played as the runs are
(`playKept_texts`).  A macro that is glued to a token before it is in no run of its own, so that
compaction does not see it and may drop a macro behind it that sets the length anew.  The main
statement is `play_compact`, that a compacted text is played as the text itself where each macro
that is dropped sets the length in force. -/

namespace Drumline

open Token (Written Shape isInner)
open Lexeme (content contents contents_written)

/-! ### Lexemes run by run -/

namespace Token

theorem Shape.ofHead?_eq_none {b : Char} (h : Text.isBlank b = true) : ofHead? b = none := by
  have hNot : ∀ c : Char, Text.isBlank c = false → b ≠ c := by
    rintro c hc rfl
    rw [h] at hc
    cases hc
  have hDigit : b.isDigit = false := by
    rw [← Bool.not_eq_true]
    intro hDigit
    rw [Run.isBlank_eq_false_of_isInner (isInner_of_isDigit hDigit)] at h
    cases h
  have hLetter : isNoteLetter b = false := by
    rw [← Bool.not_eq_true, isNoteLetter_iff]
    rintro (rfl | rfl | rfl | rfl | rfl | rfl | rfl) <;> exact absurd h (by decide)
  simp [ofHead?, hDigit, hLetter, hNot _ (by decide : Text.isBlank '>' = false),
    hNot _ (by decide : Text.isBlank '<' = false), hNot _ (by decide : Text.isBlank '&' = false),
    hNot _ (by decide : Text.isBlank '.' = false), hNot _ (by decide : Text.isBlank 'o' = false),
    hNot _ (by decide : Text.isBlank 'v' = false), hNot _ (by decide : Text.isBlank 't' = false),
    hNot _ (by decide : Text.isBlank 'l' = false), hNot _ (by decide : Text.isBlank 'n' = false),
    hNot _ (by decide : Text.isBlank 'r' = false)]

end Token

namespace Lexeme

variable {start : Nat} {text run rest : List Char} {b : Char} {x : Lexeme}

/-- A lexeme has a place of its own within its text. -/
theorem bounds_of_mem_scanFrom (h : x ∈ scanFrom start text) :
    start < x.span.stop ∧ x.span.stop ≤ start + Text.byteSize text := by
  induction start, text using scanFrom.induct with
  | case1 start => simp [scanFrom] at h
  | case2 start c text hGap ih =>
    rw [scanFrom_gap hGap] at h
    have hBounds := ih h
    rw [Text.byteSize_cons]
    omega
  | case3 start c text hGap stop ih =>
    have hFirst : start < stop := by
      have := c.utf8Size_pos
      show start < start + Text.byteSize (c :: (head c text).tail)
      rw [Text.byteSize_cons]
      omega
    have hSize : start + Text.byteSize (c :: text) = stop + Text.byteSize (head c text).rest := by
      show _ = start + Text.byteSize (c :: (head c text).tail) + _
      rw [Nat.add_assoc, ← Text.byteSize_append, List.cons_append, head_append]
    rw [scanFrom_cons (by simpa using hGap), List.mem_cons] at h
    rcases h with rfl | h
    · exact ⟨hFirst, by rw [hSize]; exact Nat.le_add_right _ _⟩
    · have hBounds := ih h
      omega

/-- A blank is passed over or dropped. -/
theorem exists_scanFrom_blank (h : Text.isBlank b = true) (start : Nat) (text : List Char) :
    ∃ dropped : List Lexeme, (∀ x ∈ dropped, x.isStray = true) ∧
      scanFrom start (b :: text) = dropped ++ scanFrom (start + b.utf8Size) text := by
  cases hGap : Text.isGap b with
  | true => exact ⟨[], by simp, scanFrom_gap hGap start text⟩
  | false =>
    have hHead : head b text = ⟨.stray, [], text⟩ := by
      simp [head, Shape.ofHead?_eq_none h]
    rw [scanFrom_cons hGap, hHead]
    exact ⟨[_], by simp [isStray], rfl⟩

/-- The text behind a run is read on its own. -/
theorem scanFrom_append_of_isFirst (h : Run.IsFirst run rest) (start : Nat) :
    scanFrom start (run ++ rest) =
      scanFrom start run ++ scanFrom (start + Text.byteSize run) rest := by
  cases h with
  | lengthMacro h dotted hRest =>
    have hWritten := Written.lengthMacro h dotted
    have hHead := head_text_append rfl (Run.admits_macroTail h dotted)
      (Run.stops_macroTail hRest) hWritten
    have hAlone := head_text_append rfl (Run.admits_macroTail h dotted)
      (.of_headNot (Token.headNot_nil _)) hWritten
    rw [List.append_nil] at hAlone
    rw [List.cons_append, scanFrom_cons (by decide), scanFrom_cons (by decide)]
    simp only [Token.Tail.text, Option.toList_none, List.nil_append] at hHead hAlone
    rw [hHead, hAlone]
    simp [scanFrom]
  | stretch h hRest =>
    cases rest with
    | nil => simp [scanFrom]
    | cons b rest =>
      have hBlank : Text.isBlank b = true := by simpa [Run.isSolid] using hRest
      exact scanFrom_append_cons (Run.isInner_eq_false_of_isBlank hBlank) start run rest

theorem contents_append_of_isFirst (h : Run.IsFirst run rest) :
    contents (run ++ rest) = contents run ++ contents rest := by
  rw [contents_eq 0, scanFrom_append_of_isFirst h, List.map_append, List.filter_append,
    ← contents_eq, ← contents_eq]

theorem contents_blank (h : Text.isBlank b = true) (text : List Char) :
    contents (b :: text) = contents text := by
  obtain ⟨dropped, hDropped, hScan⟩ := exists_scanFrom_blank h 0 text
  have hNone : (dropped.map content).filter (·.1 != .stray) = [] := by
    rw [List.filter_eq_nil_iff]
    intro c hc
    obtain ⟨x, hx, rfl⟩ := List.mem_map.mp hc
    simpa [isStray, content] using hDropped x hx
  rw [contents_eq 0, hScan, List.map_append, List.filter_append, hNone, List.nil_append,
    ← contents_eq]

end Lexeme

namespace Token

theorem Written.exists_cons_of_ne_number {text : List Char} {token : Token}
    (h : Written text token) (hNumber : token ≠ .number) :
    ∃ c tail, text = c :: tail ∧ isInner c = false := by
  cases h with
  | note hLetter =>
    refine ⟨_, _, rfl, ?_⟩
    rw [isNoteLetter_iff] at hLetter
    rcases hLetter with rfl | rfl | rfl | rfl | rfl | rfl | rfl <;> decide
  | number | dot => exact absurd rfl hNumber
  | _ => exact ⟨_, _, rfl, by decide⟩

end Token

/-- Without numbers and without strays but blanks, each run starts with a character that is in no
tail. -/
theorem Run.exists_cons_of_mem_texts (start : Nat) {text run : List Char}
    (hNumbers : ∀ x ∈ Lexeme.scanFrom start text, x.token ≠ .number)
    (hStrays : ∀ x ∈ Lexeme.scanFrom start text, x.isStray = true →
      ∀ c ∈ x.raw, Text.isBlank c = true) (h : run ∈ texts text) :
    ∃ c tail, run = c :: tail ∧ isInner c = false := by
  induction text using scan_induction generalizing start with
  | nil => simp at h
  | blank b text hBlank ih =>
    obtain ⟨dropped, -, hScan⟩ := Lexeme.exists_scanFrom_blank hBlank start text
    rw [hScan] at hNumbers hStrays
    rw [texts_blank hBlank] at h
    exact ih _ (fun x hx => hNumbers x (List.mem_append_right _ hx))
      (fun x hx => hStrays x (List.mem_append_right _ hx)) h
  | run first rest hFirst ih =>
    rw [Lexeme.scanFrom_append_of_isFirst hFirst] at hNumbers hStrays
    rw [hFirst.texts_append, List.mem_cons] at h
    rcases h with rfl | h
    · obtain ⟨c, tail, rfl, hBlank⟩ := hFirst.exists_cons
      have hGap : Text.isGap c = false := by
        rw [← Bool.not_eq_true]
        intro hGap
        rw [Text.isBlank_of_isGap hGap] at hBlank
        cases hBlank
      rw [Lexeme.scanFrom_cons hGap, List.cons_append] at hNumbers hStrays
      have hNumber := hNumbers _ List.mem_cons_self
      rcases Lexeme.head_stray_or_written c tail with hHead | hWritten
      · have hAll := hStrays _ List.mem_cons_self (by simp [hHead, Lexeme.isStray]) c
          List.mem_cons_self
        rw [hBlank] at hAll
        cases hAll
      · obtain ⟨d, text, hText, hd⟩ := hWritten.exists_cons_of_ne_number hNumber
        obtain ⟨rfl, -⟩ := List.cons.inj hText
        exact ⟨c, tail, rfl, hd⟩
    · exact ih _ (fun x hx => hNumbers x (List.mem_append_right _ hx))
        (fun x hx => hStrays x (List.mem_append_right _ hx)) h

/-! ### The length in force -/

/-- The length in force behind the lexemes of the text that stop at byte `n` or before it. -/
def lengthAt (text : List Char) (n : Nat) : Length :=
  (State.initial.advanceAll ((Lexeme.tokenize text).filter (·.span.stop ≤ n))).length

/-- Each macro that compaction drops sets the length in force where it stands. -/
def DropsInForce (text : List Char) : Prop :=
  ∀ run ∈ repeats text, run.length? = some (lengthAt text run.start)

/-- Each macro of the text is a run of its own. -/
def MacrosStandApart (text : List Char) : Prop :=
  ∀ run ∈ Run.scan text, run.length? = none →
    ∀ x ∈ Lexeme.tokenize run.text, x.token.length? = none

instance (text : List Char) : Decidable (DropsInForce text) :=
  inferInstanceAs (Decidable (∀ run ∈ repeats text, run.length? = some (lengthAt text run.start)))

instance (text : List Char) : Decidable (MacrosStandApart text) :=
  inferInstanceAs (Decidable (∀ run ∈ Run.scan text, run.length? = none →
    ∀ x ∈ Lexeme.tokenize run.text, x.token.length? = none))

theorem Run.map_fst_markRepeats (last : Option Length) (runs : List Run) :
    (markRepeats last runs).map (·.1) = runs := by
  induction runs generalizing last with
  | nil => rfl
  | cons run runs ih => rw [markRepeats, List.map_cons, ih]

theorem Run.mem_of_mem_markRepeats {last : Option Length} {runs : List Run} {p : Run × Bool}
    (h : p ∈ markRepeats last runs) : p.1 ∈ runs := by
  rw [← map_fst_markRepeats last runs]
  exact List.mem_map_of_mem h

namespace State

variable {s : State} {start : Nat} {last : Option Length} {text run rest : List Char} {b : Char}

theorem advanceAll_append (s : State) (xs ys : List Lexeme) :
    s.advanceAll (xs ++ ys) = (s.advanceAll xs).advanceAll ys := List.foldl_append

theorem advanceAll_filter (s : State) (xs : List Lexeme) :
    s.advanceAll (xs.filter (!·.isStray)) = s.advanceAll xs := by
  induction xs generalizing s with
  | nil => rfl
  | cons x xs ih =>
    cases hStray : x.isStray with
    | true =>
      have hToken : x.token = .stray := by simpa [Lexeme.isStray] using hStray
      rw [List.filter_cons_of_neg (by simp [hStray]), ih, advanceAll, advanceAll, List.foldl_cons,
        hToken]
      rfl
    | false =>
      rw [List.filter_cons_of_pos (by simp [hStray])]
      exact ih (s.advance x.token)

theorem advanceAll_strays {xs : List Lexeme} (h : ∀ x ∈ xs, x.isStray = true) (s : State) :
    s.advanceAll xs = s := by
  rw [← advanceAll_filter, List.filter_eq_nil_iff.mpr fun x hx => by simp [h x hx]]
  rfl

theorem advanceAll_content (s : State) (xs : List Lexeme) :
    s.advanceAll ((xs.map Lexeme.content).map unplaced) = s.advanceAll xs := by
  simp only [advanceAll, List.foldl_map]
  rfl

theorem advanceAll_contents (s : State) (start : Nat) (text : List Char) :
    s.advanceAll ((contents text).map unplaced) = s.advanceAll (Lexeme.scanFrom start text) := by
  have hContents : contents text =
      ((Lexeme.scanFrom start text).filter (!·.isStray)).map content := by
    rw [Lexeme.contents_eq start, List.filter_map]
    rfl
  rw [hContents, advanceAll_content, advanceAll_filter]

theorem length_advanceAll {xs : List Lexeme} (h : ∀ x ∈ xs, x.token.length? = none) :
    (s.advanceAll xs).length = s.length := by
  induction xs generalizing s with
  | nil => rfl
  | cons x xs ih =>
    have hNone := h x List.mem_cons_self
    have hSame : (s.advance x.token).length = s.length := by
      cases hToken : x.token <;> simp_all [advance, Token.length?]
    rw [← hSame]
    exact ih fun y hy => h y (List.mem_cons_of_mem _ hy)

theorem play_append (s : State) (cs ds : List (Token × List Char)) :
    s.play (cs ++ ds) = s.play cs ++ (s.advanceAll (cs.map unplaced)).play ds := by
  rw [play, List.map_append, emitAll_append, List.filter_append]
  rfl

/-- What `DropsInForce` says of a text that is played from `s` on, where compaction has seen the
macro `last` before it. -/
def DropsInForce (s : State) (start : Nat) (last : Option Length) (text : List Char) : Prop :=
  ∀ run ∈ ((Run.markRepeats last (Run.scanFrom start text)).filter (·.2)).map (·.1),
    run.length? = some (s.advanceAll
      ((Lexeme.scanFrom start text).filter (·.span.stop ≤ run.start))).length

theorem dropsInForce_iff : s.DropsInForce start last text ↔
    ∀ p ∈ Run.markRepeats last (Run.scanFrom start text), p.2 = true →
      p.1.length? = some (s.advanceAll
        ((Lexeme.scanFrom start text).filter (·.span.stop ≤ p.1.start))).length := by
  simp only [DropsInForce, List.forall_mem_map, List.mem_filter, and_imp]

theorem dropsInForce_blank (h : Text.isBlank b = true) :
    s.DropsInForce start last (b :: text) ↔ s.DropsInForce (start + b.utf8Size) last text := by
  obtain ⟨dropped, hDropped, hScan⟩ := Lexeme.exists_scanFrom_blank h start text
  unfold DropsInForce
  rw [Run.scanFrom_blank h, hScan]
  simp only [List.filter_append, advanceAll_append]
  refine forall₂_congr fun run _ => ?_
  rw [advanceAll_strays fun x hx => hDropped x (List.mem_of_mem_filter hx)]

/-- A first run is dropped only where its length is in force, and behind it the player goes on. -/
theorem dropsInForce_append (h : Run.IsFirst run rest) :
    s.DropsInForce start last (run ++ rest) ↔
      (∀ length, Length.parseMacro? run = some length → last = some length → s.length = length) ∧
        (s.advanceAll (Lexeme.scanFrom start run)).DropsInForce (start + Text.byteSize run)
          (Length.parseMacro? run <|> last) rest := by
  rw [dropsInForce_iff, dropsInForce_iff, h.scanFrom_append, Run.markRepeats, List.forall_mem_cons]
  refine and_congr ?_ (forall₂_congr fun p hp => imp_congr_right fun _ => ?_)
  · -- nothing stops before the run starts
    have hNone : (Lexeme.scanFrom start (run ++ rest)).filter (·.span.stop ≤ start) = [] := by
      rw [List.filter_eq_nil_iff]
      intro x hx
      have hBounds := Lexeme.bounds_of_mem_scanFrom hx
      simpa using hBounds.1
    rw [hNone]
    simp only [Run.isRepeat, Run.length?, Bool.and_eq_true, beq_iff_eq, advanceAll, List.foldl_nil]
    cases Length.parseMacro? run <;> simp [eq_comm]
  · -- the lexemes of the run stop before the runs behind it start
    have hStart : start + Text.byteSize run ≤ p.1.start :=
      Run.start_le_of_mem_scanFrom (Run.mem_of_mem_markRepeats hp)
    have hAll : (Lexeme.scanFrom start run).filter (·.span.stop ≤ p.1.start) =
        Lexeme.scanFrom start run := by
      rw [List.filter_eq_self]
      intro x hx
      have hBounds := Lexeme.bounds_of_mem_scanFrom hx
      simp only [decide_eq_true_eq]
      omega
    rw [Lexeme.scanFrom_append_of_isFirst h, List.filter_append, hAll, advanceAll_append]

/-- What compaction leaves of a text is played as the text, if each macro that it drops sets the
length in force. -/
theorem playKept_texts (h : s.DropsInForce start last text) :
    s.playKept last (Run.texts text) = s.play (contents text) := by
  induction text using Run.scan_induction generalizing s start last with
  | nil => simp [playKept, dropRepeats]
  | blank b text hBlank ih =>
    rw [Run.texts_blank hBlank, Lexeme.contents_blank hBlank]
    exact ih ((dropsInForce_blank hBlank).mp h)
  | run run rest hFirst ih =>
    obtain ⟨hForce, hRest⟩ := (dropsInForce_append hFirst).mp h
    rw [← advanceAll_contents] at hRest
    rw [hFirst.texts_append, Lexeme.contents_append_of_isFirst hFirst, play_append, ← ih hRest]
    cases hLength : Length.parseMacro? run with
    | none =>
      rw [playKept, dropRepeats_cons_none hLength, List.flatMap_cons, play_append]
      rfl
    | some length =>
      have hWritten : Written run (.lengthMacro length) := Token.written_of_parseMacro? hLength
      rw [playKept_cons_length hWritten (hForce length hLength), contents_written hWritten]
      simp [play, emitAll, advanceAll, unplaced, emit?, advance, Fragment.isMacro, hLength]

/-- Where each macro is a run of its own, the length that was set last is in force. -/
theorem dropsInForce_of_apart
    (h : ∀ run ∈ Run.scanFrom start text, run.length? = none →
      ∀ x ∈ Lexeme.tokenize run.text, x.token.length? = none)
    (hLast : ∀ length, last = some length → s.length = length) :
    s.DropsInForce start last text := by
  induction text using Run.scan_induction generalizing s start last with
  | nil => simp [DropsInForce, Run.scanFrom, Run.markRepeats]
  | blank b text hBlank ih =>
    rw [Run.scanFrom_blank hBlank] at h
    exact (dropsInForce_blank hBlank).mpr (ih h hLast)
  | run run rest hFirst ih =>
    rw [hFirst.scanFrom_append, List.forall_mem_cons] at h
    refine (dropsInForce_append hFirst).mpr ⟨fun length _ => hLast length, ih h.2 ?_⟩
    rw [← advanceAll_contents]
    cases hLength : Length.parseMacro? run with
    | none =>
      have hSame : (s.advanceAll ((contents run).map unplaced)).length = s.length := by
        rw [contents, advanceAll_content]
        exact length_advanceAll (h.1 hLength)
      rw [hSame]
      exact hLast
    | some length =>
      rw [contents_written (Token.written_of_parseMacro? hLength)]
      rintro _ ⟨rfl⟩
      rfl

end State

/-- Compaction changes no length of a text without numbers and without strays but blanks, if each
macro that it drops sets the length in force where it stands.  It is so if each macro is a run of
its own: a macro that is glued to a token before it sets a length that compaction does not see. -/
theorem play_compact {text : List Char} (hNumbers : ∀ x ∈ Lexeme.tokenize text, x.token ≠ .number)
    (hStrays : ∀ x ∈ Lexeme.strays text, ∀ c ∈ x.raw, Text.isBlank c = true) :
    (DropsInForce text → withoutMacros (Lexeme.tokenize (compact text))
        (State.initial.emitAll (Lexeme.tokenize (compact text))) =
      withoutMacros (Lexeme.tokenize text) (State.initial.emitAll (Lexeme.tokenize text))) ∧
    (MacrosStandApart text → DropsInForce text) := by
  have hInForce : DropsInForce text ↔ State.initial.DropsInForce 0 none text := by
    simp only [DropsInForce, State.DropsInForce, repeats, lengthAt, Run.scan, Lexeme.tokenize,
      Lexeme.scan, ← State.advanceAll_filter _ (List.filter (fun x => decide _) _),
      List.filter_filter, Bool.and_comm]
  rw [hInForce]
  constructor
  · intro hDrops
    have hAnew : ∀ run ∈ dropRepeats Length.parseMacro? none (Run.texts text),
        ∃ c tail, run = c :: tail ∧ isInner c = false := by
      refine fun run hRun => Run.exists_cons_of_mem_texts 0 ?_ ?_
        (mem_of_mem_dropRepeats hRun)
      · intro x hx
        cases hStray : x.isStray with
        | true =>
          have hToken : x.token = .stray := by simpa [Lexeme.isStray] using hStray
          simp [hToken]
        | false => exact hNumbers x (List.mem_filter.mpr ⟨hx, by simp [hStray]⟩)
      · intro x hx hStray
        exact hStrays x (List.mem_filter.mpr ⟨hx, hStray⟩)
    rw [(sameMacros_emitAll _ _).withoutMacros_eq, (sameMacros_emitAll _ _).withoutMacros_eq,
      ← State.play_content, ← State.play_content]
    change State.initial.play (contents (compact text)) = State.initial.play (contents text)
    rw [compact_eq, Lexeme.contents_flatten hAnew]
    exact State.playKept_texts hDrops
  · intro hApart
    refine State.dropsInForce_of_apart hApart ?_
    intro length hLast
    cases hLast

/-- A text whose glued macro is seen by the player alone, and a macro that is dropped before it. -/
theorem play_compact_glued : withoutMacros
    (Lexeme.tokenize (compact "l8c l08>c v9l4\u00a0r l4 l8.c l8.e".toList)) (State.initial.emitAll
      (Lexeme.tokenize (compact "l8c l08>c v9l4\u00a0r l4 l8.c l8.e".toList))) =
    [.note ⟨8, false⟩ ['4', '8'], .note ⟨8, false⟩ ['6', '0'], .verbatim ['v', '9'],
      .rest ⟨4, false⟩, .note ⟨8, true⟩ ['6', '0'], .note ⟨8, true⟩ ['6', '4']] := by
  have hStrays : (Lexeme.strays "l8c l08>c v9l4\u00a0r l4 l8.c l8.e".toList).all
      (·.raw.all Text.isBlank) = true := by decide +kernel
  exact ((play_compact (by decide +kernel) fun x hx =>
    List.all_eq_true.mp (List.all_eq_true.mp hStrays x hx)).1 (by decide +kernel)).trans
      (by decide +kernel)

/-- The player has the length 8 where compaction drops the second `l4`. -/
example : compact "l4cl8 l4c".toList = "l4cl8c".toList ∧ ¬DropsInForce "l4cl8 l4c".toList := by
  decide +kernel

end Drumline
