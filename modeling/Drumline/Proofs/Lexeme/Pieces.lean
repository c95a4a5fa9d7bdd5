import Drumline.Proofs.Lexeme.Tiling
import Drumline.Proofs.State.Exact
import Drumline.Proofs.Voice.Tie

/-! Reading a text piece by piece.  White space is passed over (`scanFrom_gaps`) and a lexeme is the
same wherever its text starts (`scanFrom_add`), so that a text with white space in it is read as the
texts on the two sides.  The main statement is `tokenize_piecewise`. -/

namespace Drumline

namespace Lexeme

open Text

variable {gaps before after text : List Char}

/-- The lexeme behind `n` more bytes. -/
def shift (n : Nat) (x : Lexeme) : Lexeme := { x with span := ⟨n + x.span.start, n + x.span.stop⟩ }

theorem scanFrom_add (n start : Nat) (text : List Char) :
    scanFrom (n + start) text = (scanFrom start text).map (shift n) := by
  induction start, text using scanFrom.induct with
  | case1 start => simp [scanFrom]
  | case2 start c text hGap ih => rw [scanFrom_gap hGap, scanFrom_gap hGap, Nat.add_assoc, ih]
  | case3 start c text hGap stop ih =>
    rw [Bool.not_eq_true] at hGap
    rw [scanFrom_cons hGap, scanFrom_cons hGap, List.map_cons, Nat.add_assoc, ih]
    rfl

theorem scanFrom_eq_map (start : Nat) (text : List Char) :
    scanFrom start text = (scan text).map (shift start) :=
  scanFrom_add start 0 text

theorem scanFrom_gaps (h : ∀ c ∈ gaps, isGap c = true) (start : Nat) (text : List Char) :
    scanFrom start (gaps ++ text) = scanFrom (start + byteSize gaps) text := by
  induction gaps generalizing start with
  | nil => rfl
  | cons c gaps ih =>
    rw [List.forall_mem_cons] at h
    rw [List.cons_append, scanFrom_gap h.1, ih h.2, byteSize_cons, Nat.add_assoc]

theorem tokenize_append_gaps (hNe : gaps ≠ []) (h : ∀ c ∈ gaps, isGap c = true)
    (before after : List Char) : tokenize (before ++ gaps ++ after) =
      tokenize before ++ (tokenize after).map (shift (byteSize (before ++ gaps))) := by
  obtain ⟨c, more, rfl⟩ := List.exists_cons_of_ne_nil hNe
  have hInner : Token.isInner c = false :=
    Run.isInner_eq_false_of_isBlank (isBlank_of_isGap (h c List.mem_cons_self))
  have hScan : scan (before ++ (c :: more) ++ after) =
      scan before ++ (scan after).map (shift (byteSize (before ++ c :: more))) := by
    rw [scan, List.append_assoc, List.cons_append, scanFrom_append_cons hInner, ← List.cons_append,
      scanFrom_gaps h, ← scanFrom_eq_map, byteSize_append, Nat.zero_add]
    rfl
  rw [tokenize, hScan, List.filter_append, List.filter_map]
  rfl

/-- The texts of the lexemes, with spaces between them, are read as these lexemes. -/
theorem contents_intercalate_raws (text : List Char) :
    contents (List.intercalate [' '] ((tokenize text).map (·.raw))) = contents text := by
  have hRaw : ∀ x ∈ tokenize text, contents x.raw = [x.content] := fun x hx =>
    contents_written (written_of_mem_tokenize hx)
  rw [contents_intercalate, List.flatMap_map, List.flatMap_congr hRaw, ← List.map_eq_flatMap]
  rfl

end Lexeme

theorem State.emitAll_shift (s : State) (n : Nat) (xs : List Lexeme) :
    s.emitAll (xs.map (Lexeme.shift n)) = s.emitAll xs := by
  induction xs generalizing s with
  | nil => rfl
  | cons x xs ih =>
    rw [List.map_cons, emitAll, emitAll, ← ih]
    rfl

namespace Lexeme

variable {gaps : List Char}

/-- White space divides a text into two that are read one after the other, the second one in the
state in which the first one ends; a tie at the end of the first one silences a note at the start of
the second one.  So a text is read anew from the texts of its lexemes. -/
theorem tokenize_piecewise (hNe : gaps ≠ []) (hGaps : ∀ c ∈ gaps, c ∈ [' ', '\t', '\r', '\n'])
    (before after : List Char) :
    tokenize (before ++ gaps ++ after) =
        tokenize before ++ (tokenize after).map (shift (Text.byteSize (before ++ gaps))) ∧
      Voice.fragments (before ++ gaps ++ after) =
        Fragment.resolveTies (State.initial.emitAll (tokenize before) ++
          (Voice.finalState before).emitAll (tokenize after)) ∧
      Voice.fragments (before ++ gaps ++ after) =
        Fragment.resolveTies (Voice.fragments before ++
          (Voice.finalState before).emitAll (tokenize after)) ∧
      ∀ text : List Char,
        contents (List.intercalate [' '] ((tokenize text).map (·.raw))) = contents text := by
  have hTokens := tokenize_append_gaps hNe (fun c hc => Text.isGap_iff.mpr (hGaps c hc))
    before after
  have hEmitted : State.initial.emitAll (tokenize (before ++ gaps ++ after)) =
      State.initial.emitAll (tokenize before) ++
        (Voice.finalState before).emitAll (tokenize after) := by
    rw [hTokens, State.emitAll_append, State.emitAll_shift]
    rfl
  have hFragments : Voice.fragments (before ++ gaps ++ after) =
      Fragment.resolveTies (State.initial.emitAll (tokenize before) ++
        (Voice.finalState before).emitAll (tokenize after)) := by
    rw [Voice.fragments, hEmitted]
  refine ⟨hTokens, hFragments, ?_, contents_intercalate_raws⟩
  rw [hFragments]
  exact (Fragment.resolveAfter_append false _ _).symm

/-- A tie and a length macro before the white space, and a dropped character behind it. -/
theorem tokenize_piecewise_tie :
    Voice.fragments ("o5l8.c&".toList ++ " \t\r\n".toList ++ "é>d r4".toList) =
      [.verbatim "l8.".toList, .note ⟨8, true⟩ "60".toList, .tie, .rest ⟨8, true⟩,
        .rest ⟨4, false⟩] :=
  (tokenize_piecewise (by simp) (by simp) _ _).2.1.trans (by decide +kernel)

end Lexeme

end Drumline
