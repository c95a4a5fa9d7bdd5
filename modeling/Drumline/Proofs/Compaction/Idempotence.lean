import Drumline.Proofs.Compaction.Runs
import Drumline.Proofs.Voice.SelfDelimiting

/-! Compacting a compacted text.  The second compaction reads other runs than the first one: the
macros that come first, and all the rest as one stretch.  The main statement is `compact_compact`,
that it changes nothing if no run makes a run before it longer. -/

namespace Drumline

open Token (HeadNot headNot_cons)

namespace Run

variable {run text : List Char} {runs : List (List Char)}

/-- The run makes no run before it longer. -/
def StartsAnew (run : List Char) : Prop := HeadNot isDigitOrDot run

/-- No stretch of the text starts with a digit or a dot. -/
def StretchesStartAnew (text : List Char) : Prop :=
  ∀ run ∈ scan text, run.length? = none → StartsAnew run.text

instance (run : List Char) : Decidable (StartsAnew run) :=
  inferInstanceAs (Decidable (HeadNot isDigitOrDot run))

instance (text : List Char) : Decidable (StretchesStartAnew text) :=
  inferInstanceAs (Decidable (∀ run ∈ scan text, run.length? = none → StartsAnew run.text))

theorem IsMacro.startsAnew (h : IsMacro run) : StartsAnew run := by
  obtain ⟨hDigits, dotted⟩ := h
  rw [StartsAnew, headNot_cons]
  rfl

theorem StretchesStartAnew.startsAnew (h : StretchesStartAnew text) (hRun : run ∈ texts text) :
    StartsAnew run := by
  obtain ⟨r, hr, rfl⟩ := List.mem_map.mp hRun
  cases hLength : r.length? with
  | none => exact h r hr hLength
  | some length => exact (isMacro_iff.mpr ⟨length, hLength⟩).startsAnew

/-- A stretch goes on through all the runs that are glued to it. -/
theorem IsStretch.append_flatten (h : IsStretch run) (hAnew : ∀ next ∈ runs, StartsAnew next)
    (hSolid : ∀ next ∈ runs, ∀ c ∈ next, isSolid c = true) (hNe : ∀ next ∈ runs, next ≠ []) :
    IsStretch (run ++ runs.flatten) := by
  refine ⟨by simp [h.ne_nil], ?_, ?_⟩
  · intro c hc
    rcases List.mem_append.mp hc with hc | hc
    · exact h.solid c hc
    · obtain ⟨next, hNext, hc⟩ := List.mem_flatten.mp hc
      exact hSolid next hNext c hc
  · intro tail hTail
    obtain ⟨c, rest, rfl⟩ := List.exists_cons_of_ne_nil h.ne_nil
    obtain ⟨rfl, rfl⟩ := List.cons.inj hTail
    cases rest with
    | cons d rest => simpa using h.no_macro _ rfl
    | nil =>
      -- a lone `l` takes no digits from the run behind it
      have hHead : HeadNot isDigitOrDot runs.flatten :=
        (headNot_flatten_iff hNe).mpr fun next hNext => hAnew next (List.mem_of_mem_head? hNext)
      intro d hd
      exact (Bool.or_eq_false_iff.mp (hHead d hd)).1

/-- Runs that were left are left again where they are glued together. -/
theorem flatten_dropRepeats_texts (hRuns : ∀ run ∈ runs, IsMacro run ∨ IsStretch run)
    (hAnew : ∀ run ∈ runs, StartsAnew run) (last : Option Length) :
    (dropRepeats Length.parseMacro? last
      (texts (dropRepeats Length.parseMacro? last runs).flatten)).flatten =
        (dropRepeats Length.parseMacro? last runs).flatten := by
  induction runs generalizing last with
  | nil => simp [dropRepeats]
  | cons run runs ih =>
    have hLeft := ih (fun next hNext => hRuns next (List.mem_cons_of_mem _ hNext))
      fun next hNext => hAnew next (List.mem_cons_of_mem _ hNext)
    have hMem : ∀ {last : Option Length}, ∀ next ∈ dropRepeats Length.parseMacro? last runs,
        next ∈ run :: runs :=
      fun next hNext => List.mem_cons_of_mem _ (mem_of_mem_dropRepeats hNext)
    have hNe : ∀ next ∈ run :: runs, next ≠ [] := by
      rintro next hNext rfl
      rcases hRuns [] hNext with h | h
      · cases h
      · exact h.ne_nil rfl
    rcases hRuns run List.mem_cons_self with hMacro | hStretch
    · obtain ⟨length, hLength⟩ := isMacro_iff.mp hMacro
      by_cases hRepeat : last = some length
      · rw [hRepeat, dropRepeats_cons_repeat hLength]
        exact hLeft (some length)
      · obtain ⟨hDigits, dotted⟩ := hMacro
        have hRest : HeadNot isDigitOrDot
            (dropRepeats Length.parseMacro? (some length) runs).flatten :=
          (headNot_flatten_iff fun next hNext => hNe next (hMem next hNext)).mpr
            fun next hNext => hAnew next (hMem next (List.mem_of_mem_head? hNext))
        rw [dropRepeats_cons_new hLength hRepeat, List.flatten_cons,
          (IsFirst.lengthMacro hDigits dotted fun _ => hRest).texts_append,
          dropRepeats_cons_new hLength hRepeat, List.flatten_cons, hLeft]
    · have hGlued : IsStretch (run ++ (dropRepeats Length.parseMacro? last runs).flatten) := by
        refine hStretch.append_flatten (fun next hNext => hAnew next (hMem next hNext)) ?_
          fun next hNext => hNe next (hMem next hNext)
        intro next hNext
        exact (hRuns next (hMem next hNext)).elim IsMacro.solid IsStretch.solid
      rw [dropRepeats_cons_none hStretch.parseMacro?_eq_none, List.flatten_cons,
        texts_stretch hGlued, dropRepeats_cons_none hGlued.parseMacro?_eq_none]
      simp [dropRepeats]

end Run

/-- Compacting a compacted text changes nothing, if no stretch of the text starts with a digit or a
dot.  In a voice without numbers no stretch does. -/
theorem compact_compact (text : List Char) :
    (Run.StretchesStartAnew text → compact (compact text) = compact text) ∧
      ∀ voice, (∀ x ∈ Lexeme.tokenize voice, x.token ≠ .number) →
        Run.StretchesStartAnew (Voice.spaced voice) := by
  constructor
  · intro h
    rw [compact_eq (compact text), compact_eq text]
    exact Run.flatten_dropRepeats_texts (fun _ => Run.isMacro_or_isStretch)
      (fun _ hRun => h.startsAnew hRun) none
  · intro voice hNumbers run hRun _
    have hTexts : Run.texts (Voice.spaced voice) = Voice.words voice := by
      rw [Voice.spaced_eq_intercalate]
      exact Run.texts_intercalate_words fun _ => Voice.isWord_of_mem_words
    have hWord : run.text ∈ Voice.words voice := hTexts ▸ List.mem_map_of_mem hRun
    obtain ⟨c, tail, hText, hc⟩ := Voice.exists_cons_of_mem_words hNumbers hWord
    rw [hText, Run.StartsAnew, headNot_cons]
    exact isDigitOrDot_eq_false hc

/-- A text with zeros before a length, a lone `l`, a second dot and macros that set a length anew;
and a voice whose text is compacted once more. -/
theorem compact_compact_dots :
    (Run.StretchesStartAnew "l08 l8 l\tv5l4 l l8.\u00a0l8.c8.. l8r".toList ∧
      compact (compact "l08 l8 l\tv5l4 l l8.\u00a0l8.c8.. l8r".toList) =
        "l08lv5l4ll8.c8..l8r".toList) ∧
    compact (compact (Voice.spaced "l08c&d8 v5>a-.".toList)) = "l08n48&rv5l8.n68".toList := by
  have hAnew : Run.StretchesStartAnew "l08 l8 l\tv5l4 l l8.\u00a0l8.c8.. l8r".toList := by
    decide +kernel
  have hVoice : Run.StretchesStartAnew (Voice.spaced "l08c&d8 v5>a-.".toList) :=
    (compact_compact []).2 _ (by decide +kernel)
  exact ⟨⟨hAnew, ((compact_compact _).1 hAnew).trans (by decide +kernel)⟩,
    ((compact_compact _).1 hVoice).trans (by decide +kernel)⟩

end Drumline
