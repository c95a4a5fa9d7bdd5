import Drumline.Proofs.Compaction
import Drumline.Proofs.Compaction.Macros
import Mathlib.Data.List.Chain
import Mathlib.Data.List.Induction

/-! What compaction keeps.  `Reads` says what the runs of a text are, and `IsRepeatIn` that a run is
a macro which sets the length that the nearest macro before it sets, be that one kept or not.  The
loop of compaction knows only the last macro that it kept, but that one sets the same length as the
last macro that was read (`lastLength_dropRepeats`).  The main statement is `compact_keeps`, that a
compacted text is made of the runs that are no repeats, in order. -/

namespace Drumline

open Token (HeadNot dotText)

section Repeats

variable {α : Type} {length? : α → Option Length}

theorem lastLength_append (xs ys : List α) (last : Option Length) :
    lastLength length? last (xs ++ ys) = lastLength length? (lastLength length? last xs) ys :=
  List.foldl_append

/-- The last length that is kept is the last one that is set. -/
theorem lastLength_dropRepeats (xs : List α) (last : Option Length) :
    lastLength length? last (dropRepeats length? last xs) = lastLength length? last xs := by
  induction xs generalizing last with
  | nil => rfl
  | cons x xs ih =>
    cases hLength : length? x with
    | none =>
      rw [dropRepeats_cons_none hLength]
      simp only [lastLength, List.foldl_cons, hLength]
      exact ih last
    | some length =>
      by_cases hRepeat : last = some length
      · rw [hRepeat, dropRepeats_cons_repeat hLength, ih]
        simp [lastLength, hLength]
      · rw [dropRepeats_cons_new hLength hRepeat]
        simp only [lastLength, List.foldl_cons, hLength]
        exact ih (some length)

/-- No length is set twice in a row. -/
theorem isChain_lengths_dropRepeats (xs : List α) (last : Option Length) :
    ((dropRepeats length? last xs).filterMap length?).IsChain (· ≠ ·) ∧
      ∀ length ∈ ((dropRepeats length? last xs).filterMap length?).head?, last ≠ some length := by
  induction xs generalizing last with
  | nil => simp [dropRepeats]
  | cons x xs ih =>
    cases hLength : length? x with
    | none =>
      rw [dropRepeats_cons_none hLength, List.filterMap_cons_none hLength]
      exact ih last
    | some length =>
      by_cases hRepeat : last = some length
      · rw [hRepeat, dropRepeats_cons_repeat hLength]
        exact ih (some length)
      · rw [dropRepeats_cons_new hLength hRepeat, List.filterMap_cons_some hLength,
          List.isChain_cons]
        refine ⟨⟨?_, (ih (some length)).1⟩, ?_⟩
        · intro next hNext hEq
          exact (ih (some length)).2 next hNext (congrArg some hEq)
        · simpa using hRepeat

end Repeats

namespace Run

variable {text run rest : List Char} {runs before after : List Run} {start n : Nat}

/-! ### The runs of a text -/

/-- The runs of a text that starts at byte `start`: blanks are passed over, a length macro is a run
up to where it ends, and the longest stretch without blanks is a run where no macro comes first. -/
inductive Reads : Nat → List Char → List Run → Prop
  | nil {start : Nat} : Reads start [] []
  | blank {start : Nat} {b : Char} {text : List Char} {runs : List Run}
      (hBlank : Text.isBlank b = true) (h : Reads (start + b.utf8Size) text runs) :
      Reads start (b :: text) runs
  | lengthMacro {start : Nat} {digits rest : List Char} {runs : List Run}
      (hDigits : Numeral.isNumeral digits = true) (dotted : Bool)
      (hRest : dotted = false → HeadNot isDigitOrDot rest)
      (h : Reads (start + Text.byteSize ('l' :: (digits ++ dotText dotted))) rest runs) :
      Reads start ('l' :: (digits ++ dotText dotted) ++ rest)
        (⟨'l' :: (digits ++ dotText dotted), start, true⟩ :: runs)
  | stretch {start : Nat} {run rest : List Char} {runs : List Run} (hRun : IsStretch run)
      (hRest : HeadNot isSolid rest) (h : Reads (start + Text.byteSize run) rest runs) :
      Reads start (run ++ rest) (⟨run, start, false⟩ :: runs)

theorem reads_scanFrom (start : Nat) (text : List Char) :
    Reads start text (scanFrom start text) := by
  induction text using scan_induction generalizing start with
  | nil => simpa [scanFrom] using Reads.nil
  | blank b text hBlank ih =>
    rw [scanFrom_blank hBlank]
    exact .blank hBlank (ih _)
  | run run rest hFirst ih =>
    rw [hFirst.scanFrom_append]
    cases hFirst with
    | lengthMacro hDigits dotted hRest =>
      rw [Length.parseMacro?_append hDigits]
      exact .lengthMacro hDigits dotted hRest (ih _)
    | stretch hRun hRest =>
      rw [hRun.parseMacro?_eq_none]
      exact .stretch hRun hRest (ih _)

theorem Reads.eq_scanFrom (h : Reads start text runs) : runs = scanFrom start text := by
  induction h with
  | nil => simp [scanFrom]
  | blank hBlank h ih => rw [scanFrom_blank hBlank, ih]
  | lengthMacro hDigits dotted hRest h ih =>
    rw [(IsFirst.lengthMacro hDigits dotted hRest).scanFrom_append,
      Length.parseMacro?_append hDigits, ih]
    rfl
  | stretch hRun hRest h ih =>
    rw [(IsFirst.stretch hRun hRest).scanFrom_append, hRun.parseMacro?_eq_none, ih]
    rfl

theorem reads_iff : Reads start text runs ↔ runs = scanFrom start text := by
  constructor
  · exact Reads.eq_scanFrom
  · rintro rfl
    exact reads_scanFrom start text

theorem pairwise_scanFrom (start : Nat) (text : List Char) :
    (scanFrom start text).Pairwise (·.start < ·.start) := by
  induction text using scan_induction generalizing start with
  | nil => simp [scanFrom]
  | blank b text hBlank ih =>
    rw [scanFrom_blank hBlank]
    exact ih _
  | run run rest hFirst ih =>
    rw [hFirst.scanFrom_append, List.pairwise_cons]
    refine ⟨fun next hNext => ?_, ih _⟩
    have hStart := start_le_of_mem_scanFrom hNext
    obtain ⟨c, tail, rfl, -⟩ := hFirst.exists_cons
    have hSize := c.utf8Size_pos
    rw [Text.byteSize_cons] at hStart
    show start < next.start
    omega

theorem filter_isSolid_of_mem_texts (h : run ∈ texts text) : run.filter isSolid = run := by
  rw [List.filter_eq_self]
  exact (isMacro_or_isStretch h).elim IsMacro.solid IsStretch.solid

/-- The runs are all characters of the text but its blanks. -/
theorem flatten_texts (text : List Char) : (texts text).flatten = text.filter isSolid := by
  induction text using scan_induction with
  | nil => simp
  | blank b text hBlank ih =>
    rw [texts_blank hBlank, ih, List.filter_cons_of_neg (by simp [isSolid, hBlank])]
  | run run rest hFirst ih =>
    have hRun : run ∈ texts (run ++ rest) := by simp [hFirst.texts_append]
    rw [hFirst.texts_append, List.flatten_cons, ih, List.filter_append,
      filter_isSolid_of_mem_texts hRun]

/-- Deleting the blanks takes the spaces between words away and nothing else. -/
theorem filter_intercalate {words : List (List Char)}
    (h : ∀ word ∈ words, word.filter isSolid = word) :
    (List.intercalate [' '] words).filter isSolid = words.flatten := by
  induction words with
  | nil => rfl
  | cons word words ih =>
    rw [List.forall_mem_cons] at h
    have hSpace : isSolid ' ' = false := by decide
    cases words with
    | nil => simp [h.1]
    | cons next words =>
      rw [List.intercalate_cons_cons, List.filter_append, List.filter_append, h.1, ih h.2,
        List.filter_cons_of_neg (by simp [hSpace])]
      simp

/-! ### Repeats -/

/-- The last macro among the runs that start before byte `n`. -/
def macroBefore? (runs : List Run) (n : Nat) : Option Run :=
  (runs.filter fun run => run.asMacro && run.start < n).getLast?

/-- The length that is set by the last macro among the runs that start before byte `n`. -/
def lengthBefore? (runs : List Run) (n : Nat) : Option Length :=
  (macroBefore? runs n).bind length?

/-- The run is a macro, and the nearest macro before it among the runs sets the same length. -/
def IsRepeatIn (runs : List Run) (run : Run) : Prop :=
  run.asMacro = true ∧ lengthBefore? runs run.start = run.length?

instance (runs : List Run) : DecidablePred (IsRepeatIn runs) := fun run =>
  inferInstanceAs (Decidable (run.asMacro = true ∧ lengthBefore? runs run.start = run.length?))

/-- The runs of a text without the repeats. -/
def kept (text : List Char) : List Run :=
  (scan text).filter fun run => ¬IsRepeatIn (scan text) run

theorem getLast?_filter_asMacro (h : ∀ run ∈ runs, run.asMacro = run.length?.isSome) :
    (runs.filter (·.asMacro)).getLast?.bind length? = lastLength length? none runs := by
  induction runs using List.reverseRecOn with
  | nil => rfl
  | append_singleton runs run ih =>
    rw [List.forall_mem_append] at h
    have hRun : run.asMacro = run.length?.isSome := h.2 run (by simp)
    rw [lastLength_append, List.filter_append, ← ih h.1]
    cases hLength : run.length? <;> simp [hRun, hLength, lastLength]

theorem lengthBefore?_append (h : ∀ run ∈ before, run.asMacro = run.length?.isSome)
    (hBefore : ∀ run ∈ before, run.start < n) (hAfter : ∀ run ∈ after, n ≤ run.start) :
    lengthBefore? (before ++ after) n = lastLength length? none before := by
  have hFirst : before.filter (fun run => run.asMacro && run.start < n) =
      before.filter (·.asMacro) :=
    List.filter_congr fun run hRun => by simp [hBefore run hRun]
  have hRest : after.filter (fun run => run.asMacro && run.start < n) = [] := by
    rw [List.filter_eq_nil_iff]
    intro run hRun
    simp [hAfter run hRun]
  rw [lengthBefore?, macroBefore?, List.filter_append, hFirst, hRest, List.append_nil,
    getLast?_filter_asMacro h]

/-- Whether a run is a repeat is decided by the length that was set last before it. -/
theorem isRepeatIn_iff {run : Run}
    (h : ∀ r ∈ before ++ run :: runs, r.asMacro = r.length?.isSome)
    (hSorted : (before ++ run :: runs).Pairwise (·.start < ·.start)) :
    IsRepeatIn (before ++ run :: runs) run ↔
      (run.length?.isSome && run.length? == lastLength length? none before) = true := by
  obtain ⟨-, hRuns, hBefore⟩ := List.pairwise_append.mp hSorted
  have hLast : lengthBefore? (before ++ run :: runs) run.start =
      lastLength length? none before := by
    refine lengthBefore?_append (fun r hr => h r (List.mem_append_left _ hr))
      (fun r hr => hBefore r hr run List.mem_cons_self) ?_
    exact List.forall_mem_cons.mpr
      ⟨Nat.le_refl _, fun r hr => Nat.le_of_lt ((List.pairwise_cons.mp hRuns).1 r hr)⟩
  have hRun : run.asMacro = run.length?.isSome := h run (by simp)
  rw [IsRepeatIn, hLast, hRun, Bool.and_eq_true, beq_iff_eq, @eq_comm _ run.length?]

/-- Dropping the repeats one after the other leaves the runs that are no repeats. -/
theorem filter_isRepeatIn (before runs : List Run)
    (h : ∀ run ∈ before ++ runs, run.asMacro = run.length?.isSome)
    (hSorted : (before ++ runs).Pairwise (·.start < ·.start)) :
    runs.filter (fun run => ¬IsRepeatIn (before ++ runs) run) =
      dropRepeats length? (lastLength length? none before) runs := by
  induction runs generalizing before with
  | nil => rfl
  | cons run runs ih =>
    have hSplit : before ++ run :: runs = (before ++ [run]) ++ runs := by simp
    have hRest := ih (before ++ [run]) (hSplit ▸ h) (hSplit ▸ hSorted)
    rw [← hSplit, lastLength_append] at hRest
    have hIff := isRepeatIn_iff h hSorted
    by_cases hRepeat : IsRepeatIn (before ++ run :: runs) run
    · have hSame := hIff.mp hRepeat
      rw [List.filter_cons_of_neg (by simpa using hRepeat), hRest, dropRepeats, if_pos hSame]
      simp only [Bool.and_eq_true, beq_iff_eq] at hSame
      obtain ⟨length, hLength⟩ := Option.isSome_iff_exists.mp hSame.1
      rw [← hSame.2, hLength]
      simp [lastLength, hLength]
    · rw [List.filter_cons_of_pos (by simpa using hRepeat), hRest, dropRepeats,
        if_neg (mt hIff.mpr hRepeat)]
      rfl

theorem kept_eq (text : List Char) : kept text = dropRepeats length? none (scan text) :=
  filter_isRepeatIn [] (scan text) (fun _ => asMacro_eq) (pairwise_scanFrom 0 text)

theorem map_text_kept (text : List Char) :
    (kept text).map (·.text) = dropRepeats Length.parseMacro? none (texts text) := by
  rw [kept_eq]
  exact map_dropRepeats Run.text (scan text) none

theorem exists_split (h : runs.Pairwise (·.start < ·.start)) (n : Nat) :
    ∃ before after, runs = before ++ after ∧ (∀ run ∈ before, run.start < n) ∧
      ∀ run ∈ after, n ≤ run.start := by
  induction runs with
  | nil => exact ⟨[], [], rfl, by simp, by simp⟩
  | cons run runs ih =>
    obtain ⟨hRun, hRuns⟩ := List.pairwise_cons.mp h
    by_cases hStart : run.start < n
    · obtain ⟨before, after, rfl, hBefore, hAfter⟩ := ih hRuns
      exact ⟨run :: before, after, rfl, List.forall_mem_cons.mpr ⟨hStart, hBefore⟩, hAfter⟩
    · refine ⟨[], run :: runs, rfl, by simp, List.forall_mem_cons.mpr ⟨by omega, ?_⟩⟩
      intro next hNext
      have := hRun next hNext
      omega

/-- Before each byte the runs that are kept set the same length last as all runs. -/
theorem lengthBefore?_kept (text : List Char) (n : Nat) :
    lengthBefore? (kept text) n = lengthBefore? (scan text) n := by
  obtain ⟨before, after, hScan, hBefore, hAfter⟩ := exists_split (pairwise_scanFrom 0 text) n
  have hMacro : ∀ run ∈ before ++ after, run.asMacro = run.length?.isSome :=
    hScan ▸ fun _ => asMacro_eq
  rw [List.forall_mem_append] at hMacro
  rw [kept_eq, scan, hScan, dropRepeats_append, lengthBefore?_append hMacro.1 hBefore hAfter,
    lengthBefore?_append, lastLength_dropRepeats]
  · exact fun run hRun => hMacro.1 run (mem_of_mem_dropRepeats hRun)
  · exact fun run hRun => hBefore run (mem_of_mem_dropRepeats hRun)
  · exact fun run hRun => hAfter run (mem_of_mem_dropRepeats hRun)

end Run

/-- A compacted text is what is left of the runs of the text, in order, without the macros that set
the length which the nearest macro before them sets.  Joining the runs with spaces and deleting all
blanks leaves the same.  What was set last before any byte is the same for the runs that are kept as
for all runs, no macro that is kept sets the length of the one that was kept before it, and all runs
together are the text without its blanks. -/
theorem compact_keeps (text : List Char) :
    (∀ runs, Run.Reads 0 text runs ↔ runs = Run.scan text) ∧
    compact text = (Run.kept text).flatMap (·.text) ∧
    compact text = (List.intercalate [' '] ((Run.kept text).map (·.text))).filter
      (!Text.isBlank ·) ∧
    (∀ n, Run.lengthBefore? (Run.kept text) n = Run.lengthBefore? (Run.scan text) n) ∧
    ((Run.kept text).filterMap Run.length?).IsChain (· ≠ ·) ∧
    (Run.scan text).flatMap (·.text) = text.filter (!Text.isBlank ·) := by
  have hKept : compact text = ((Run.kept text).map (·.text)).flatten := by
    rw [compact_eq, Run.map_text_kept]
  refine ⟨fun runs => Run.reads_iff, hKept, ?_, Run.lengthBefore?_kept text, ?_,
    Run.flatten_texts text⟩
  · rw [hKept]
    refine (Run.filter_intercalate fun word hWord => ?_).symm
    rw [Run.map_text_kept] at hWord
    exact Run.filter_isSolid_of_mem_texts (mem_of_mem_dropRepeats hWord)
  · rw [Run.kept_eq]
    exact (isChain_lengths_dropRepeats (Run.scan text) none).1

example : compact "l4 n48 l04\u3000r l4..".toList = "l4n48rl4..".toList := by decide +kernel

end Drumline
