import Drumline.Proofs.Compaction.Runs
import Drumline.Proofs.Kit.Sounding

/-! Compaction word by word.  `dropRepeats` is the law of compaction for any list whose elements may
set a length.  The main statements are `compact_eq`, that the compaction of a text is what
`dropRepeats` leaves of its runs, and `Voice.convert_eq`, that the runs of a converted voice are its
words. -/

namespace Drumline

section Repeats

variable {α β : Type} {length? : α → Option Length} {last : Option Length} {x : α} {xs ys : List α}

/-- The list without each element that sets the length which was set last, by an element before it
or as `last`. -/
def dropRepeats (length? : α → Option Length) (last : Option Length) : List α → List α
  | [] => []
  | x :: xs =>
    if (length? x).isSome && length? x == last then dropRepeats length? last xs
    else x :: dropRepeats length? (length? x <|> last) xs

theorem dropRepeats_cons_none (h : length? x = none) :
    dropRepeats length? last (x :: xs) = x :: dropRepeats length? last xs := by
  simp [dropRepeats, h]

theorem dropRepeats_cons_repeat {length : Length} (h : length? x = some length) :
    dropRepeats length? (some length) (x :: xs) = dropRepeats length? (some length) xs := by
  simp [dropRepeats, h]

theorem dropRepeats_cons_new {length : Length} (h : length? x = some length)
    (hLast : last ≠ some length) :
    dropRepeats length? last (x :: xs) = x :: dropRepeats length? (some length) xs := by
  simp [dropRepeats, h, Ne.symm hLast]

theorem dropRepeats_cons_kept (h : ∀ length, length? x = some length → last ≠ some length) :
    dropRepeats length? last (x :: xs) = x :: dropRepeats length? (length? x <|> last) xs := by
  cases hLength : length? x with
  | none => simp [dropRepeats, hLength]
  | some length => exact dropRepeats_cons_new hLength (h length hLength)

/-- The length that is set after the elements, if it was `last` before them. -/
def lastLength (length? : α → Option Length) (last : Option Length) (xs : List α) : Option Length :=
  xs.foldl (fun last x => length? x <|> last) last

theorem dropRepeats_append (xs ys : List α) (last : Option Length) :
    dropRepeats length? last (xs ++ ys) =
      dropRepeats length? last xs ++ dropRepeats length? (lastLength length? last xs) ys := by
  induction xs generalizing last with
  | nil => rfl
  | cons x xs ih =>
    simp only [List.cons_append, dropRepeats, lastLength, List.foldl_cons, ih]
    split
    · next h =>
      simp only [Bool.and_eq_true, beq_iff_eq] at h
      obtain ⟨length, hLength⟩ := Option.isSome_iff_exists.mp h.1
      rw [← h.2, hLength]
      rfl
    · rfl

theorem map_dropRepeats (g : β → α) (xs : List β) (last : Option Length) :
    (dropRepeats (length? ∘ g) last xs).map g = dropRepeats length? last (xs.map g) := by
  induction xs generalizing last with
  | nil => rfl
  | cons x xs ih =>
    simp only [dropRepeats, Function.comp_apply, List.map_cons]
    split
    · exact ih last
    · rw [List.map_cons, ih]

theorem mem_of_mem_dropRepeats (h : x ∈ dropRepeats length? last xs) : x ∈ xs := by
  induction xs generalizing last with
  | nil => exact h
  | cons y ys ih =>
    rw [dropRepeats] at h
    split at h
    · exact List.mem_cons_of_mem _ (ih h)
    · rcases List.mem_cons.mp h with rfl | h
      · exact List.mem_cons_self
      · exact List.mem_cons_of_mem _ (ih h)

end Repeats

namespace Run

theorem texts_of_isWord {word : List Char} (h : IsWord word) : texts word = [word] := by
  rcases h.macro_or_inner with ⟨digits, dotted, hDigits, rfl⟩ | ⟨c, tail, rfl, hMacro, hHead, hTail⟩
  · simpa using (IsFirst.lengthMacro hDigits dotted fun _ => Token.headNot_nil _).texts_append
  · have hSolid : isSolid c = true := by
      rcases hHead with hDigit | hMem
      · exact isSolid_of_isInner (isInner_of_isDigit hDigit)
      · have hHeads : ['&', 'r', 'n', 'v', 't', '.'].all isSolid = true := by decide
        exact List.all_eq_true.mp hHeads c hMem
    refine texts_stretch ⟨by simp, ?_, ?_⟩
    · intro d hd
      rcases List.mem_cons.mp hd with rfl | hd
      · exact hSolid
      · exact isSolid_of_isInner (hTail d hd)
    · intro text hText
      exact absurd (List.cons.inj hText).1 hMacro

/-- Words with spaces between them are the runs of their text. -/
theorem texts_intercalate_words {words : List (List Char)} (h : ∀ word ∈ words, IsWord word) :
    texts (List.intercalate [' '] words) = words := by
  rw [texts_intercalate, List.flatMap_congr fun word hWord => texts_of_isWord (h word hWord)]
  simp

end Run

theorem flatMap_filter_markRepeats (last : Option Length) (runs : List Run) :
    ((Run.markRepeats last runs).filter (!·.2)).flatMap (·.1.text) =
      (dropRepeats Length.parseMacro? last (runs.map (·.text))).flatten := by
  induction runs generalizing last with
  | nil => rfl
  | cons run runs ih =>
    simp only [Run.markRepeats, List.map_cons, dropRepeats]
    by_cases h : run.isRepeat last
    · have hLast : (run.length? <|> last) = last := by
        simp only [Run.isRepeat, Bool.and_eq_true, beq_iff_eq] at h
        cases hLength : run.length? <;> simp_all
      have hIf := h
      rw [Run.isRepeat, Run.length?] at hIf
      rw [if_pos hIf, List.filter_cons_of_neg (by simp [h]), ih, hLast]
    · have hIf := h
      rw [Run.isRepeat, Run.length?] at hIf
      rw [if_neg hIf, List.filter_cons_of_pos (by simp [h]), List.flatMap_cons, ih,
        List.flatten_cons, Run.length?]

/-- The compaction of a text is what is left of its runs without the repeated macros. -/
theorem compact_eq (text : List Char) :
    compact text = (dropRepeats Length.parseMacro? none (Run.texts text)).flatten :=
  flatMap_filter_markRepeats none (Run.scan text)

theorem compact_intercalate {words : List (List Char)} (h : ∀ word ∈ words, IsWord word) :
    compact (List.intercalate [' '] words) =
      (dropRepeats Length.parseMacro? none words).flatten := by
  rw [compact_eq, Run.texts_intercalate_words h]

/-- A converted voice is what is left of its words without the repeated macros. -/
theorem Voice.convert_eq (voice : List Char) :
    convert voice = (dropRepeats Length.parseMacro? none (words voice)).flatten := by
  rw [convert, spaced_eq_intercalate, compact_intercalate fun _ => isWord_of_mem_words]

end Drumline
