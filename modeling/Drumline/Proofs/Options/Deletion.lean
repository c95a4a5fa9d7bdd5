import Drumline.Proofs.Options
import Mathlib.Data.List.Chain
import Mathlib.Data.List.Enum

/-! The deletions in one go.  `InCommand` says of a place of a text, without dividing the text, that
it belongs to a command, and `outsideCommands` keeps the characters of all other places.  No
deletion brings a letter before digits (`headNot_deleteCommands`), so that one deletion behind
another is a single one (`deleteCommands_deleteCommands`).  The main statement is
`preprocess_at_once`. -/

namespace Drumline

open Token (HeadNot headNot_nil headNot_cons)

variable {p q : Char → Bool} {c : Char} {text before rest digits : List Char} {i : Nat}

/-- The character at place `i` belongs to a command: a letter with a digit behind it stands there,
or before it with nothing but digits in between. -/
def InCommand (p : Char → Bool) (text : List Char) (i : Nat) : Prop :=
  ∃ j ≤ i, text[j]?.any p = true ∧ text[j + 1]?.any Char.isDigit = true ∧
    ∀ k ≤ i, j < k → text[k]?.any Char.isDigit = true

instance (p : Char → Bool) (text : List Char) : DecidablePred (InCommand p text) := fun i =>
  inferInstanceAs (Decidable (∃ j ≤ i, text[j]?.any p = true ∧
    text[j + 1]?.any Char.isDigit = true ∧
      ∀ k ≤ i, j < k → text[k]?.any Char.isDigit = true))

/-- The characters at the places that satisfy `keep`, in order. -/
def charsAt (keep : Nat → Bool) (text : List Char) : List Char :=
  (text.zipIdx.filter (keep ·.2)).map (·.1)

/-- The characters of the text that belong to no command, in order. -/
def outsideCommands (p : Char → Bool) (text : List Char) : List Char :=
  charsAt (fun i => ¬InCommand p text i) text

/-! ### Places in commands -/

theorem any_getElem?_iff_headNot : text[0]?.any q = true ↔ ¬HeadNot q text := by
  cases text <;> simp

/-- A command does not go on into a text that starts with no digit. -/
theorem inCommand_append (hRest : HeadNot Char.isDigit rest) :
    InCommand p (before ++ rest) (before.length + i) ↔ InCommand p rest i := by
  have hGet : ∀ k, (before ++ rest)[before.length + k]? = rest[k]? := fun k => by
    rw [List.getElem?_append_right (Nat.le_add_right _ _), Nat.add_sub_cancel_left]
  constructor
  · rintro ⟨j, hj, hLetter, hDigit, hDigits⟩
    by_cases hBefore : j < before.length
    · have hFirst := hDigits (before.length + 0) (by omega) (by omega)
      rw [hGet] at hFirst
      exact absurd hRest (any_getElem?_iff_headNot.mp hFirst)
    · obtain ⟨j, rfl⟩ := Nat.exists_eq_add_of_le (Nat.not_lt.mp hBefore)
      rw [hGet] at hLetter
      rw [Nat.add_assoc, hGet] at hDigit
      refine ⟨j, by omega, hLetter, hDigit, fun k hk hjk => ?_⟩
      rw [← hGet]
      exact hDigits _ (by omega) (by omega)
  · rintro ⟨j, hj, hLetter, hDigit, hDigits⟩
    refine ⟨before.length + j, by omega, by rwa [hGet], by rwa [Nat.add_assoc, hGet], ?_⟩
    intro k hk hjk
    obtain ⟨k, rfl⟩ := Nat.exists_eq_add_of_le (show before.length ≤ k by omega)
    rw [hGet]
    exact hDigits k (by omega) (by omega)

theorem inCommand_command (hp : p c = true) (hDigits : Numeral.isNumeral digits = true)
    (rest : List Char) (hi : i < (c :: digits).length) :
    InCommand p (c :: (digits ++ rest)) i := by
  obtain ⟨hNe, hDigits⟩ := Numeral.isNumeral_iff.mp hDigits
  have hDigit : ∀ k, 0 < k → k < (c :: digits).length →
      (c :: (digits ++ rest))[k]?.any Char.isDigit = true := by
    intro k hk hLength
    obtain ⟨k, rfl⟩ := Nat.exists_eq_succ_of_ne_zero (Nat.ne_of_gt hk)
    have hLt : k < digits.length := by simpa using hLength
    rw [List.getElem?_cons_succ, List.getElem?_append_left hLt, List.getElem?_eq_getElem hLt]
    exact hDigits _ (List.getElem_mem hLt)
  have hPos : 0 < digits.length := List.length_pos_iff.mpr hNe
  refine ⟨0, Nat.zero_le i, by simpa using hp, hDigit 1 Nat.one_pos (by simpa using hPos), ?_⟩
  intro k hk hPosK
  exact hDigit k hPosK (by omega)

theorem not_inCommand_zero (h : p c = true → HeadNot Char.isDigit text) :
    ¬InCommand p (c :: text) 0 := by
  rintro ⟨j, hj, hLetter, hDigit, -⟩
  obtain rfl : j = 0 := Nat.le_zero.mp hj
  exact any_getElem?_iff_headNot.mp hDigit (h (by simpa using hLetter))

theorem inCommand_succ (h : p c = true → HeadNot Char.isDigit text) :
    InCommand p (c :: text) (i + 1) ↔ InCommand p text i := by
  constructor
  · rintro ⟨j, hj, hLetter, hDigit, hDigits⟩
    cases j with
    | zero => exact absurd (h (by simpa using hLetter)) (any_getElem?_iff_headNot.mp hDigit)
    | succ j =>
      exact ⟨j, by omega, hLetter, hDigit, fun k hk hjk => hDigits (k + 1) (by omega) (by omega)⟩
  · rintro ⟨j, hj, hLetter, hDigit, hDigits⟩
    refine ⟨j + 1, by omega, hLetter, hDigit, fun k hk hjk => ?_⟩
    obtain ⟨k, rfl⟩ := Nat.exists_eq_succ_of_ne_zero (show k ≠ 0 by omega)
    exact hDigits k (by omega) (by omega)

/-! ### The characters outside commands -/

theorem charsAt_append (keep : Nat → Bool) (before rest : List Char) :
    charsAt keep (before ++ rest) =
      charsAt keep before ++ charsAt (fun i => keep (before.length + i)) rest := by
  simp only [charsAt]
  rw [List.zipIdx_append, List.filter_append, List.map_append, Nat.zero_add,
    List.zipIdx_eq_map_add (l := rest) (i := before.length), List.filter_map, List.map_map]
  rfl

theorem charsAt_eq_nil {keep : Nat → Bool} (h : ∀ i < text.length, keep i = false) :
    charsAt keep text = [] := by
  rw [charsAt, List.map_eq_nil_iff, List.filter_eq_nil_iff]
  rintro ⟨c, i⟩ hMem
  have hi := (List.mem_zipIdx hMem).2.1
  simp [h i (by omega)]

theorem outsideCommands_command (hp : p c = true) (hDigits : Numeral.isNumeral digits = true)
    (hRest : HeadNot Char.isDigit rest) :
    outsideCommands p (c :: (digits ++ rest)) = outsideCommands p rest := by
  have hCommand := fun i (hi : i < (c :: digits).length) => inCommand_command hp hDigits rest hi
  have hBehind : ∀ i, InCommand p (c :: digits ++ rest) ((c :: digits).length + i) ↔
      InCommand p rest i := fun _ => inCommand_append hRest
  rw [List.cons_append] at hBehind
  rw [outsideCommands, ← List.cons_append, charsAt_append, charsAt_eq_nil]
  · simp only [List.cons_append, hBehind, List.nil_append, outsideCommands]
  · intro i hi
    simpa using hCommand i hi

theorem outsideCommands_cons (h : p c = true → HeadNot Char.isDigit text) :
    outsideCommands p (c :: text) = c :: outsideCommands p text := by
  rw [outsideCommands, ← List.singleton_append, charsAt_append, outsideCommands]
  simp only [List.length_singleton, List.singleton_append, Nat.add_comm 1, inCommand_succ h]
  simp [charsAt, not_inCommand_zero h]

namespace Options

/-! ### One deletion and two -/

theorem deleteCommands_command (hp : p c = true) (hDigits : Numeral.isNumeral digits = true)
    (hRest : HeadNot Char.isDigit rest) :
    deleteCommands p (c :: (digits ++ rest)) = deleteCommands p rest :=
  replaceCommands_command_append hp hDigits hRest

theorem deleteCommands_cons (h : p c = true → HeadNot Char.isDigit text) :
    deleteCommands p (c :: text) = c :: deleteCommands p text :=
  replaceCommands_cons h

theorem deleteCommands_eq (p : Char → Bool) (text : List Char) :
    deleteCommands p text = outsideCommands p text := by
  induction text using command_induction p with
  | nil => exact replaceCommands_nil
  | command c digits rest hp hDigits hRest ih =>
    rw [deleteCommands_command hp hDigits hRest, outsideCommands_command hp hDigits hRest, ih]
  | other c text h ih => rw [deleteCommands_cons h, outsideCommands_cons h, ih]

/-- A deletion brings no digits to the start of a text. -/
theorem headNot_deleteCommands (h : HeadNot Char.isDigit text) :
    HeadNot Char.isDigit (deleteCommands p text) := by
  induction text using command_induction p with
  | nil => rwa [deleteCommands, replaceCommands_nil]
  | command c digits rest hp hDigits hRest ih =>
    rw [deleteCommands_command hp hDigits hRest]
    exact ih hRest
  | other c text hc ih =>
    rw [deleteCommands_cons hc]
    exact headNot_cons.mpr (headNot_cons.mp h)

/-- No letter of a command has a digit behind it when the commands are deleted. -/
theorem isChain_deleteCommands (p : Char → Bool) (text : List Char) :
    (deleteCommands p text).IsChain fun c d => p c = true → d.isDigit = false := by
  induction text using command_induction p with
  | nil => simp [deleteCommands]
  | command c digits rest hp hDigits hRest ih => rwa [deleteCommands_command hp hDigits hRest]
  | other c text h ih =>
    rw [deleteCommands_cons h, List.isChain_cons]
    exact ⟨fun d hd hp => headNot_deleteCommands (h hp) d hd, ih⟩

theorem deleteCommands_append (h : ∀ c ∈ text, p c = false) (rest : List Char) :
    deleteCommands p (text ++ rest) = text ++ deleteCommands p rest :=
  replaceCommands_append h rest

/-- Two deletions are one deletion of the commands of both. -/
theorem deleteCommands_deleteCommands (hDigit : ∀ c, p c = true → c.isDigit = false)
    (text : List Char) :
    deleteCommands q (deleteCommands p text) = deleteCommands (fun c => p c || q c) text := by
  induction text using command_induction fun c => p c || q c with
  | nil => simp [deleteCommands]
  | command c digits rest hLetter hDigits hRest ih =>
    have hBoth := deleteCommands_command (p := fun c => p c || q c) hLetter hDigits hRest
    rw [hBoth, ← ih]
    cases hp : p c with
    | true => rw [deleteCommands_command hp hDigits hRest]
    | false =>
      -- a command of the second deletion, which the first one leaves as it is
      have hq : q c = true := by simpa [hp] using hLetter
      have hKept : ∀ d ∈ c :: digits, p d = false := by
        rw [List.forall_mem_cons]
        refine ⟨hp, fun d hd => ?_⟩
        rw [← Bool.not_eq_true]
        intro hLetter
        have hNot := hDigit d hLetter
        rw [(Numeral.isNumeral_iff.mp hDigits).2 d hd] at hNot
        cases hNot
      rw [← List.cons_append, deleteCommands_append hKept, List.cons_append,
        deleteCommands_command hq hDigits (headNot_deleteCommands hRest)]
  | other c text h ih =>
    have hp : p c = true → HeadNot Char.isDigit text := fun hp => h (by simp [hp])
    have hq : q c = true → HeadNot Char.isDigit text := fun hq => h (by simp [hq])
    rw [deleteCommands_cons hp, deleteCommands_cons fun hc => headNot_deleteCommands (hq hc),
      deleteCommands_cons h, ih]

/-! ### The deletions of the options -/

/-- The letters of the commands that the options delete. -/
def deletes (o : Options) (c : Char) : Bool :=
  o.stripVolume && isVolumeLetter c || o.stripTempo && isTempoLetter c

theorem deletes_iff {o : Options} : o.deletes c = true ↔
    o.stripVolume = true ∧ (c = 'v' ∨ c = 'V') ∨ o.stripTempo = true ∧ (c = 't' ∨ c = 'T') := by
  simp [deletes, isVolumeLetter, isTempoLetter]

theorem isDigit_eq_false_of_deletes {o : Options} (h : o.deletes c = true) :
    c.isDigit = false := by
  rcases deletes_iff.mp h with ⟨-, rfl | rfl⟩ | ⟨-, rfl | rfl⟩ <;> decide

theorem deletes_merge (o o' : Options) :
    (o.merge o').deletes = fun c => o.deletes c || o'.deletes c := by
  funext c
  rw [Bool.eq_iff_iff, Bool.or_eq_true, deletes_iff, deletes_iff, deletes_iff]
  simp only [merge, Bool.or_eq_true]
  grind

/-- The volume and tempo commands are deleted as if all were looked for at once. -/
theorem preprocess_eq (o : Options) (source : List Char) :
    o.preprocess source = deleteCommands o.deletes source := by
  have hVolume : deletes ⟨true, false⟩ = isVolumeLetter := funext fun c => by simp [deletes]
  have hTempo : deletes ⟨false, true⟩ = isTempoLetter := funext fun c => by simp [deletes]
  have hDigit : ∀ c, isVolumeLetter c = true → c.isDigit = false := by
    rw [← hVolume]
    exact fun _ => isDigit_eq_false_of_deletes
  obtain ⟨stripVolume, stripTempo⟩ := o
  cases stripVolume <;> cases stripTempo
  · exact (replaceCommands_eq_self fun _ _ => rfl).symm
  · rw [hTempo]
    rfl
  · rw [hVolume]
    rfl
  · exact deleteCommands_deleteCommands hDigit source

theorem preprocess_preprocess (o o' : Options) (source : List Char) :
    o'.preprocess (o.preprocess source) = (o.merge o').preprocess source := by
  rw [preprocess_eq, preprocess_eq, preprocess_eq, deletes_merge,
    deleteCommands_deleteCommands fun _ => isDigit_eq_false_of_deletes]

theorem merge_self (o : Options) : o.merge o = o := by simp [merge]

/-- Volume and tempo commands are deleted in one go.  It does not matter which of them is deleted
first; all characters outside them are kept, in order; no letter that was looked for, small or
capital, is left with a digit behind it, so that a second deletion finds nothing. -/
theorem preprocess_at_once (source : List Char) :
    preprocess ⟨true, true⟩ source = preprocess ⟨false, true⟩ (preprocess ⟨true, false⟩ source) ∧
      preprocess ⟨true, true⟩ source =
        preprocess ⟨true, false⟩ (preprocess ⟨false, true⟩ source) ∧
      ∀ o : Options, (∀ c, o.deletes c = true ↔ o.stripVolume = true ∧ (c = 'v' ∨ c = 'V') ∨
          o.stripTempo = true ∧ (c = 't' ∨ c = 'T')) ∧
        o.preprocess source = outsideCommands o.deletes source ∧
        (o.preprocess source).IsChain (fun c d => o.deletes c = true → d.isDigit = false) ∧
        o.preprocess (o.preprocess source) = o.preprocess source := by
  refine ⟨?_, ?_, fun o => ⟨fun _ => deletes_iff, ?_, ?_, ?_⟩⟩
  · exact (preprocess_preprocess ⟨true, false⟩ ⟨false, true⟩ source).symm
  · exact (preprocess_preprocess ⟨false, true⟩ ⟨true, false⟩ source).symm
  · rw [preprocess_eq, deleteCommands_eq]
  · rw [preprocess_eq]
    exact isChain_deleteCommands o.deletes source
  · rw [preprocess_preprocess, merge_self]

end Options

end Drumline
