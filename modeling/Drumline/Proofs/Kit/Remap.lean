import Drumline.Proofs.Kit.Sounding

/-! Putting sounds into any text.  `Remaps` says, without dividing the text, what is replaced and
what stays.  The note numbers of the new text are those of the old one, one for one, each with its
sound (`ofText_remap`), and no sound has a sound of its own.  The main statement is `remap_once`,
that the text with its sounds is the only one that `Remaps` allows, and that putting the sounds in
once more changes nothing. -/

namespace Drumline

open Token (HeadNot headNot_nil headNot_cons)

namespace Kit

variable {text text' rest digits : List Char} {c : Char}

/-! ### Sounds of numbers -/

/-- The sound of a note number in digits, or the digits themselves if it has none. -/
def soundDigits (digits : List Char) : List Char :=
  match sound? (Numeral.value digits) with
  | some sound => Numeral.ofNat sound
  | none => digits

theorem sounding_eq (letter : Char) (digits : List Char) :
    sounding letter digits = letter :: soundDigits digits := by
  rw [sounding, soundDigits, sound?_readWord]
  cases sound? (Numeral.value digits) <;> rfl

theorem isNumeral_soundDigits (h : Numeral.isNumeral digits = true) :
    Numeral.isNumeral (soundDigits digits) = true := by
  unfold soundDigits
  split
  · exact Numeral.isNumeral_ofNat _
  · exact h

theorem soundDigits_soundDigits (digits : List Char) :
    soundDigits (soundDigits digits) = soundDigits digits := by
  cases h : sound? (Numeral.value digits) with
  | some sound => simp [soundDigits, h, Numeral.value_ofNat, sound?_sound h]
  | none => simp [soundDigits, h]

/-! ### Piece by piece -/

theorem remap_note_append (h : Numeral.isNumeral digits = true)
    (hRest : HeadNot Char.isDigit rest) :
    remap ('n' :: (digits ++ rest)) = 'n' :: (soundDigits digits ++ remap rest) := by
  rw [remap, replaceCommands_command_append (by rfl) h hRest, sounding_eq, List.cons_append]
  rfl

theorem remap_cons (h : c = 'n' → HeadNot Char.isDigit text) :
    remap (c :: text) = c :: remap text :=
  replaceCommands_cons (by simpa using h)

/-- A text is empty, or it starts with a note number that has all its digits, or with a character
that is in no note number. -/
theorem note_induction {motive : List Char → Prop} (nil : motive [])
    (note : ∀ digits rest, Numeral.isNumeral digits = true → HeadNot Char.isDigit rest →
      motive rest → motive ('n' :: (digits ++ rest)))
    (other : ∀ c text, (c = 'n' → HeadNot Char.isDigit text) → motive text → motive (c :: text))
    (text : List Char) : motive text := by
  induction text using command_induction (· == 'n') with
  | nil => exact nil
  | command c digits rest hc hDigits hRest ih =>
    obtain rfl : c = 'n' := by simpa using hc
    exact note digits rest hDigits hRest ih
  | other c text h ih => exact other c text (by simpa using h) ih

theorem head?_remap (text : List Char) : (remap text).head? = text.head? := by
  induction text using note_induction with
  | nil => simp [remap]
  | note digits rest hDigits hRest ih => rw [remap_note_append hDigits hRest]; rfl
  | other c text h ih => rw [remap_cons h]; rfl

theorem headNot_remap {p : Char → Bool} : HeadNot p (remap text) ↔ HeadNot p text := by
  rw [HeadNot, HeadNot, head?_remap]

/-- The piece with its sound, if it is a note number that has one. -/
def soundPiece : Piece → Piece
  | .command letter digits => .command letter (soundDigits digits)
  | .other c => .other c

/-- The pieces of the new text are the pieces of the old one with their sounds. -/
theorem ofText_remap (text : List Char) :
    Piece.ofText (· == 'n') (remap text) = (Piece.ofText (· == 'n') text).map soundPiece := by
  induction text using note_induction with
  | nil => simp [remap, Piece.ofText]
  | note digits rest hDigits hRest ih =>
    rw [remap_note_append hDigits hRest, Piece.ofText_command rfl hDigits hRest,
      Piece.ofText_command rfl (isNumeral_soundDigits hDigits) (headNot_remap.mpr hRest), ih]
    rfl
  | other c text h ih =>
    have hOther : ∀ text, (c = 'n' → HeadNot Char.isDigit text) →
        Piece.ofText (· == 'n') (c :: text) = .other c :: Piece.ofText (· == 'n') text :=
      fun _ h => Piece.ofText_cons (p := (· == 'n')) (by simpa using h)
    rw [remap_cons h, hOther _ h, hOther _ fun hc => headNot_remap.mpr (h hc), ih]
    rfl

theorem remap_remap (text : List Char) : remap (remap text) = remap text := by
  induction text using note_induction with
  | nil => simp [remap]
  | note digits rest hDigits hRest ih =>
    rw [remap_note_append hDigits hRest,
      remap_note_append (isNumeral_soundDigits hDigits) (headNot_remap.mpr hRest),
      soundDigits_soundDigits, ih]
  | other c text h ih => rw [remap_cons h, remap_cons fun hc => headNot_remap.mpr (h hc), ih]

/-! ### What is replaced -/

/-- The second text is the first one with a sound in place of each note number that the kit lists.
A note number is the letter with all digits behind it, one or more, and its value is exact. -/
inductive Remaps : List Char → List Char → Prop
  | nil : Remaps [] []
  | sound {digits rest rest' : List Char} {sound : Nat} (hDigits : Numeral.isNumeral digits = true)
      (hRest : HeadNot Char.isDigit rest) (hSound : (Numeral.value digits, sound) ∈ entries)
      (h : Remaps rest rest') :
      Remaps ('n' :: (digits ++ rest)) ('n' :: (Numeral.ofNat sound ++ rest'))
  | unlisted {digits rest rest' : List Char} (hDigits : Numeral.isNumeral digits = true)
      (hRest : HeadNot Char.isDigit rest)
      (hSound : ∀ sound, (Numeral.value digits, sound) ∉ entries) (h : Remaps rest rest') :
      Remaps ('n' :: (digits ++ rest)) ('n' :: (digits ++ rest'))
  | other {c : Char} {text text' : List Char} (hc : c = 'n' → HeadNot Char.isDigit text)
      (h : Remaps text text') : Remaps (c :: text) (c :: text')

theorem remaps_remap (text : List Char) : Remaps text (remap text) := by
  induction text using note_induction with
  | nil => simpa [remap] using Remaps.nil
  | note digits rest hDigits hRest ih =>
    rw [remap_note_append hDigits hRest, soundDigits]
    split
    · next sound hSound => exact .sound hDigits hRest (mem_entries_iff.mpr hSound) ih
    · next hSound => exact .unlisted hDigits hRest (sound?_eq_none_iff.mp hSound) ih
  | other c text h ih =>
    rw [remap_cons h]
    exact .other h ih

theorem Remaps.eq_remap (h : Remaps text text') : text' = remap text := by
  induction h with
  | nil => simp [remap]
  | sound hDigits hRest hSound h ih =>
    rw [remap_note_append hDigits hRest, soundDigits, mem_entries_iff.mp hSound, ih]
  | @unlisted digits rest rest' hDigits hRest hSound h ih =>
    rw [remap_note_append hDigits hRest, soundDigits, sound?_eq_none_iff.mpr hSound, ih]
  | other hc h ih => rw [remap_cons hc, ih]

/-- Each note number that the kit lists is replaced by its sound, and no other character is changed.
The numbers of the new text are the sounds of those of the old one, and none of them is replaced a
second time. -/
theorem remap_once (text : List Char) :
    (∀ text', Remaps text text' ↔ text' = remap text) ∧
    Piece.ofText (· == 'n') (remap text) = (Piece.ofText (· == 'n') text).map soundPiece ∧
    remap (remap text) = remap text := by
  refine ⟨fun text' => ⟨Remaps.eq_remap, ?_⟩, ofText_remap text, remap_remap text⟩
  rintro rfl
  exact remaps_remap text

example : remap "nn35n0035 n-1 n5".toList = "nn64n64 n-1 n5".toList := by cbv

end Kit

end Drumline
