import Drumline.Command
import Drumline.Proofs.Token.Spelling
import Mathlib.Data.List.TakeWhile

/-! The replacement of commands piece by piece.  Every text is made of commands and of characters
outside them (`command_induction`); a command is replaced as a whole
(`replaceCommands_command_append`) and such a character stays (`replaceCommands_cons`).  A character
that is neither a letter of a command nor a digit separates the commands on its two sides
(`replaceCommands_append_cons`). -/

namespace Drumline

open Token (HeadNot headNot_nil headNot_dropWhile takeWhile_append_of_headNot
  dropWhile_append_of_headNot)

variable {p : Char → Bool} {f : Char → List Char → List Char} {c : Char}
  {text rest digits : List Char}

theorem takeWhile_append_cons {q : Char → Bool} (h : q c = false) (before after : List Char) :
    (before ++ c :: after).takeWhile q = before.takeWhile q := by
  induction before with
  | nil => simp [h]
  | cons d before ih => by_cases hd : q d <;> simp [hd, ih]

theorem dropWhile_append_cons {q : Char → Bool} (h : q c = false) (before after : List Char) :
    (before ++ c :: after).dropWhile q = before.dropWhile q ++ c :: after := by
  induction before with
  | nil => simp [h]
  | cons d before ih => by_cases hd : q d <;> simp [hd, ih]

theorem takeWhile_eq_nil_iff {q : Char → Bool} : text.takeWhile q = [] ↔ HeadNot q text := by
  cases text with
  | nil => simp
  | cons c text => by_cases h : q c <;> simp [h]

namespace Piece

theorem ofText_command (hp : p c = true) (hDigits : Numeral.isNumeral digits = true)
    (hRest : HeadNot Char.isDigit rest) :
    ofText p (c :: (digits ++ rest)) = command c digits :: ofText p rest := by
  obtain ⟨hNe, hDigits⟩ := Numeral.isNumeral_iff.mp hDigits
  have hTake := takeWhile_append_of_headNot hDigits hRest
  have hDrop := dropWhile_append_of_headNot hDigits hRest
  rw [ofText, if_pos ⟨hp, by rwa [hTake]⟩, hTake, hDrop]

theorem ofText_cons (h : p c = true → HeadNot Char.isDigit text) :
    ofText p (c :: text) = other c :: ofText p text := by
  rw [ofText, if_neg]
  rintro ⟨hp, hNe⟩
  exact hNe (takeWhile_eq_nil_iff.mpr (h hp))

theorem ofText_append_cons (hp : p c = false) (hDigit : c.isDigit = false)
    (before after : List Char) :
    ofText p (before ++ c :: after) = ofText p before ++ other c :: ofText p after := by
  fun_induction ofText p before with
  | case1 => exact ofText_cons (by simp [hp])
  | case2 d text h ih =>
    rw [List.cons_append, ofText, if_pos (by rwa [takeWhile_append_cons hDigit]),
      takeWhile_append_cons hDigit, dropWhile_append_cons hDigit, ih, List.cons_append]
  | case3 d text h ih =>
    rw [List.cons_append, ofText, if_neg (by rwa [takeWhile_append_cons hDigit]), ih,
      List.cons_append]

theorem isNumeral_of_mem_ofText (h : command c digits ∈ ofText p text) :
    Numeral.isNumeral digits = true := by
  fun_induction ofText p text with
  | case1 => cases h
  | case2 d text hCommand ih =>
    rcases List.mem_cons.mp h with hEq | h
    · cases hEq
      exact Numeral.isNumeral_iff.mpr ⟨hCommand.2, fun _ => List.mem_takeWhile_imp⟩
    · exact ih h
  | case3 d text hOther ih =>
    rcases List.mem_cons.mp h with hEq | h
    · cases hEq
    · exact ih h

end Piece

/-- A text is empty, or it starts with a command that satisfies `p` and has all its digits, or it
starts with a character that is no letter of such a command. -/
theorem command_induction {motive : List Char → Prop} (p : Char → Bool) (nil : motive [])
    (command : ∀ c digits rest, p c = true → Numeral.isNumeral digits = true →
      HeadNot Char.isDigit rest → motive rest → motive (c :: (digits ++ rest)))
    (other : ∀ c text, (p c = true → HeadNot Char.isDigit text) → motive text →
      motive (c :: text)) (text : List Char) : motive text := by
  fun_induction Piece.ofText p text with
  | case1 => exact nil
  | case2 c text h ih =>
    have hDigits : Numeral.isNumeral (text.takeWhile Char.isDigit) = true :=
      Numeral.isNumeral_iff.mpr ⟨h.2, fun _ => List.mem_takeWhile_imp⟩
    have hCommand := command c _ _ h.1 hDigits (headNot_dropWhile _ text) ih
    rwa [List.takeWhile_append_dropWhile] at hCommand
  | case3 c text h ih =>
    refine other c text (fun hp => takeWhile_eq_nil_iff.mp ?_) ih
    by_contra hNe
    exact h ⟨hp, hNe⟩

/-- A command is replaced together with all its digits. -/
theorem replaceCommands_command_append (hp : p c = true)
    (hDigits : Numeral.isNumeral digits = true) (hRest : HeadNot Char.isDigit rest) :
    replaceCommands p f (c :: (digits ++ rest)) = f c digits ++ replaceCommands p f rest := by
  simp [replaceCommands, Piece.ofText_command hp hDigits hRest]

/-- A character that is no letter of a command, or has no digits behind it, stays. -/
theorem replaceCommands_cons (h : p c = true → HeadNot Char.isDigit text) :
    replaceCommands p f (c :: text) = c :: replaceCommands p f text := by
  simp [replaceCommands, Piece.ofText_cons h]

/-- A character that is in no command stays where it is, and the texts around it are treated one by
one. -/
theorem replaceCommands_append_cons (hp : p c = false) (hDigit : c.isDigit = false)
    (before after : List Char) : replaceCommands p f (before ++ c :: after) =
      replaceCommands p f before ++ c :: replaceCommands p f after := by
  simp [replaceCommands, Piece.ofText_append_cons hp hDigit]

@[simp] theorem replaceCommands_nil : replaceCommands p f [] = [] := by
  simp [replaceCommands, Piece.ofText]

/-- Characters that are no letters of commands stay, whatever is behind them. -/
theorem replaceCommands_append (h : ∀ c ∈ text, p c = false) (rest : List Char) :
    replaceCommands p f (text ++ rest) = text ++ replaceCommands p f rest := by
  induction text with
  | nil => rfl
  | cons c text ih =>
    rw [List.forall_mem_cons] at h
    rw [List.cons_append, replaceCommands_cons (by simp [h.1]), ih h.2, List.cons_append]

theorem replaceCommands_eq_self (h : ∀ c ∈ text, p c = false) :
    replaceCommands p f text = text := by
  simpa using replaceCommands_append (f := f) h []

theorem replaceCommands_command (hp : p c = true) (hDigits : Numeral.isNumeral digits = true) :
    replaceCommands p f (c :: digits) = f c digits := by
  simpa using replaceCommands_command_append (f := f) hp hDigits (headNot_nil _)

theorem replaceCommands_singleton (c : Char) : replaceCommands p f [c] = [c] := by
  simpa using replaceCommands_cons (p := p) (f := f) (c := c) fun _ => headNot_nil _

end Drumline
