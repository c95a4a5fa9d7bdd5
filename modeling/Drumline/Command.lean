/-! Letter commands: a letter directly followed by one digit or more.  `Piece.ofText` divides a text
into commands with chosen letters and single other characters, and `replaceCommands` replaces each
command and keeps all else. -/

namespace Drumline

/-- A part of a text: a command, or one character outside all commands. -/
inductive Piece where
  | command (letter : Char) (digits : List Char)
  | other (c : Char)
  deriving DecidableEq

namespace Piece

def text : Piece → List Char
  | command letter digits => letter :: digits
  | other c => [c]

/-- Divides a text, from the left, into the commands whose letter satisfies `p`, each with all
digits that follow, and single other characters. -/
def ofText (p : Char → Bool) : List Char → List Piece
  | [] => []
  | c :: cs =>
    if p c ∧ cs.takeWhile Char.isDigit ≠ [] then
      command c (cs.takeWhile Char.isDigit) :: ofText p (cs.dropWhile Char.isDigit)
    else
      other c :: ofText p cs
  termination_by cs => cs.length
  decreasing_by
    · have h := congrArg List.length (@List.takeWhile_append_dropWhile _ Char.isDigit cs)
      simp only [List.length_append] at h
      simp only [List.length_cons]
      omega
    · simp

theorem flatMap_text_ofText (p : Char → Bool) (cs : List Char) :
    (ofText p cs).flatMap text = cs := by
  fun_induction ofText p cs with
  | case1 => rfl
  | case2 c cs h ih => simp [text, ih]
  | case3 c cs h ih => simp [text, ih]

end Piece

/-- The text with `f letter digits` in place of each command whose letter satisfies `p`. -/
def replaceCommands (p : Char → Bool) (f : Char → List Char → List Char) (text : List Char) :
    List Char :=
  (Piece.ofText p text).flatMap fun
    | .command letter digits => f letter digits
    | .other c => [c]

end Drumline
