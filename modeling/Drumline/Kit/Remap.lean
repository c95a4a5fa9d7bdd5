import Drumline.Command
import Drumline.Kit
import Drumline.Numeral

/-! Putting the sounds of the kit into a text: every `n` with digits is a note number. -/

namespace Drumline.Kit

/-- What the text of the note number `letter digits` becomes: the letter with the sound of the
number, or itself if the number has no sound. -/
def sounding (letter : Char) (digits : List Char) : List Char :=
  match sound? (Numeral.readWord digits) with
  | some sound => letter :: Numeral.ofNat sound
  | none => letter :: digits

/-- The text with the sound in place of each note number that has one. -/
def remap (text : List Char) : List Char := replaceCommands (· == 'n') sounding text

end Drumline.Kit
