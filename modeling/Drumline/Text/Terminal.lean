import Drumline.Text.CodePoint

/-! Text for a terminal.  The characters that begin or end a command to a terminal are escaped, so
that the text steers nothing; all other characters, line breaks among them, stay as they are. -/

namespace Drumline.Text

/-- Bell, backspace, form feed, escape or delete. -/
def isTerminalControl (c : Char) : Bool :=
  c == '\x07' || c == '\x08' || c == '\x0c' || c == '\x1b' || c == '\x7f'

/-- One of the control characters from `U+0080` to `U+009F`. -/
def isHighControl (c : Char) : Bool := 0x80 ≤ c.toNat && c.toNat ≤ 0x9F

/-- A character as it is shown on a terminal. -/
def defuse (c : Char) : List Char :=
  if isTerminalControl c then '\\' :: 'x' :: hexDigits 2 c
  else if isHighControl c then codePoint c
  else [c]

def forTerminal (text : List Char) : List Char := text.flatMap defuse

end Drumline.Text
