import Drumline.Text.CodePoint
import Drumline.Text.Printable

/-! Quoted text, for messages.  A text stands in double quotes; a quote, a backslash and a character
that cannot be printed on its own are escaped. -/

namespace Drumline.Text

/-- A character as it is written in a quoted text. -/
def escape (c : Char) : List Char :=
  if c = '\x00' then ['\\', '0']
  else if c = '\t' then ['\\', 't']
  else if c = '\r' then ['\\', 'r']
  else if c = '\n' then ['\\', 'n']
  else if c = '\\' ∨ c = '"' then ['\\', c]
  else if isPrintable c then [c]
  else codePoint c

def quote (text : List Char) : List Char := '"' :: text.flatMap escape ++ ['"']

end Drumline.Text
