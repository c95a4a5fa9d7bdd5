/-! Code points written in hexadecimal. -/

namespace Drumline.Text

/-- The code point of a character in hexadecimal, with zeros in front up to the width. -/
def hexDigits (width : Nat) (c : Char) : List Char :=
  let digits := Nat.toDigits 16 c.toNat
  List.replicate (width - digits.length) '0' ++ digits

def codePoint (c : Char) : List Char := '\\' :: 'u' :: '{' :: hexDigits 0 c ++ ['}']

end Drumline.Text
