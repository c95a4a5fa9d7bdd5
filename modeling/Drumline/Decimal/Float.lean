import Drumline.Decimal.Shortest
import Drumline.Numeral

/-! The text of a floating-point number: the digits of its shortest decimal, with a point among or
after them if the first digit stands between the fifth place after the point and the sixteenth
before it, and with a signed exponent otherwise. -/

namespace Drumline.Decimal

/-- The magnitude of a finite number that is not zero. -/
def binaryOfFloat (f : Float) : Binary :=
  let bits : Nat := f.toBits.toNat
  let field : Nat := bits / Nat.pow 2 52 % Nat.pow 2 11
  let fraction : Nat := bits % Nat.pow 2 52
  if field = 0 then ⟨fraction, Binary.leastExponent⟩
  else ⟨fraction + Nat.pow 2 52, Binary.leastExponent + ((field : Int) - 1)⟩

def isNegative (f : Float) : Bool := Nat.pow 2 63 ≤ f.toBits.toNat

def trimZeros (digits : List Char) : List Char :=
  (digits.reverse.dropWhile (· == '0')).reverse

/-- An exponent with its sign, which is written in either case. -/
def renderExponent (e : Int) : List Char :=
  if e < 0 then Numeral.ofInt e else '+' :: Numeral.ofInt e

def render (d : Decimal) : List Char :=
  let written := Numeral.ofNat d.digits
  let digits := trimZeros written
  let point : Int := written.length + d.exponent
  if (digits.length : Int) ≤ point ∧ point ≤ 16 then
    digits ++ List.replicate (point.toNat - digits.length) '0' ++ ['.', '0']
  else if 0 < point ∧ point ≤ 16 then
    digits.take point.toNat ++ '.' :: digits.drop point.toNat
  else if -5 < point ∧ point ≤ 0 then
    '0' :: '.' :: List.replicate (-point).toNat '0' ++ digits
  else
    digits.take 1 ++ (if digits.length = 1 then [] else '.' :: digits.drop 1) ++
      'e' :: renderExponent (point - 1)

def renderFloat (f : Float) : List Char :=
  (if isNegative f then ['-'] else []) ++
    if f == 0 then ['0', '.', '0'] else render (binaryOfFloat f).shortest

end Drumline.Decimal
