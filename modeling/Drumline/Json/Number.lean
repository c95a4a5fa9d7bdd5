import Drumline.Decimal.Float
import Drumline.Json.Read

/-! The values of JSON numbers.  A number without point and exponent that fits a word of 64 bits is
an integer; any other is a floating-point number, computed from its leading digits and a power of
ten. -/

namespace Drumline.Json.Number

/-- The digits that fit a word of 64 bits, as a number, and a power of ten. -/
structure Scaled where
  significand : Nat
  exponent : Int

/-- The number with one digit more, if it fits a word of 64 bits. -/
def append? (significand : Nat) (digit : Char) : Option Nat :=
  let next := significand * 10 + Numeral.digitValue digit
  if next ≤ Numeral.greatestWord then some next else none

/-- Takes in the digits before the point.  From the first one that does not fit on, each raises the
exponent. -/
def takeWhole (significand : Nat) : List Char → Scaled
  | [] => ⟨significand, 0⟩
  | digit :: digits =>
    match append? significand digit with
    | some next => takeWhole next digits
    | none => ⟨significand, digits.length + 1⟩

/-- Takes in the digits after the point.  Each lowers the exponent, and from the first one that does
not fit on they are ignored. -/
def takeFraction (s : Scaled) : List Char → Scaled
  | [] => s
  | digit :: digits =>
    match append? s.significand digit with
    | some next => takeFraction ⟨next, s.exponent - 1⟩ digits
    | none => s

def scaled (n : Number) : Scaled := takeFraction (takeWhole 0 n.whole) n.fraction

/-- The greatest exponent that is read. -/
def exponentLimit : Nat := 0x7FFFFFFF

/-- The value of the digits of an exponent, or the digits after the one that exceeds the limit. -/
def exponentOfDigits (sofar : Nat) : List Char → Except (List Char) Nat
  | [] => .ok sofar
  | digit :: digits =>
    let next := sofar * 10 + Numeral.digitValue digit
    if next ≤ exponentLimit then exponentOfDigits next digits else .error digits

def powerOfTen (n : Nat) : Float := Float.ofScientific 1 false n

/-- `f * 10^e`, in steps of at most 308 powers; none if it is too large. -/
def scaleFloat? (f : Float) (e : Int) : Option Float :=
  if h : e < -308 then
    if f == 0 then some f else scaleFloat? (f / powerOfTen 308) (e + 308)
  else if e < 0 then
    some (f / powerOfTen e.natAbs)
  else if e ≤ 308 then
    let scaled := f * powerOfTen e.natAbs
    if scaled.isInf then none else some scaled
  else
    if f == 0 then some f else none
  termination_by (-e).toNat
  decreasing_by omega

/-- The value of the digits times a power of ten, or the digits at the end of the number that stand
after the place where it is found too large. -/
def magnitude (n : Number) : Except (List Char) Float :=
  let s := n.scaled
  let scale (e : Int) : Except (List Char) Float :=
    match scaleFloat? (Float.ofNat s.significand) e with
    | some f => .ok f
    | none => .error []
  match n.exponent with
  | none => scale s.exponent
  | some (negative, digits) =>
    match exponentOfDigits 0 digits with
    | .ok e => scale (if negative then s.exponent - e else s.exponent + e)
    | .error unread => if s.significand ≠ 0 ∧ negative = false then .error unread else .ok 0

/-- The number as an integer, if it is written as one and fits a word of 64 bits; a negative one has
to fit a signed word, and minus zero is no integer. -/
def integer? (n : Number) : Option Int :=
  let value := Numeral.value n.whole
  if n.fraction ≠ [] ∨ n.exponent.isSome then none
  else if n.negative then
    if 0 < value ∧ value ≤ 0x8000000000000000 then some (-value) else none
  else if value ≤ Numeral.greatestWord then some value
  else none

/-- The number as it is found where something else is due, or the digits at its end that stand after
the place where it is found too large. -/
def found (n : Number) : Except (List Char) Found :=
  match n.integer? with
  | some i => .ok (.integer (Numeral.ofInt i))
  | none => n.magnitude.map fun f => .float (Decimal.renderFloat (if n.negative then -f else f))

end Drumline.Json.Number
