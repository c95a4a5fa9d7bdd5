/-! Decimal numerals.  `value` is the exact value of a run of digits, `ofNat` writes a number, and
`readUpTo` reads a run in bounded arithmetic, one digit at a time.  The main statements are
`value_ofNat`, that what is written reads back, and `readUpTo_eq_min`: the bounded reading is the
value, or the bound where the value is larger. -/

namespace Drumline.Numeral

def value (digits : List Char) : Nat := Nat.ofDigitChars 10 digits 0

def digitValue (c : Char) : Nat := c.toNat - '0'.toNat

/-- The digits read from the left with a product and a sum that stop at `limit`. -/
def readUpTo (limit : Nat) (digits : List Char) : Nat :=
  digits.foldl (fun sofar c => min (min (sofar * 10) limit + digitValue c) limit) 0

/-- The largest unsigned word of 64 bits. -/
def greatestWord : Nat := 0xFFFFFFFFFFFFFFFF

def readWord (digits : List Char) : Nat := readUpTo greatestWord digits

/-- The digits read as a word of 32 bits, at most the greatest one. -/
def readShortWord (digits : List Char) : UInt32 :=
  UInt32.ofNat (min (readWord digits) 0xFFFFFFFF)

def ofNat (n : Nat) : List Char := Nat.toDigits 10 n

/-- The decimal digits of an integer, after a minus sign when it is negative. -/
def ofInt (i : Int) : List Char :=
  if i < 0 then '-' :: ofNat i.natAbs else ofNat i.natAbs

/-- A text of one digit or more and nothing else. -/
def isNumeral (text : List Char) : Bool := !text.isEmpty && text.all Char.isDigit

theorem ofNat_ne_nil (n : Nat) : ofNat n ≠ [] := Nat.toDigits_ne_nil

theorem isDigit_of_mem_ofNat {n : Nat} {c : Char} (h : c ∈ ofNat n) : c.isDigit = true :=
  Nat.isDigit_of_mem_toDigits (by decide) (by decide) h

theorem isNumeral_ofNat (n : Nat) : isNumeral (ofNat n) = true := by
  rw [isNumeral, Bool.and_eq_true, List.all_eq_true]
  refine ⟨?_, fun c h => isDigit_of_mem_ofNat h⟩
  rw [Bool.not_eq_true', List.isEmpty_eq_false_iff]
  exact ofNat_ne_nil n

/-- The digits of a number read back. -/
theorem value_ofNat (n : Nat) : value (ofNat n) = n := by
  rw [value, ofNat, Nat.ofDigitChars_toDigits (by decide) (by decide)]

theorem foldl_eq_min (limit : Nat) (digits : List Char) (n : Nat) :
    digits.foldl (fun sofar c => min (min (sofar * 10) limit + digitValue c) limit)
        (min n limit) = min (Nat.ofDigitChars 10 digits n) limit := by
  induction digits generalizing n with
  | nil => simp [Nat.ofDigitChars_eq_foldl]
  | cons c digits ih =>
    have step : min (min (min n limit * 10) limit + digitValue c) limit =
        min (10 * n + digitValue c) limit := by omega
    rw [List.foldl_cons, step, ih]
    simp [Nat.ofDigitChars_eq_foldl, digitValue]

/-- Reading in bounded arithmetic gives the exact value, or the bound if the value exceeds it. -/
theorem readUpTo_eq_min (limit : Nat) (digits : List Char) :
    readUpTo limit digits = min (value digits) limit := by
  simpa [readUpTo, value] using foldl_eq_min limit digits 0

end Drumline.Numeral
