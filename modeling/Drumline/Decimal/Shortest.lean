/-! Shortest decimals.  A binary number `m * 2^q` stands for all reals that are nearer to it than to
its neighbours; `shortest` is the decimal with the fewest digits among these reals, and of several
such decimals the one nearest to the number. -/

namespace Drumline

/-- The decimal `digits * 10^exponent`. -/
structure Decimal where
  digits : Nat
  exponent : Int
  deriving DecidableEq

/-- The binary number `mantissa * 2^exponent`. -/
structure Binary where
  mantissa : Nat
  exponent : Int
  deriving DecidableEq

namespace Binary

def precision : Nat := 53

def leastExponent : Int := -1074

/-- Four times the mantissa, less the distance to the lower end of the reals that round to the
number; below a power of two this distance is halved. -/
def lower (b : Binary) : Nat :=
  if b.mantissa = Nat.pow 2 (precision - 1) ∧ leastExponent < b.exponent then 4 * b.mantissa - 1
  else 4 * b.mantissa - 2

/-- Four times the mantissa, plus the distance to the upper end of the reals that round to the
number. -/
def upper (b : Binary) : Nat := 4 * b.mantissa + 2

/-- The two numbers `quarters / 4 * 2^exponent` and `digits * 10^e`, scaled by a common factor to
natural numbers. -/
def scale (b : Binary) (quarters digits : Nat) (e : Int) : Nat × Nat :=
  (quarters * Nat.pow 2 b.exponent.toNat * Nat.pow 10 (-e).toNat,
    4 * digits * Nat.pow 2 (-b.exponent).toNat * Nat.pow 10 e.toNat)

/-- The decimal rounds to the number; the ends belong to an even mantissa. -/
def covers (b : Binary) (digits : Nat) (e : Int) : Bool :=
  let (low, atLow) := b.scale b.lower digits e
  let (high, atHigh) := b.scale b.upper digits e
  if b.mantissa % 2 = 0 then low ≤ atLow && atHigh ≤ high else low < atLow && atHigh < high

/-- The number divided by `10^e`, rounded down. -/
def floorDiv (b : Binary) (e : Int) : Nat :=
  let (number, unit) := b.scale (4 * b.mantissa) 1 e
  number / unit

/-- The decimal on the grid of `10^e` that is nearest to the number among the two next to it that
round to the number; of two equally near ones the even one. -/
def onGrid? (b : Binary) (e : Int) : Option Decimal :=
  let below := b.floorDiv e
  let (number, unit) := b.scale (4 * b.mantissa) 1 e
  let twice := 2 * (number - below * unit)
  let up := unit < twice ∨ (twice = unit ∧ below % 2 = 1)
  let (first, second) := if up then (below + 1, below) else (below, below + 1)
  if 0 < first ∧ b.covers first e then some ⟨first, e⟩
  else if 0 < second ∧ b.covers second e then some ⟨second, e⟩
  else none

/-- The exponent of the first digit of the number, between the bounds of the format. -/
def magnitude (b : Binary) : Int :=
  let exponents := (List.range 633).map fun (i : Nat) => (308 : Int) - i
  (exponents.find? fun e => 0 < b.floorDiv e).getD (-324)

/-- The shortest decimal that rounds to the number: the coarsest of the grids of one to seventeen
digits that has one. -/
def shortest (b : Binary) : Decimal :=
  let magnitude := b.magnitude
  ((List.range 17).findSome? fun (n : Nat) => b.onGrid? (magnitude - n)).getD ⟨0, 0⟩

end Binary

end Drumline
