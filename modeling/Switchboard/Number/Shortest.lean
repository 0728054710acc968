import Switchboard.Number.Binary64

/-!
# Switchboard.Number.Shortest

The fewest decimal digits that name a double.  The reals that round to a
double form an interval around it; among the decimals inside, those with the
fewest digits are kept, and of these the one nearest to the double, on a tie
the one that ends in an even digit.

A decimal with `n` digits lies on a grid whose step is a power of ten, and if
any point of the grid is inside the interval then so is one of the double's
two neighbours on that grid; so two candidates per digit count are enough.
-/

namespace Switchboard

/-- The decimal `digits · 10^exponent`. -/
structure Decimal where
  digits : Nat
  exponent : Int
  deriving DecidableEq, Inhabited

namespace Magnitude

/-- The interval of reals that round to a double, in units of
`2^(exponent - 2)`: its lower end, the double itself, its upper end.  Below a
power of two the neighbouring double is only half as far away. -/
def interval (x : Magnitude) : Nat × Nat × Nat :=
  let centre := 4 * x.significand
  let below :=
    if x.significand = 1 <<< 52 ∧ minExponent < x.exponent then 1 else 2
  (centre - below, centre, centre + 2)

/-- The ends of the interval round to the double itself only when its
significand is even. -/
def endsIncluded (x : Magnitude) : Bool := x.significand % 2 == 0

/-- A quotient of naturals, for exact comparisons. -/
structure Ratio where
  num : Nat
  den : Nat

/-- The value `units · 2^(exponent - 2)` measured in steps of `10^grid`. -/
def inSteps (units : Nat) (exponent grid : Int) : Ratio :=
  let binary := exponent - 2
  ⟨units <<< binary.toNat * Nat.pow 10 (-grid).toNat,
    1 <<< (-binary).toNat * Nat.pow 10 grid.toNat⟩

/-- A grid point of the interval of `x`. -/
def admits (x : Magnitude) (grid : Int) (point : Nat) : Bool :=
  let (low, _, high) := x.interval
  let lo := inSteps low x.exponent grid
  let hi := inSteps high x.exponent grid
  if x.endsIncluded then lo.num ≤ point * lo.den && point * hi.den ≤ hi.num
  else lo.num < point * lo.den && point * hi.den < hi.num

/-- The better of a double's two neighbours on the grid of step `10^grid`,
if one of them is inside its interval. -/
def candidate? (x : Magnitude) (grid : Int) : Option Nat :=
  let at_ := inSteps x.interval.2.1 x.exponent grid
  let below := at_.num / at_.den
  let above := below + 1
  match x.admits grid below, x.admits grid above with
  | false, false => none
  | true, false => some below
  | false, true => some above
  | true, true =>
    let twice := 2 * at_.num
    let middle := (below + above) * at_.den
    if twice < middle then some below
    else if middle < twice then some above
    else if below % 2 = 0 then some below else some above

/-- Does `10^power` not exceed the double? -/
def reaches (x : Magnitude) (power : Int) : Bool :=
  let r := inSteps x.interval.2.1 x.exponent power
  r.den ≤ r.num

/-- Step down from `power` until a power of ten does not exceed the double. -/
def decadeBelow (x : Magnitude) (power : Int) : Nat → Int
  | 0 => power
  | fuel + 1 => if x.reaches power then power else x.decadeBelow (power - 1) fuel

/-- The exponent of the largest power of ten that does not exceed a nonzero
double.  The binary length gives it up to one: `1233 / 4096` is just below
`log₁₀ 2`, and two decades are added for its error. -/
def decade (x : Magnitude) : Int :=
  let bits : Int := (x.significand.log2 : Int) + x.exponent
  x.decadeBelow (bits * 1233 / 4096 + 2) 8

/-- The grids of `n, n + 1, …, 17` digits are tried in turn. -/
def shortestFrom (x : Magnitude) (top : Int) (n : Nat) : Nat → Decimal
  | 0 => ⟨x.significand, x.exponent⟩
  | fuel + 1 =>
    let grid := top - (n : Int) + 1
    match x.candidate? grid with
    | some point => ⟨point, grid⟩
    | none => x.shortestFrom top (n + 1) fuel

/-- Take trailing zeros out of the digits. -/
def stripZeros (d : Decimal) : Nat → Decimal
  | 0 => d
  | fuel + 1 =>
    if d.digits ≠ 0 ∧ d.digits % 10 = 0 then
      stripZeros ⟨d.digits / 10, d.exponent + 1⟩ fuel
    else d

/-- The shortest decimal that rounds to a nonzero double.  Seventeen digits
always suffice. -/
def shortest (x : Magnitude) : Decimal :=
  stripZeros (x.shortestFrom x.decade 1 17) 17

end Magnitude

end Switchboard
