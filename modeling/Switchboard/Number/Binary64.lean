/-!
# Switchboard.Number.Binary64

Finite double-precision numbers in exact arithmetic.  A magnitude is
`significand · 2^exponent`, canonical when the significand has 53 bits or the
exponent is the smallest one; every operation computes the exact quotient of
two naturals and rounds it once, to the nearest double and on a tie to the
even significand.  Nothing here overflows silently: a magnitude too large for
a double is `none`.
-/

namespace Switchboard

/-- The absolute value `significand · 2^exponent` of a finite double. -/
structure Magnitude where
  significand : Nat
  exponent : Int
  deriving DecidableEq, Inhabited

namespace Magnitude

/-- The exponent of the subnormal numbers, below which nothing is finer. -/
def minExponent : Int := -1074

/-- The exponent of the largest finite numbers. -/
def maxExponent : Int := 971

def zero : Magnitude := ⟨0, minExponent⟩

def isZero (x : Magnitude) : Bool := x.significand == 0

/-- The numbers that a double can hold, each in its one canonical form. -/
def Canonical (x : Magnitude) : Prop :=
  x.significand < 1 <<< 53 ∧ minExponent ≤ x.exponent ∧ x.exponent ≤ maxExponent ∧
    (1 <<< 52 ≤ x.significand ∨ x.exponent = minExponent)

/-- The quotient `num / den` in units of `2^exponent`, as a fraction of two
naturals. -/
def scaled (num den : Nat) (exponent : Int) : Nat × Nat :=
  (num <<< (-exponent).toNat, den <<< exponent.toNat)

/-- Round a fraction to the nearest natural, a half to the even one. -/
def roundHalfEven (num den : Nat) : Nat :=
  let q := num / den
  let r := num % den
  if 2 * r < den then q
  else if den < 2 * r then q + 1
  else if q % 2 = 0 then q else q + 1

/-- The exponent that gives `num / den` a 53-bit significand, or the
smallest exponent if that one is larger. -/
def exponentFor (num den : Nat) : Int :=
  let guess : Int := (num.log2 : Int) - (den.log2 : Int) - 52
  let (n, d) := scaled num den guess
  let fitted := if n < d <<< 52 then guess - 1 else guess
  max fitted minExponent

/-- The double nearest to `num / den`, or `none` beyond the largest one. -/
def ofRatio? (num den : Nat) : Option Magnitude :=
  if num = 0 then some zero
  else
    let exponent := exponentFor num den
    let (n, d) := scaled num den exponent
    let significand := roundHalfEven n d
    let rounded : Magnitude :=
      if significand = 1 <<< 53 then ⟨1 <<< 52, exponent + 1⟩ else ⟨significand, exponent⟩
    if maxExponent < rounded.exponent then none else some rounded

def ofNat? (n : Nat) : Option Magnitude := ofRatio? n 1

def mul? (x y : Magnitude) : Option Magnitude :=
  let exponent := x.exponent + y.exponent
  ofRatio? ((x.significand * y.significand) <<< exponent.toNat) (1 <<< (-exponent).toNat)

def div? (x y : Magnitude) : Option Magnitude :=
  let exponent := x.exponent - y.exponent
  ofRatio? (x.significand <<< exponent.toNat) (y.significand <<< (-exponent).toNat)

end Magnitude

/-- A finite double-precision number.  Zero has two signs. -/
structure Binary64 where
  negative : Bool
  magnitude : Magnitude
  deriving DecidableEq, Inhabited

namespace Binary64

def zero : Binary64 := ⟨false, .zero⟩

/-- The double nearest to an integer; beyond the largest double there is
none. -/
def ofInt? (i : Int) : Option Binary64 :=
  (Magnitude.ofNat? i.natAbs).map fun m => ⟨decide (i < 0), m⟩

/-- `numerator / 2^53`, exactly, for a numerator of at most 53 bits. -/
def ofUnitNumerator (numerator : Nat) : Binary64 :=
  ⟨false, (Magnitude.ofRatio? numerator (1 <<< 53)).getD .zero⟩

end Binary64

end Switchboard
