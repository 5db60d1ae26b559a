import TypeStrip.Rounding

/-!
# Binary floating point

A finite number is `± significand * 2 ^ exponent` with a significand of at most 53 bits and an
exponent from -1074 to 971, in one representation each: the significand has all 53 bits, or the
exponent is the least one.  Zero has a sign too.  Beyond the finite numbers there are two
infinities, and one value that is not a number.

* `Binary64.Finite`       finite numbers;
* `Binary64`              all values;
* `Binary64.ofDecimal`    the nearest value to a decimal;
* `Binary64.integer?`     the integer that a value is.
-/

namespace TypeStrip

structure Binary64.Finite where
  negative : Bool
  significand : Nat
  exponent : Int
  deriving DecidableEq, Repr, Inhabited

inductive Binary64 where
  | finite (x : Binary64.Finite)
  | infinite (negative : Bool)
  | notANumber
  deriving DecidableEq, Repr, Inhabited

namespace Binary64

/-- The fraction `num / den` measured in units of `b ^ e`. -/
def inUnits (b : Nat) (num den : Nat) (e : Int) : Nat × Nat :=
  if 0 ≤ e then (num, den * Nat.pow b e.toNat) else (num * Nat.pow b (-e).toNat, den)

namespace Finite

def zero (negative : Bool) : Finite := ⟨negative, 0, 0⟩

def isZero (x : Finite) : Bool := x.significand = 0

/-- The absolute value as a fraction. -/
def fraction (x : Finite) : Nat × Nat := inUnits 2 x.significand 1 (-x.exponent)

def integer? (x : Finite) : Option Int :=
  let (num, den) := x.fraction
  if num % den = 0 then some (if x.negative then -(num / den : Nat) else (num / den : Nat))
  else none

/-- The least exponent, from -1074 on, at which `num / den` has no more than 53 bits before the
point.  The logarithms tell it up to one. -/
def exponentFor (num den : Nat) : Int :=
  let e : Int := (num.log2 : Int) - den.log2 - 53
  let scaled := inUnits 2 num den e
  let e := if scaled.1 / scaled.2 < Nat.pow 2 53 then e else e + 1
  if e < -1074 then -1074 else e

/-- The number nearest to `± num / den`, with an even significand where two are equally near; its
exponent may be greater than any finite number has. -/
def nearest (negative : Bool) (num den : Nat) : Finite :=
  let e := exponentFor num den
  let scaled := inUnits 2 num den e
  let s := roundDiv scaled.1 scaled.2
  if s = 0 then zero negative
  else if s < Nat.pow 2 53 then ⟨negative, s, e⟩
  else ⟨negative, s / 2, e + 1⟩

end Finite

def maxExponent : Int := 971

/-- The value nearest to `± digits * 10 ^ power`; an infinity if that is beyond all finite
numbers. -/
def ofDecimal (negative : Bool) (digits : Nat) (power : Int) : Binary64 :=
  if digits = 0 then .finite (.zero negative)
  else
    let scaled := inUnits 10 digits 1 (-power)
    let x := Finite.nearest negative scaled.1 scaled.2
    if x.exponent ≤ maxExponent then .finite x else .infinite negative

def isZero : Binary64 → Bool
  | finite x => x.isZero
  | infinite _ | notANumber => false

def integer? : Binary64 → Option Int
  | finite x => x.integer?
  | infinite _ | notANumber => none

example : ofDecimal false 1 0 = .finite ⟨false, 0x10000000000000, -52⟩ := by decide +kernel
example : ofDecimal false 1 (-1) = .finite ⟨false, 0x1999999999999a, -56⟩ := by decide +kernel
example : ofDecimal true 5 (-324) = .finite ⟨true, 1, -1074⟩ := by decide +kernel
example : ofDecimal false 9007199254740993 0 = ofDecimal false 9007199254740992 0 := by
  decide +kernel
example : (ofDecimal false 4611686018427389 3).integer? = some 4611686018427388928 := by
  decide +kernel
example : (ofDecimal false 25 (-1)).integer? = none := by decide +kernel
example : ofDecimal false 17976931348623158 292 = .finite ⟨false, 0x1fffffffffffff, 971⟩ := by
  decide +kernel
example : ofDecimal true 17976931348623159 292 = .infinite true := by decide +kernel

end Binary64

end TypeStrip
