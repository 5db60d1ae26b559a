import TypeStrip.Binary64
import TypeStrip.Text

/-!
# The shortest text of a number

A finite number is written with the fewest decimal digits that read back as it; of several such
decimals the nearest is taken.  The digits are laid out positionally where the first of them counts
units from `10 ^ -4` to `10 ^ 15`, with at least one digit on both sides of the point, and with a
power of ten elsewhere.

* `Finite.onGrid`     the nearest decimal with a given last place that reads back;
* `Finite.shortest`   the digits and their power of ten;
* `Finite.text`       the text of a finite number;
* `Binary64.text`     the text of any value.
-/

namespace TypeStrip
namespace Binary64
namespace Finite

/-- The least `k` with `num / den < 10 ^ k`, for a positive fraction. -/
def scale (num den : Nat) : Int :=
  let k : Int := (Text.decimal num).length - (Text.decimal den).length
  let scaled := inUnits 10 num den k
  if scaled.1 < scaled.2 then k else k + 1

/-- The nearest multiple of `10 ^ power` that reads back as `x`, in units of `10 ^ power`. -/
def onGrid (x : Finite) (power : Int) : Option Nat :=
  let scaled := inUnits 10 x.fraction.1 x.fraction.2 power
  let below := scaled.1 / scaled.2
  let near := roundDiv scaled.1 scaled.2
  let far := if near = below then below + 1 else below
  [near, far].find? fun d => ofDecimal x.negative d power = .finite x

def exact (x : Finite) : Nat × Int :=
  if 0 ≤ x.exponent then (x.significand * Nat.pow 2 x.exponent.toNat, 0)
  else (x.significand * Nat.pow 5 (-x.exponent).toNat, x.exponent)

/-- The decimal with the fewest digits, one to seventeen, that reads back as a number other than
zero.  All of its digits lie below `10 ^ k`, so with `n` of them it is a multiple of
`10 ^ (k - n)`. -/
def shortest (x : Finite) : Nat × Int :=
  let k := scale x.fraction.1 x.fraction.2
  ((List.range' 1 17).findSome? fun (n : Nat) =>
    (x.onGrid (k - n)).map fun d => (d, k - n)).getD x.exact

/-! ### Layout -/

def trimZeros (s : Text) : Text := (s.reverse.dropWhile (· = '0')).reverse

/-- The digits `ds` with the decimal point behind the first `point` of them, which are filled up
with zeros on either side; there is at least one digit on both sides of the point. -/
def positional (ds : Text) (point : Int) : Text :=
  if point ≤ 0 then '0' :: '.' :: List.replicate (-point).toNat '0' ++ ds
  else
    let n := point.toNat
    let tail := ds.drop n
    ds.take n ++ List.replicate (n - ds.length) '0' ++ '.' :: (if tail.isEmpty then ['0'] else tail)

def scientific (ds : Text) (power : Int) : Text :=
  let mark := if power < 0 then '-' else '+'
  ds.take 1 ++ (if ds.length ≤ 1 then [] else '.' :: ds.drop 1) ++
    'e' :: mark :: Text.padLeft 2 '0' (Text.decimal power.natAbs)

def layout (digits : Nat) (power : Int) : Text :=
  let all := Text.decimal digits
  let first := power + all.length - 1
  let ds := trimZeros all
  if -4 ≤ first ∧ first < 16 then positional ds (first + 1) else scientific ds first

def text (x : Finite) : Text :=
  (if x.negative then ['-'] else []) ++
    (if x.isZero then "0.0".toList else layout x.shortest.1 x.shortest.2)

end Finite

def text : Binary64 → Text
  | finite x => x.text
  | infinite negative => (if negative then "-inf" else "inf").toList
  | notANumber => "nan".toList

example : (ofDecimal false 3 0).text = "3.0".toList := by decide +kernel
example : (ofDecimal true 0 0).text = "-0.0".toList := by decide +kernel
example : (ofDecimal false 30000000000000004 (-17)).text = "0.30000000000000004".toList := by
  decide +kernel
example : (ofDecimal false 1 (-4)).text = "0.0001".toList := by decide +kernel
example : (ofDecimal true 15 (-6)).text = "-1.5e-05".toList := by decide +kernel
example : (ofDecimal false 1 16).text = "1e+16".toList := by decide +kernel
example : (ofDecimal false 1 23).text = "1e+23".toList := by decide +kernel
example : (ofDecimal false 298023223876953125 (-25)).text = "2.9802322387695312e-08".toList := by
  decide +kernel
example : (ofDecimal false 17976931348623157 292).text = "1.7976931348623157e+308".toList := by
  decide +kernel
example : (ofDecimal false 5 (-324)).text = "5e-324".toList := by decide +kernel

end Binary64
end TypeStrip
