import TypeStrip.Text

/-!
# Integers in texts

An integer may have white space around it, a sign, zeros in front, a point with zeros behind it,
and single underscores between its digits.  A text in plain form, a minus sign or none and digits
of which the first is not a needless zero, is read as it is; any other text is first reduced to
its plain form step by step.  More than 4300 digits are never read.  A text that begins with so
many is too long, and one that gets so many by the reduction is as malformed as any other.

The steps look at little, so they let a few odd forms through: zeros in front may have any
underscores among them, and a minus sign may stand behind them.

* `NumeralFault`    why a text is no integer;
* `Text.integer`    the integer that a text spells.
-/

namespace TypeStrip

inductive NumeralFault where
  | malformed
  | tooLong
  deriving DecidableEq, Repr, Inhabited

namespace Text

/-- White space around a number; unlike between words, the information separators do not count. -/
def isNumberSpace (c : Char) : Bool :=
  inRanges c.toNat
    [(0x9, 0xd), (0x20, 0x20), (0x85, 0x85), (0xa0, 0xa0), (0x1680, 0x1680), (0x2000, 0x200a),
     (0x2028, 0x2029), (0x202f, 0x202f), (0x205f, 0x205f), (0x3000, 0x3000)]

def trimSpace (s : Text) : Text :=
  ((s.dropWhile isNumberSpace).reverse.dropWhile isNumberSpace).reverse

/-- A text without its plus sign, behind which no minus sign may stand. -/
def dropPlus : Text → Option Text
  | '+' :: '-' :: _ => none
  | '+' :: s => some s
  | s => some s

def startsNumeral (c : Char) : Bool := c = '-' || (c.isDigit && c ≠ '0')

/-- What is left behind a leading zero or an underscore, `last`, that other leading zeros and
underscores may follow.  The last of them stays if a point or nothing follows. -/
def afterZeros (last : Char) : Text → Option Text
  | [] => some [last]
  | c :: s =>
    if c = '0' || c = '_' then afterZeros c s
    else if startsNumeral c then some (c :: s)
    else if c = '.' then some (last :: c :: s)
    else none

def dropZeros : Text → Option Text
  | [] => none
  | c :: s => if c = '0' then afterZeros c s else if startsNumeral c then some (c :: s) else none

/-- A number without a point behind which there are zeros and nothing else. -/
def dropPoint (s : Text) : Text :=
  let zeros := (s.dropWhile (· ≠ '.')).drop 1
  if !zeros.isEmpty && zeros.all (· = '0') then s.takeWhile (· ≠ '.') else s

def hasDoubleUnderscore : Text → Bool
  | '_' :: '_' :: _ => true
  | _ :: s => hasDoubleUnderscore s
  | [] => false

/-- A number without its underscores, if all of them stand alone and inside of it. -/
def dropUnderscores (s : Text) : Text :=
  if s.head? = some '_' || s.getLast? = some '_' || hasDoubleUnderscore s then s
  else s.filter (· ≠ '_')

def numeral (ds : Text) : Nat := ds.foldl (fun n c => 10 * n + (c.toNat - '0'.toNat)) 0

def maxDigits : Nat := 4300

/-- A number in plain form without a sign.  Too many digits are noticed before anything that
follows them. -/
def plainNatural (s : Text) : Except NumeralFault Nat :=
  let ds := s.takeWhile Char.isDigit
  if ds.head? = some '0' then if s = ['0'] then .ok 0 else .error .malformed
  else if maxDigits < ds.length then .error .tooLong
  else if ds.isEmpty || ds.length < s.length then .error .malformed
  else .ok (numeral ds)

def plainInteger : Text → Except NumeralFault Int
  | '-' :: s => (plainNatural s).map fun n => -(n : Int)
  | s => (plainNatural s).map fun n => (n : Int)

def plainForm (s : Text) : Option Text :=
  match dropPlus (trimSpace s) with
  | none => none
  | some ('-' :: s) => (dropZeros s).map fun s => '-' :: dropUnderscores (dropPoint s)
  | some s => (dropZeros s).map fun s => dropUnderscores (dropPoint s)

def reducedInteger (s : Text) : Except NumeralFault Int :=
  match plainForm s with
  | none => .error .malformed
  | some t => (plainInteger t).mapError fun _ => .malformed

def integer (s : Text) : Except NumeralFault Int :=
  match plainInteger s with
  | .error .malformed => reducedInteger s
  | r => r

example : (integer " +1_000 ".toList).toOption = some 1000 := by decide +kernel
example : (integer "-007.00".toList).toOption = some (-7) := by decide +kernel
example : (integer "1.".toList).toOption = none := by decide +kernel
example : (integer "1__0".toList).toOption = none := by decide +kernel
example : (integer "0__10".toList).toOption = some 10 := by decide +kernel
example : (integer "0-_1".toList).toOption = some (-1) := by decide +kernel
example : (integer "000".toList).toOption = some 0 := by decide +kernel
example : (integer "0_".toList).toOption = none := by decide +kernel

end Text

end TypeStrip
