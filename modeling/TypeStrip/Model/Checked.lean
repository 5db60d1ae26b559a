import TypeStrip.Model.Issue
import TypeStrip.Text.Numeral

/-!
# Checked values

The result of checking a value against a model: the typed value, or all issues found.  Checks are
put together with `<*>`, which keeps the issues of both sides in order.

* `Checked`                        a value, or its issues;
* `Checked.under`                  issues moved to a place further in;
* `Checked.field`                  one field of an object;
* `Checked.noOthers`               the refusal of unknown fields;
* `Checked.list`                   all items of a list;
* `Checked.text`, `Checked.boolean`, `Checked.natural`   the scalar checks.
-/

namespace TypeStrip

inductive Checked (α : Type) where
  | valid (value : α)
  | invalid (issues : List Issue)
  deriving DecidableEq, Repr

namespace Checked
variable {α β : Type}

def fail (v : Violation) : Checked α := .invalid [⟨[], v⟩]

/-- A checked function applied to a checked argument, with the issues of both. -/
def apply (f : Checked (α → β)) (x : Checked α) : Checked β :=
  match f, x with
  | valid f, valid a => valid (f a)
  | valid _, invalid e => invalid e
  | invalid e, valid _ => invalid e
  | invalid e, invalid e' => invalid (e ++ e')

instance : Applicative Checked where
  pure := valid
  seq f x := apply f (x ())

@[simp] theorem map_valid (f : α → β) (a : α) : f <$> valid a = valid (f a) := rfl

@[simp] theorem map_invalid (f : α → β) (e : List Issue) :
    f <$> (invalid e : Checked α) = invalid e := rfl

/-- The same check one step further in. -/
def under (step : PathStep) : Checked α → Checked α
  | valid a => valid a
  | invalid e => invalid (e.map fun i => { i with path := step :: i.path })

/-- What the check `c` of the value `v` gives, or a rejection of it in the name of a model. -/
def toExcept (c : Checked α) (model : String) (v : Json) : Except Rejection α :=
  match c with
  | valid a => .ok a
  | invalid e => .error ⟨model, v, e⟩

/-! ### Fields -/

def field (fields : List (String × Json)) (name : String) (check : Json → Checked α)
    (absent : Checked α) : Checked α :=
  match fields.lookup name with
  | none => absent
  | some v => (check v).under (.field name)

def required (name : String) : Checked α := invalid [⟨[.field name], .missing⟩]

def noOthers (fields : List (String × Json)) (known : List String) : Checked Unit :=
  match fields.filter fun f => !known.contains f.1 with
  | [] => valid ()
  | others => invalid (others.map fun f => ⟨[.field f.1], .extraForbidden⟩)

/-- The field `kind`, which may be absent and otherwise has one possible value. -/
def kindField (fields : List (String × Json)) (label : String) : Checked Unit :=
  field fields "kind"
    (fun v =>
      match v with
      | .str s => if s = label.toList then valid () else fail (.literal [label.toList])
      | _ => fail (.literal [label.toList]))
    (valid ())

/-! ### Lists -/

def items (check : Json → Checked α) (i : Nat) : List Json → Checked (List α)
  | [] => valid []
  | v :: rest => List.cons <$> (check v).under (.index i) <*> items check (i + 1) rest

def list (check : Json → Checked α) : Json → Checked (List α)
  | .arr l => items check 0 l
  | _ => fail .listType

/-! ### Scalars -/

def text : Json → Checked Text
  | .str s => valid s
  | _ => fail .stringType

def optionalText : Json → Checked (Option Text)
  | .null => valid none
  | .str s => valid (some s)
  | _ => fail .stringType

def truthWords : List (Text × Bool) :=
  [("0".toList, false), ("off".toList, false), ("f".toList, false), ("false".toList, false),
   ("n".toList, false), ("no".toList, false), ("1".toList, true), ("on".toList, true),
   ("t".toList, true), ("true".toList, true), ("y".toList, true), ("yes".toList, true)]

/-- Whether an integer fits into 63 bits and a sign. -/
def isWord (n : Int) : Bool := -(Nat.pow 2 63 : Int) ≤ n && n < (Nat.pow 2 63 : Int)

/-- The integer that a floating point number is, which must need no more than 63 bits; otherwise
the broken rule. -/
def ofFloat : Binary64 → Except Violation Int
  | .finite x =>
    match x.integer? with
    | none => .error .intFraction
    | some n => if n.natAbs < Nat.pow 2 63 then .ok n else .error .intSize
  | .infinite _ | .notANumber => .error .notFinite

/-- A truth value, the number 0 or 1, or a word that stands for one in any case. -/
def boolean : Json → Checked Bool
  | .bool b => valid b
  | .int n => if isWord n then ofInt n else fail .boolType
  | .float x =>
    match ofFloat x with
    | .ok n => ofInt n
    | .error _ => fail .boolType
  | .str s =>
    match truthWords.lookup (s.map Char.toLower) with
    | some b => valid b
    | none => fail .boolParsing
  | _ => fail .boolType
where
  ofInt (n : Int) : Checked Bool :=
    if n = 0 then valid false else if n = 1 then valid true else fail .boolParsing

def numeralViolation : NumeralFault → Violation
  | .malformed => .intParsing
  | .tooLong => .intSize

/-- A number from zero on, in any of the forms in which an integer may be given. -/
def natural : Json → Checked Nat
  | .bool b => valid (if b then 1 else 0)
  | .int n => ofInt n
  | .float x =>
    match ofFloat x with
    | .ok n => ofInt n
    | .error e => fail e
  | .str s =>
    match Text.integer s with
    | .ok n => ofInt n
    | .error e => fail (numeralViolation e)
  | _ => fail .intType
where
  ofInt : Int → Checked Nat
    | .ofNat n => valid n
    | .negSucc _ => fail .negative

end Checked

end TypeStrip
