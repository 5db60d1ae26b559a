import TypeStrip.Binary64.Shortest
import TypeStrip.Text.Quoted

/-!
# JSON values

The values that are checked against the models of the library and that trees are written to.  An
object is the list of its fields, in order.  A number is an integer, or a floating point number if
it was written with a point or a power of ten.

* `Json.typeName`       the name of a value's type in messages;
* `Json.isEmpty`        whether a value counts as nothing;
* `Json.display`        a value as plain text: a text stands for itself;
* `Json.written`        a value as it would be typed in: texts are quoted;
* `Json.sizeOf_lookup`  a value found in an object is smaller than the object.
-/

namespace TypeStrip

inductive Json where
  | null
  | bool (b : Bool)
  | int (n : Int)
  | float (x : Binary64)
  | str (s : Text)
  | arr (items : List Json)
  | obj (fields : List (String × Json))
  deriving Repr, Inhabited

namespace Json

def typeName : Json → String
  | null => "NoneType"
  | bool _ => "bool"
  | int _ => "int"
  | float _ => "float"
  | str _ => "str"
  | arr _ => "list"
  | obj _ => "dict"

/-- Whether a value counts as nothing: an absent or false value, a zero, an empty text, list or
object. -/
def isEmpty : Json → Bool
  | null => true
  | bool b => !b
  | int n => n = 0
  | float x => x.isZero
  | str s => s.isEmpty
  | arr items => items.isEmpty
  | obj fields => fields.isEmpty

mutual

/-- A value as it would be typed in: texts are quoted, lists and objects bracketed. -/
def written : Json → Text
  | null => "None".toList
  | bool b => (if b then "True" else "False").toList
  | int n => Text.decimalInt n
  | float x => x.text
  | str s => Text.quoted s
  | arr items => '[' :: List.intercalate ", ".toList (writtenItems items) ++ [']']
  | obj fields => '{' :: List.intercalate ", ".toList (writtenFields fields) ++ ['}']

def writtenItems : List Json → List Text
  | [] => []
  | v :: rest => written v :: writtenItems rest

def writtenFields : List (String × Json) → List Text
  | [] => []
  | (k, v) :: rest => (Text.quoted k.toList ++ ": ".toList ++ written v) :: writtenFields rest

end

/-- A value as plain text; unlike in `written`, a text stands for itself. -/
def display : Json → Text
  | str s => s
  | v => written v

theorem sizeOf_lookup {fields : List (String × Json)} {name : String} {v : Json}
    (h : fields.lookup name = some v) : sizeOf v < sizeOf (obj fields) := by
  have key : ∀ l : List (String × Json), l.lookup name = some v → sizeOf v < sizeOf l := by
    intro l
    induction l with
    | nil => simp
    | cons f rest ih =>
      obtain ⟨k, w⟩ := f
      intro hl
      rw [List.lookup_cons] at hl
      split at hl
      · cases hl
        simp
        omega
      · have := ih hl
        simp
        omega
  have := key fields h
  simp
  omega

def ofOption : Option Text → Json
  | none => null
  | some s => str s

end Json

end TypeStrip
