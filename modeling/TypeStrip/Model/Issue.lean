import TypeStrip.Json.Equality
import TypeStrip.Text.Bytes

/-!
# Issues

What is wrong with a value that should have the form of a model: a rule that it breaks and the
way to the place where it does.

* `PathStep`             one step on such a way;
* `Violation`            a broken rule, with its `code` and its `message`;
* `Issue`                a broken rule at a place;
* `Rejection`            all issues of a value, in order, with the model they were found for;
* `Rejection.message`    a rejection as a text.
-/

namespace TypeStrip

inductive PathStep where
  | field (name : String)
  | index (i : Nat)
  /-- the same value, as one that a tag says to have this shape -/
  | tag (label : String)
  deriving DecidableEq, Repr, Inhabited

def Json.part (v : Json) (step : PathStep) : Json :=
  match v, step with
  | .obj fields, .field name => (fields.lookup name).getD v
  | .arr items, .index i => items[i]?.getD v
  | _, _ => v

inductive Violation where
  | missing
  | extraForbidden
  | stringType
  | stringTooShort
  /-- not one of a few fixed texts -/
  | literal (allowed : List Text)
  /-- not one of the labels of an enumeration -/
  | enumeration (allowed : List Text)
  | listType
  | modelType (model : String)
  | objectType
  | tagMissing
  | tagUnknown (tag : Text) (allowed : List Text)
  | intType
  | intParsing
  /-- an integer with more digits than are read, or a floating point number of more than 63 bits -/
  | intSize
  | intFraction
  | notFinite
  | negative
  | boolType
  | boolParsing
  | tooDeep
  deriving DecidableEq, Repr, Inhabited

def alternatives (l : List Text) : Text :=
  let quotes := l.map fun s => '\'' :: s ++ ['\'']
  match quotes.reverse with
  | [] => []
  | [s] => s
  | s :: rest => List.intercalate ", ".toList rest.reverse ++ " or ".toList ++ s

namespace Violation

def code : Violation → String
  | missing => "missing"
  | extraForbidden => "extra_forbidden"
  | stringType => "string_type"
  | stringTooShort => "string_too_short"
  | literal _ => "literal_error"
  | enumeration _ => "enum"
  | listType => "list_type"
  | modelType _ => "model_type"
  | objectType => "model_attributes_type"
  | tagMissing => "union_tag_not_found"
  | tagUnknown _ _ => "union_tag_invalid"
  | intType => "int_type"
  | intParsing => "int_parsing"
  | intSize => "int_parsing_size"
  | intFraction => "int_from_float"
  | notFinite => "finite_number"
  | negative => "greater_than_equal"
  | boolType => "bool_type"
  | boolParsing => "bool_parsing"
  | tooDeep => "recursion_depth_exceeded"

def message : Violation → Text
  | missing => "Field required".toList
  | extraForbidden => "Extra inputs are not permitted".toList
  | stringType => "Input should be a valid string".toList
  | stringTooShort => "String should have at least 1 character".toList
  | literal allowed => "Input should be ".toList ++ alternatives allowed
  | enumeration allowed => "Input should be ".toList ++ alternatives allowed
  | listType => "Input should be a valid list".toList
  | modelType model => "Input should be a valid dictionary or instance of ".toList ++ model.toList
  | objectType => "Input should be a valid dictionary or object to extract fields from".toList
  | tagMissing => "Unable to extract tag using discriminator 'kind'".toList
  | tagUnknown tag allowed =>
    "Input tag '".toList ++ tag ++
      "' found using 'kind' does not match any of the expected tags: ".toList ++
      List.intercalate ", ".toList (allowed.map fun s => '\'' :: s ++ ['\''])
  | intType => "Input should be a valid integer".toList
  | intParsing =>
    "Input should be a valid integer, unable to parse string as an integer".toList
  | intSize =>
    "Unable to parse input string as an integer, exceeded maximum size".toList
  | intFraction =>
    "Input should be a valid integer, got a number with a fractional part".toList
  | notFinite => "Input should be a finite number".toList
  | negative => "Input should be greater than or equal to 0".toList
  | boolType => "Input should be a valid boolean".toList
  | boolParsing => "Input should be a valid boolean, unable to interpret input".toList
  | tooDeep => "Recursion error - maximum validation depth exceeded".toList

def reference (v : Violation) : Text :=
  List.intercalate ['/']
    (["https:", "", "errors.pydantic.dev", "2.14", "v", v.code].map String.toList)

end Violation

structure Issue where
  path : List PathStep
  violation : Violation
  deriving DecidableEq, Repr, Inhabited

structure Rejection where
  model : String
  value : Json
  issues : List Issue
  deriving DecidableEq, Repr, Inhabited

namespace Rejection

def stepText : PathStep → Text
  | .field name => name.toList
  | .index i => Text.decimal i
  | .tag label => label.toList

def issueLines (value : Json) (i : Issue) : List Text :=
  let culprit := i.path.foldl Json.part value
  (if i.path.isEmpty then [] else [List.intercalate ['.'] (i.path.map stepText)]) ++
    ["  ".toList ++ i.violation.message ++ " [type=".toList ++ i.violation.code.toList ++
        ", input_value=".toList ++ culprit.written.abbreviated ++
        ", input_type=".toList ++ culprit.typeName.toList ++ [']'],
      "    For further information visit ".toList ++ i.violation.reference]

def message (r : Rejection) : Text :=
  let n := r.issues.length
  let headline := Text.decimal n ++
    (if n = 1 then " validation error for " else " validation errors for ").toList ++
    r.model.toList
  List.intercalate ['\n'] (headline :: r.issues.flatMap (issueLines r.value))

end Rejection

end TypeStrip
