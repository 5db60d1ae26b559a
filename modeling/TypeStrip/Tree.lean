import TypeStrip.Token

/-!
# Syntax trees

A program is a list of nodes.  A node is a leaf that carries its source text, a `return` with the
nodes that follow it, or a function declaration.  Names of functions and parameters are
not empty, and an operator is one of four signs; both are part of the types.

* `Name`, `Operator`   the restricted texts;
* `Param`, `Node`, `Program`   the tree;
* `Shape`              the seven shapes of nodes, by name;
* `Program.functionNames`   the functions declared at top level.
-/

namespace TypeStrip

structure Name where
  text : Text
  nonempty : text ≠ []
  deriving DecidableEq, Repr

def Name.ofText? (s : Text) : Option Name :=
  if h : s ≠ [] then some ⟨s, h⟩ else none

inductive Operator where
  | plus
  | minus
  | times
  | divide
  deriving DecidableEq, Repr, Inhabited

namespace Operator

def all : List Operator := [plus, minus, times, divide]

def sign : Operator → Char
  | plus => '+'
  | minus => '-'
  | times => '*'
  | divide => '/'

def ofText? (s : Text) : Option Operator := all.find? fun op => [op.sign] == s

theorem ofText?_sign (op : Operator) : ofText? [op.sign] = some op := by cases op <;> decide

end Operator

structure Param where
  name : Name
  type : Option Text
  deriving DecidableEq, Repr

inductive Node where
  | number (text : Text)
  | string (text : Text)
  | identifier (text : Text)
  | operator (op : Operator)
  /-- a colon, comma or semicolon outside of any construct that expects one -/
  | punctuation (kind : Kind) (text : Text)
  | returns (values : List Node)
  | function (name : Name) (params : List Param) (returnType : Option Text) (body : List Node)
  deriving Repr

namespace Node

mutual

def decEq : (a b : Node) → Decidable (a = b)
  | .number s, b =>
    match b with
    | .number t => decidable_of_iff (s = t) (by simp)
    | .string _ | .identifier _ | .operator _ | .punctuation _ _ | .returns _
    | .function _ _ _ _ => isFalse nofun
  | .string s, b =>
    match b with
    | .string t => decidable_of_iff (s = t) (by simp)
    | .number _ | .identifier _ | .operator _ | .punctuation _ _ | .returns _
    | .function _ _ _ _ => isFalse nofun
  | .identifier s, b =>
    match b with
    | .identifier t => decidable_of_iff (s = t) (by simp)
    | .number _ | .string _ | .operator _ | .punctuation _ _ | .returns _
    | .function _ _ _ _ => isFalse nofun
  | .operator s, b =>
    match b with
    | .operator t => decidable_of_iff (s = t) (by simp)
    | .number _ | .string _ | .identifier _ | .punctuation _ _ | .returns _
    | .function _ _ _ _ => isFalse nofun
  | .punctuation k s, b =>
    match b with
    | .punctuation l t => decidable_of_iff (k = l ∧ s = t) (by simp)
    | .number _ | .string _ | .identifier _ | .operator _ | .returns _
    | .function _ _ _ _ => isFalse nofun
  | .returns v, b =>
    match b with
    | .returns w =>
      match decEqList v w with
      | isTrue h => isTrue (by rw [h])
      | isFalse h => isFalse (by simpa using h)
    | .number _ | .string _ | .identifier _ | .operator _ | .punctuation _ _
    | .function _ _ _ _ => isFalse nofun
  | .function n p t v, b =>
    match b with
    | .function m q u w =>
      match decEqList v w with
      | isTrue h => decidable_of_iff (n = m ∧ p = q ∧ t = u) (by simp [h])
      | isFalse h => isFalse (by simp [h])
    | .number _ | .string _ | .identifier _ | .operator _ | .punctuation _ _ | .returns _ =>
      isFalse nofun

def decEqList : (v w : List Node) → Decidable (v = w)
  | [], [] => isTrue rfl
  | [], _ :: _ => isFalse nofun
  | _ :: _, [] => isFalse nofun
  | a :: v, b :: w =>
    match decEq a b with
    | isFalse h => isFalse (by simp [h])
    | isTrue h =>
      match decEqList v w with
      | isTrue hv => isTrue (by rw [h, hv])
      | isFalse hv => isFalse (by simp [hv])

end

instance : DecidableEq Node := decEq

end Node

inductive Shape where
  | function
  | returns
  | number
  | string
  | identifier
  | operator
  | punctuation
  deriving DecidableEq, Repr, Inhabited

namespace Shape

def all : List Shape := [function, returns, number, string, identifier, operator, punctuation]

def label : Shape → String
  | function => "FunctionDecl"
  | returns => "ReturnStmt"
  | number => "NumberLit"
  | string => "StringLit"
  | identifier => "Identifier"
  | operator => "OperatorTok"
  | punctuation => "PunctPassthrough"

def ofLabel? (s : Text) : Option Shape := all.find? fun k => k.label.toList == s

theorem ofLabel?_label (k : Shape) : ofLabel? k.label.toList = some k := by cases k <;> decide

end Shape

def Node.shape : Node → Shape
  | .number _ => .number
  | .string _ => .string
  | .identifier _ => .identifier
  | .operator _ => .operator
  | .punctuation _ _ => .punctuation
  | .returns _ => .returns
  | .function _ _ _ _ => .function

/-- The characters of a string literal between its quotes: the text without its two ends. -/
def Node.stringValue? : Node → Option Text
  | .string s => some (s.drop 1).dropLast
  | _ => none

structure Program where
  statements : List Node
  deriving DecidableEq, Repr

def Node.functionName? : Node → Option Name
  | .function name _ _ _ => some name
  | _ => none

/-- The functions declared at top level, in order. -/
def Program.functionNames (p : Program) : List Text :=
  p.statements.filterMap fun n => n.functionName?.map Name.text

theorem Program.functionNames_eq (p : Program) :
    p.functionNames = p.statements.filterMap fun
      | .function name _ _ _ => some name.text
      | _ => none := by
  unfold functionNames
  congr 1
  funext n
  cases n <;> rfl

end TypeStrip
