import TypeStrip.Model.Checked
import TypeStrip.Options
import TypeStrip.Parse.Fault
import TypeStrip.Tree.Dump

/-!
# Models

The forms that JSON values must have to be read as trees, tokens or options.  The `kind` of a node
may be left out where the model is known; in a list of nodes of any shape it is needed to tell
the shapes apart.  Trees and options admit no unknown fields.

A tree has a limited number of levels.  Programs, functions and return statements have a checker
each.  The checker of return statements sees to all nodes below by itself; that of functions hands
return statements over to theirs, and that of programs hands over both constructs.  A node takes
one level, and a node that is handed over takes two.

* `Checker`                                      the three checkers and what they hand over;
* `Param.check`, `Node.check`, `Program.check`   trees, beside `Node.toJson` and its kin;
* `Token.check`, `Options.check`                 tokens and options;
* `Flaw.rejection`                               a node that cannot be built, as a rejection.
-/

namespace TypeStrip
open Checked

def Name.check : Json → Checked Name
  | .str s =>
    match Name.ofText? s with
    | some n => valid n
    | none => fail .stringTooShort
  | _ => fail .stringType

def Operator.check : Json → Checked Operator
  | .str s =>
    match Operator.ofText? s with
    | some op => valid op
    | none => fail (.literal (Operator.all.map fun op => [op.sign]))
  | _ => fail (.literal (Operator.all.map fun op => [op.sign]))

def Kind.check : Json → Checked Kind
  | .str s =>
    match Kind.ofLabel? s with
    | some k => valid k
    | none => fail (.enumeration (Kind.all.map fun k => k.label.toList))
  | _ => fail (.enumeration (Kind.all.map fun k => k.label.toList))

def Kind.unknownMessage (v : Json) : Text := v.written ++ " is not a valid TokenKind".toList

def Param.check : Json → Checked Param
  | .obj fields =>
    (fun _ name type _ => ⟨name, type⟩) <$> kindField fields "Param"
      <*> field fields "name" Name.check (required "name")
      <*> field fields "param_type" optionalText (valid none)
      <*> noOthers fields ["kind", "name", "param_type"]
  | _ => fail (.modelType "Param")

/-- The construct whose checker is at work. -/
inductive Checker where
  | program
  | function
  | returns
  deriving DecidableEq, Repr, Inhabited

namespace Checker

/-- Whether a node of a shape is left to another checker. -/
def handsOver : Checker → Shape → Bool
  | program, .function | program, .returns | function, .returns => true
  | _, _ => false

/-- The checker of a construct; the other nodes have nothing below them, so any would do. -/
def ofShape : Shape → Checker
  | .function => function
  | _ => returns

end Checker

def maxLevels : Nat := 255

/-- A node of any shape, checked by `check` for the shape that its field `kind` says. -/
def Node.checkTagged (check : Shape → Json → Checked Node) : Json → Checked Node
  | .obj fields =>
    match fields.lookup "kind" with
    | none => fail .tagMissing
    | some tag =>
      match (match tag with
        | .str s => Shape.ofLabel? s
        | _ => none) with
      | some shape => (check shape (.obj fields)).under (.tag shape.label)
      | none => fail (.tagUnknown tag.display (Shape.all.map fun k => k.label.toList))
  | _ => fail .objectType

/-- A node of a known shape, seen to by the checker `c` with `levels` levels left below it. -/
def Node.checkWithin (levels : Nat) (c : Checker) (shape : Shape) (v : Json) : Checked Node :=
  let inner : Shape → Json → Checked Node :=
    match levels with
    | 0 => fun _ _ => fail .tooDeep
    | 1 => fun k w => if c.handsOver k then fail .tooDeep else Node.checkWithin 0 c k w
    | n + 2 => fun k w =>
      if c.handsOver k then Node.checkWithin n (.ofShape k) k w else Node.checkWithin (n + 1) c k w
  let nodes := Checked.list (Node.checkTagged inner)
  match v with
  | .obj fields =>
    match shape with
    | .number =>
      (fun _ s _ => .number s) <$> kindField fields shape.label
        <*> field fields "text" text (required "text")
        <*> noOthers fields ["kind", "text"]
    | .string =>
      (fun _ s _ => .string s) <$> kindField fields shape.label
        <*> field fields "text" text (required "text")
        <*> noOthers fields ["kind", "text"]
    | .identifier =>
      (fun _ s _ => .identifier s) <$> kindField fields shape.label
        <*> field fields "text" text (required "text")
        <*> noOthers fields ["kind", "text"]
    | .operator =>
      (fun _ op _ => .operator op) <$> kindField fields shape.label
        <*> field fields "symbol" Operator.check (required "symbol")
        <*> noOthers fields ["kind", "symbol"]
    | .punctuation =>
      (fun _ k s _ => .punctuation k s) <$> kindField fields shape.label
        <*> field fields "token_kind" Kind.check (required "token_kind")
        <*> field fields "text" text (required "text")
        <*> noOthers fields ["kind", "token_kind", "text"]
    | .returns =>
      (fun _ values _ => .returns values) <$> kindField fields shape.label
        <*> field fields "values" nodes (valid [])
        <*> noOthers fields ["kind", "values"]
    | .function =>
      (fun _ name params type body _ => .function name params type body)
        <$> kindField fields shape.label
        <*> field fields "name" Name.check (required "name")
        <*> field fields "params" (Checked.list Param.check) (valid [])
        <*> field fields "return_type" optionalText (valid none)
        <*> field fields "body" nodes (valid [])
        <*> noOthers fields ["kind", "name", "params", "return_type", "body"]
  | _ => fail (.modelType shape.label)

def Node.check (shape : Shape) (v : Json) : Checked Node :=
  Node.checkWithin (maxLevels - 1) (.ofShape shape) shape v

def Program.check : Json → Checked Program
  | .obj fields =>
    (fun _ statements _ => ⟨statements⟩) <$> kindField fields "Program"
      <*> field fields "statements" (Checked.list (Node.checkTagged inner)) (valid [])
      <*> noOthers fields ["kind", "statements"]
  | _ => fail (.modelType "Program")
where
  /-- the program itself takes no level -/
  inner (shape : Shape) (v : Json) : Checked Node :=
    let own := if Checker.program.handsOver shape then 2 else 1
    Node.checkWithin (maxLevels - own) (.ofShape shape) shape v

/-- A token; unknown fields are left alone, and a token without a position is at offset 0. -/
def Token.check : Json → Checked Token
  | .obj fields =>
    Token.mk <$> field fields "kind" Kind.check (required "kind")
      <*> field fields "text" Checked.text (required "text")
      <*> field fields "position" natural (valid 0)
  | _ => fail (.modelType "Token")

def Options.check : Json → Checked Options
  | .obj fields =>
    (fun boundary type _ => ⟨boundary, type⟩)
      <$> field fields "keyword_boundary" boolean (valid true)
      <*> field fields "require_return_type" boolean (valid true)
      <*> noOthers fields ["keyword_boundary", "require_return_type"]
  | _ => fail (.modelType "CompilerOptions")

def Options.toJson (o : Options) : Json :=
  .obj [("keyword_boundary", .bool o.keywordBoundary),
    ("require_return_type", .bool o.requireReturnType)]

def Flaw.rejection : Flaw → Rejection
  | .operatorSign s =>
    ⟨"OperatorTok", .obj [("symbol", .str s)],
      [⟨[.field "symbol"], .literal (Operator.all.map fun op => [op.sign])⟩]⟩
  | .paramName => ⟨"Param", .obj [("name", .str [])], [⟨[.field "name"], .stringTooShort⟩]⟩
  | .functionName =>
    ⟨"FunctionDecl", .obj [("name", .str [])], [⟨[.field "name"], .stringTooShort⟩]⟩

end TypeStrip
