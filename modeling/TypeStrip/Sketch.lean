import TypeStrip.Json
import TypeStrip.Tree.Untyped

/-!
# Sketches

Trees put together without any check, in which every node may stand in every list, values that are
no nodes may stand there too, and any value may stand where a text belongs.  Writing a sketch goes
from left to right, the parameters of a function before its body and both before its name, and
fails at the first part that cannot be written.  Several texts are put together only when all of
them are there, so a part that is not a text is noticed behind the failures of its neighbours.

* `EmitFault`                       why a sketch cannot be written;
* `Foreign`                         values that are no nodes;
* `Sketch`                          unchecked trees;
* `Sketch.emit`                     what a sketch stands for when it is written;
* `Node.sketch`, `Program.sketch`   a checked tree as a sketch;
* `Program.emit_sketch`             a checked tree is written as its untyped text.
-/

namespace TypeStrip

inductive EmitFault where
  /-- a value that is no node, by its kind -/
  | foreign (kind : Text)
  /-- a value in the place of a list, by its type -/
  | notIterable (type : String)
  /-- a part that is not a text, by its index among its neighbours and its type -/
  | notText (index : Nat) (type : String)
  | noField (shape field : String)
  deriving DecidableEq, Repr, Inhabited

def EmitFault.message : EmitFault → Text
  | foreign kind => "Unknown node kind: ".toList ++ kind
  | notIterable type => Text.quoted type.toList ++ " object is not iterable".toList
  | notText index type =>
    "sequence item ".toList ++ Text.decimal index ++ ": expected str instance, ".toList ++
      type.toList ++ " found".toList
  | noField shape field =>
    Text.quoted shape.toList ++ " object has no attribute ".toList ++ Text.quoted field.toList

/-- A value that is no node: what it gives as its kind, if anything, and the name of its type. -/
structure Foreign where
  kind : Option Json
  type : Text
  deriving Repr, Inhabited

/-- The kind under which a value is reported: the one it gives itself if that is a text. -/
def Foreign.nodeKind (f : Foreign) : Text :=
  match f.kind with
  | some (.str kind) => kind
  | _ => f.type

/-- A tree that was put together without checks. -/
inductive Sketch where
  | program (statements : List Sketch)
  | function (name : Option Json) (params body : List Sketch)
  | returns (values : List Sketch)
  /-- a parameter, number, string, identifier, operator or punctuation mark: the value it carries -/
  | leaf (value : Json)
  | foreign (value : Foreign)
  /-- a part that cannot be written, although it stands for a node or for several values -/
  | stray (fault : EmitFault)
  deriving Repr, Inhabited

namespace Sketch

/-- The parts of a construct as texts, the first of which has the index `i`. -/
def texts (i : Nat) : List Json → Except EmitFault (List Text)
  | [] => .ok []
  | .str s :: rest =>
    match texts (i + 1) rest with
    | .error e => .error e
    | .ok l => .ok (s :: l)
  | v :: _ => .error (.notText i v.typeName)

theorem texts_str (i : Nat) (l : List Text) : texts i (l.map Json.str) = .ok l := by
  induction l generalizing i with
  | nil => rfl
  | cons s l ih => rw [List.map_cons, texts, ih]

mutual

/-- What a sketch stands for: a text, or the value that a leaf carries. -/
def emit : Sketch → Except EmitFault Json
  | program statements =>
    match (emitAll statements).bind (texts 0) with
    | .error e => .error e
    | .ok l => .ok (.str (programText l))
  | function name params body =>
    match (emitAll params).bind (texts 0) with
    | .error e => .error e
    | .ok ps =>
      match (emitAll body).bind (texts 0) with
      | .error e => .error e
      | .ok l =>
        match name with
        | none => .error (.noField "FunctionDecl" "name")
        | some v => .ok (.str (functionText v.display ps l))
  | returns values =>
    match (emitAll values).bind (texts 0) with
    | .error e => .error e
    | .ok l => .ok (.str (returnText l))
  | leaf value => .ok value
  | foreign value => .error (.foreign value.nodeKind)
  | stray fault => .error fault

def emitAll : List Sketch → Except EmitFault (List Json)
  | [] => .ok []
  | t :: rest =>
    match emit t with
    | .error e => .error e
    | .ok v =>
      match emitAll rest with
      | .error e => .error e
      | .ok l => .ok (v :: l)

end

end Sketch

/-! ### Checked trees -/

def Param.sketch (p : Param) : Sketch := .leaf (.str p.name.text)

mutual

def Node.sketch : Node → Sketch
  | .number s | .string s | .identifier s | .punctuation _ s => .leaf (.str s)
  | .operator op => .leaf (.str [op.sign])
  | .returns values => .returns (Node.sketches values)
  | .function name params _ body =>
    .function (some (.str name.text)) (params.map Param.sketch) (Node.sketches body)

def Node.sketches : List Node → List Sketch
  | [] => []
  | n :: rest => n.sketch :: Node.sketches rest

end

def Program.sketch (p : Program) : Sketch := .program (Node.sketches p.statements)

theorem Param.emit_sketch (p : Param) : p.sketch.emit = .ok (.str p.untyped) := rfl

theorem Param.emitAll_sketch (params : List Param) :
    Sketch.emitAll (params.map Param.sketch) = .ok ((params.map Param.untyped).map Json.str) := by
  induction params with
  | nil => rfl
  | cons p rest ih => rw [List.map_cons, Sketch.emitAll, Param.emit_sketch, ih]; rfl

theorem Sketch.bind_texts {l : List Sketch} {ts : List Text}
    (h : Sketch.emitAll l = .ok (ts.map Json.str)) :
    (Sketch.emitAll l).bind (Sketch.texts 0) = .ok ts := by
  rw [h]
  exact Sketch.texts_str 0 ts

mutual

theorem Node.emit_sketch : (n : Node) → n.sketch.emit = .ok (.str n.untyped)
  | .number _ | .string _ | .identifier _ | .punctuation _ _ => rfl
  | .operator _ => rfl
  | .returns values => by
    rw [Node.sketch, Sketch.emit, Sketch.bind_texts (Node.emitAll_sketches values), Node.untyped]
  | .function name params type body => by
    rw [Node.sketch, Sketch.emit, Sketch.bind_texts (Param.emitAll_sketch params),
      Sketch.bind_texts (Node.emitAll_sketches body), Node.untyped]
    rfl

theorem Node.emitAll_sketches :
    (l : List Node) → Sketch.emitAll (Node.sketches l) = .ok ((Node.untypedList l).map Json.str)
  | [] => rfl
  | n :: rest => by
    rw [Node.sketches, Sketch.emitAll, n.emit_sketch, Node.emitAll_sketches rest]
    rfl

end

/-- A program can always be written, and is written without its types. -/
theorem Program.emit_sketch (p : Program) : p.sketch.emit = .ok (.str p.untyped) := by
  rw [Program.sketch, Sketch.emit, Sketch.bind_texts (Node.emitAll_sketches p.statements),
    Program.untyped]

end TypeStrip
