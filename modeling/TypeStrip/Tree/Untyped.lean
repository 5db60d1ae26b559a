import TypeStrip.Tree

/-!
# Untyped texts

The text of a tree without its types: they are never written, and everything else is written from
the texts that the nodes carry.

* `programText`, `functionText`, `returnText`   a construct, given the texts of its parts;
* `Node.untyped`, `Program.untyped`             the text of a tree.
-/

namespace TypeStrip

/-! ### Constructs -/

def programText (statements : List Text) : Text := List.intercalate ['\n'] statements

def braced (body : List Text) : Text :=
  if body.isEmpty then "\x7b \x7d".toList
  else "\x7b ".toList ++ List.intercalate ['\n'] body ++ " \x7d".toList

def functionText (name : Text) (params body : List Text) : Text :=
  "function ".toList ++ name ++ '(' :: List.intercalate ", ".toList params ++ ") ".toList ++
    braced body

/-- Values are written without anything between them. -/
def returnText (values : List Text) : Text := "return ".toList ++ values.flatten ++ [';']

/-! ### Trees -/

def Param.untyped (p : Param) : Text := p.name.text

mutual

def Node.untyped : Node → Text
  | .number s | .string s | .identifier s | .punctuation _ s => s
  | .operator op => [op.sign]
  | .returns values => returnText (Node.untypedList values)
  | .function name params _ body =>
    functionText name.text (params.map Param.untyped) (Node.untypedList body)

def Node.untypedList : List Node → List Text
  | [] => []
  | n :: rest => n.untyped :: Node.untypedList rest

end

def Program.untyped (p : Program) : Text := programText (Node.untypedList p.statements)

end TypeStrip
