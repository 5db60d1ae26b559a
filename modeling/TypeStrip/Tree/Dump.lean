import TypeStrip.Json
import TypeStrip.Tree

/-!
# Trees and tokens as JSON

Every node is an object whose first field `kind` names its shape; all fields are always written,
an absent type as `null`.

* `Param.toJson`, `Node.toJson`, `Program.toJson`   trees;
* `Token.toJson`                                    tokens.
-/

namespace TypeStrip

def Param.toJson (p : Param) : Json :=
  .obj [("kind", .str "Param".toList), ("name", .str p.name.text),
    ("param_type", .ofOption p.type)]

def Shape.field (k : Shape) : String × Json := ("kind", .str k.label.toList)

mutual

def Node.toJson : Node → Json
  | .number s => .obj [Shape.field .number, ("text", .str s)]
  | .string s => .obj [Shape.field .string, ("text", .str s)]
  | .identifier s => .obj [Shape.field .identifier, ("text", .str s)]
  | .operator op => .obj [Shape.field .operator, ("symbol", .str [op.sign])]
  | .punctuation k s =>
    .obj [Shape.field .punctuation, ("token_kind", .str k.label.toList),
      ("text", .str s)]
  | .returns values =>
    .obj [Shape.field .returns, ("values", .arr (Node.listToJson values))]
  | .function name params type body =>
    .obj [Shape.field .function, ("name", .str name.text),
      ("params", .arr (params.map Param.toJson)), ("return_type", .ofOption type),
      ("body", .arr (Node.listToJson body))]

def Node.listToJson : List Node → List Json
  | [] => []
  | n :: rest => n.toJson :: Node.listToJson rest

end

def Program.toJson (p : Program) : Json :=
  .obj [("kind", .str "Program".toList), ("statements", .arr (Node.listToJson p.statements))]

def Token.toJson (t : Token) : Json :=
  .obj [("kind", .str t.kind.label.toList), ("text", .str t.text), ("position", .int t.position)]

end TypeStrip
