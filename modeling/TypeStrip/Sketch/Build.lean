import TypeStrip.Sketch

/-!
# Sketches from JSON

An object whose field `kind` names a node becomes that node, without a look at anything else.  An
object with a field `foreign` stands for a value of another make: a plain object, or a model of an
unknown kind.  Every other value is foreign by the name of its type.

Where a list belongs, a text stands for its characters and an object for its field names, all of
them foreign values; any other value cannot be walked through.  A body that counts as nothing is
empty, whatever it is.

* `Sketch.ofJson`   the sketch that a JSON value stands for.
-/

namespace TypeStrip
namespace Sketch

def ofField (fields : List (String × Json)) (shape name : String) : Sketch :=
  match fields.lookup name with
  | some v => .leaf v
  | none => .stray (.noField shape name)

/-- What an object with a field `foreign` stands for: a model, which may give any value as its kind,
or a plain object, which gives none. -/
def foreignValue (fields : List (String × Json)) : Foreign :=
  match fields.lookup "foreign" with
  | some (.str ['m', 'o', 'd', 'e', 'l']) => ⟨fields.lookup "kind", "Foreign".toList⟩
  | _ => ⟨none, "object".toList⟩

def ofType (type : String) : Sketch := .foreign ⟨none, type.toList⟩

mutual

def ofJson (v : Json) : Sketch :=
  match v with
  | .obj fields =>
    if (fields.lookup "foreign").isSome then .foreign (foreignValue fields)
    else
      let list (name : String) : List Sketch :=
        match _h : fields.lookup name with
        | some v => ofList v
        | none => []
      match fields.lookup "kind" with
      | some (.str kind) =>
        if kind = "Program".toList then .program (list "statements")
        else if kind = "FunctionDecl".toList then
          let body := if ((fields.lookup "body").getD .null).isEmpty then [] else list "body"
          .function (fields.lookup "name") (list "params") body
        else if kind = "Param".toList then ofField fields "Param" "name"
        else if kind = "ReturnStmt".toList then .returns (list "values")
        else if kind = "OperatorTok".toList then ofField fields "OperatorTok" "symbol"
        else
          match ["NumberLit", "StringLit", "Identifier", "PunctPassthrough"].find?
              fun k => k.toList == kind with
          | some shape => ofField fields shape "text"
          | none => ofType "dict"
      | _ => ofType "dict"
  | v => ofType v.typeName
termination_by (sizeOf v, 0)
decreasing_by exact Prod.Lex.left _ _ (Json.sizeOf_lookup _h)

def ofList (v : Json) : List Sketch :=
  match v with
  | .arr items => ofItems items
  | .str s => s.map fun _ => ofType "str"
  | .obj fields => fields.map fun _ => ofType "str"
  | v => [.stray (.notIterable v.typeName)]
termination_by (sizeOf v, 1)

def ofItems (items : List Json) : List Sketch :=
  match items with
  | [] => []
  | v :: rest => ofJson v :: ofItems rest
termination_by (sizeOf items, 1)

end

end Sketch
end TypeStrip
