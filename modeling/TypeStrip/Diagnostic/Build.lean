import TypeStrip.Diagnostic

/-!
# Diagnostics from named values

A diagnostic of a given kind can be made from its values by name.  Each kind needs some of them and
admits others; unknown names are noticed before absent values, and both before a message that is
not a text.

* `BuildFault`            why no diagnostic can be made;
* `Diagnostic.ofFields`   the diagnostic.
-/

namespace TypeStrip

inductive BuildFault where
  | unknown (kind name : String)
  | missing (kind : String) (names : List String)
  /-- a message that is not a text, by its type -/
  | messageType (type : String)
  deriving DecidableEq, Repr, Inhabited

namespace BuildFault

def nameList (names : List String) : Text :=
  List.intercalate " and ".toList (names.map fun n => '\'' :: n.toList ++ ['\''])

def message : BuildFault → Text
  | unknown kind name =>
    kind.toList ++ ".__init__() got an unexpected keyword argument ".toList ++ nameList [name]
  | missing kind names =>
    kind.toList ++ ".__init__() missing ".toList ++ Text.decimal names.length ++
      (if names.length = 1 then " required positional argument: "
        else " required positional arguments: ").toList ++
      nameList names
  | messageType type => "__str__ returned non-string (type ".toList ++ type.toList ++ [')']

end BuildFault

namespace Diagnostic

def needed (kind : String) : List String :=
  if kind = "ParseError" then ["expected", "found"]
  else if kind = "CodeGenError" then ["node_kind"]
  else ["message"]

/-- The values that a diagnostic of a kind may have besides. -/
def admitted (kind : String) : List String :=
  if kind = "LexError" then ["char", "position"] else []

def messageOf : Json → Except BuildFault Text
  | .str s => .ok s
  | v => .error (.messageType v.typeName)

/-- The diagnostic of a kind with the given values; one that is admitted and not given is null. -/
def ofFields (kind : String) (fields : List (String × Json)) : Except BuildFault Diagnostic :=
  let get (name : String) : Json := (fields.lookup name).getD .null
  let names := needed kind ++ admitted kind
  match fields.find? fun f => !names.contains f.1 with
  | some f => .error (.unknown kind f.1)
  | none =>
    match (needed kind).filter fun name => (fields.lookup name).isNone with
    | [] =>
      if kind = "ParseError" then .ok (.parse (get "expected") (get "found"))
      else if kind = "CodeGenError" then .ok (.emit (get "node_kind"))
      else if kind = "LexError" then
        (messageOf (get "message")).map fun m => .scan m (get "char") (get "position")
      else (messageOf (get "message")).map .general
    | absent => .error (.missing kind absent)

end Diagnostic

end TypeStrip
