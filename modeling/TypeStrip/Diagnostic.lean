import TypeStrip.Json.Equality
import TypeStrip.Parse
import TypeStrip.Sketch
import TypeStrip.Token.Scan

/-!
# Diagnostics

What a failed compilation reports: a kind, the stage that failed, a message, and the particulars
of that stage.  The particulars may be any values; in a message they stand as plain text.

* `Diagnostic`            the report;
* `Diagnostic.message`    its one-line message;
* `Diagnostic.toJson`     the report as a record.
-/

namespace TypeStrip

inductive Diagnostic where
  /-- a failure of no particular stage -/
  | general (message : Text)
  | scan (message : Text) (char position : Json)
  | parse (expected found : Json)
  | emit (nodeKind : Json)
  deriving DecidableEq, Repr, Inhabited

namespace Diagnostic

def kind : Diagnostic → String
  | general _ => "CompileError"
  | scan _ _ _ => "LexError"
  | parse _ _ => "ParseError"
  | emit _ => "CodeGenError"

def stage : Diagnostic → String
  | general _ => "compile"
  | scan _ _ _ => "lex"
  | parse _ _ => "parse"
  | emit _ => "emit"

def message : Diagnostic → Text
  | general message => message
  | scan message _ _ => message
  | parse expected found => expected.display ++ ", found ".toList ++ found.display
  | emit nodeKind => "Unknown node kind: ".toList ++ nodeKind.display

/-- What a report says beyond its kind, stage and message. -/
def particulars : Diagnostic → List (String × Json)
  | general _ => []
  | scan _ char position => [("char", char), ("position", position)]
  | parse expected found => [("expected", expected), ("found", found)]
  | emit nodeKind => [("node_kind", nodeKind)]

def toJson (d : Diagnostic) : Json :=
  .obj ([("kind", .str d.kind.toList), ("stage", .str d.stage.toList),
    ("message", .str d.message)] ++ d.particulars)

end Diagnostic

def ScanFault.diagnostic (f : ScanFault) : Diagnostic :=
  .scan f.message (.str [f.char]) (.int f.position)

def Expectation.diagnostic (e : Expectation) (found : Option Token) : Diagnostic :=
  .parse (.str e.message) (.str (describeFound found))

end TypeStrip
