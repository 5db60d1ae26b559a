import TypeStrip.Compile
import TypeStrip.Session.History
import TypeStrip.Session.Phase

/-!
# Workflows

The state of one viewer: the phase of its latest compile request, the source and options of that
request, its result or failure, and the history.

* `Workflow`               the state;
* `Workflow.tokenRows`, `Workflow.treeJson`, `Workflow.output`   its result for display.
-/

namespace TypeStrip

def sampleSource : Text :=
  "function add(a: number, b: number): number \x7b\n  return a + b;\n\x7d\n".toList

structure Workflow where
  phase : Phase := .idle
  source : Text := sampleSource
  options : Options := {}
  result : Option Compilation := none
  failure : Option Failure := none
  history : List Entry := []
  deriving DecidableEq, Repr

namespace Workflow

instance : Inhabited Workflow := ⟨{}⟩

def isBusy (w : Workflow) : Bool := w.phase = .compiling

def hasResult (w : Workflow) : Bool := w.phase = .compiled && w.result.isSome

def output (w : Workflow) : Option Text := w.result.map Compilation.output

def rows (i : Nat) : List Token → List Json
  | [] => []
  | t :: rest =>
    .obj [("#", .int i), ("Kind", .str t.kind.label.toList), ("Text", .str t.text),
      ("Offset", .int t.position)] :: rows (i + 1) rest

/-- The tokens of the result as a table; no result has an empty one. -/
def tokenRows (w : Workflow) : Json :=
  match w.result with
  | none => .arr []
  | some c => .arr (rows 0 c.tokens)

def treeJson (w : Workflow) : Json :=
  match w.result with
  | none => .null
  | some c => c.tree.toJson

end Workflow

end TypeStrip
