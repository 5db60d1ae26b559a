import TypeStrip.Json
import TypeStrip.Text

/-!
# Phases and events

A compile request goes through phases.  `compiled` and `error` are both resting phases: a new
request may start from either.  Every change of phase, and the end of every request, is an event.

* `Phase.successors`               the phases that may follow a phase;
* `Event`                          what subscribers are told;
* `Event.label`, `Event.message`, `Event.payload`   an event in words and as a record.
-/

namespace TypeStrip

inductive Phase where
  | idle
  | compiling
  | compiled
  | error
  deriving DecidableEq, Repr, Inhabited

namespace Phase

def label : Phase → String
  | idle => "IDLE"
  | compiling => "COMPILING"
  | compiled => "COMPILED"
  | error => "ERROR"

/-- The phases that may follow, in alphabetical order. -/
def successors : Phase → List Phase
  | idle => [compiling]
  | compiling => [compiled, error]
  | compiled => [compiling]
  | error => [compiling]

def ofLabel? (s : Text) : Option Phase :=
  [idle, compiling, compiled, error].find? fun p => p.label.toList == s

end Phase

inductive Event where
  | phaseChanged (previous current : Phase)
  | compiled (tokenCount : Nat) (functions : List Text)
  | failed (kind message : Text)
  deriving DecidableEq, Repr, Inhabited

namespace Event

def label : Event → String
  | phaseChanged _ _ => "phase_changed"
  | compiled _ _ => "compiled"
  | failed _ _ => "error"

def message : Event → Text
  | phaseChanged _ current => "Phase: ".toList ++ current.label.toList
  | compiled n _ => "Compiled ".toList ++ Text.decimal n ++ " tokens.".toList
  | failed _ message => message

def payload : Event → Json
  | phaseChanged previous current =>
    .obj [("previous", .str previous.label.toList), ("current", .str current.label.toList)]
  | compiled n functions =>
    .obj [("token_count", .int n), ("functions", .arr (functions.map .str))]
  | failed kind _ => .obj [("error_kind", .str kind)]

end Event

end TypeStrip
