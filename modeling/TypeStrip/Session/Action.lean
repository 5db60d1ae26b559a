import TypeStrip.Json
import TypeStrip.Session.Phase

/-!
# Actions and subscriptions

What can be done with a session through one of its agents, and what a subscriber does when it is
told of an event: nothing, fail, or perform an action itself.

* `Action`, `Reaction`        the two together, since a reaction may subscribe again;
* `Subscription`              a subscriber of an agent and how often it has reacted;
* `Action.weight`             how many reactions an action can ever lead to.
-/

namespace TypeStrip

mutual

inductive Action where
  | attach
  /-- a new workflow for the session, with the options of the old one, and an agent for it -/
  | reset
  | dropSession
  | configure (keywordBoundary requireReturnType : Json)
  /-- a compile request that takes `ticks`; with `broken` the compiler fails with that message -/
  | compile (source : Text) (ticks : Nat) (broken : Option Text)
  | transition (target : Phase)
  /-- a subscription to events whose label or message is `trigger`, or to all, that reacts at most
  `times` times -/
  | subscribe (label : Text) (trigger : Option Text) (times : Nat) (reaction : Reaction)
  | output
  | tokenRows
  | tree
  | historyText
  deriving Repr

inductive Reaction where
  | quiet
  | fail (message : Text)
  | perform (agent : Text) (action : Action)
  deriving Repr

end

instance : Inhabited Action := ⟨.output⟩

instance : Inhabited Reaction := ⟨.quiet⟩

mutual

/-- A bound on the number of reactions that an action makes possible. -/
def Action.weight : Action → Nat
  | .subscribe _ _ times reaction => times * (1 + reaction.weight)
  | .attach | .reset | .dropSession | .configure _ _ | .compile _ _ _ | .transition _ | .output
  | .tokenRows | .tree | .historyText => 0

def Reaction.weight : Reaction → Nat
  | .quiet | .fail _ => 0
  | .perform _ action => action.weight

end

structure Subscription where
  label : Text
  trigger : Option Text
  times : Nat
  reaction : Reaction
  acted : Nat := 0
  deriving Repr, Inhabited

namespace Subscription

def wants (sub : Subscription) (e : Event) : Bool :=
  match sub.trigger with
  | none => true
  | some s => s == e.label.toList || s == e.message

/-- A bound on the number of reactions that the subscription can still lead to. -/
def weight (sub : Subscription) : Nat := (sub.times - sub.acted) * (1 + sub.reaction.weight)

end Subscription

end TypeStrip
