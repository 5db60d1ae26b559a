import TypeStrip.Session.Action
import TypeStrip.Session.Workflow

/-!
# Sessions

A session remembers at most one workflow.  Agents are bound to the workflow that the session
remembered when they were made, and keep it for good; a reset gives the session a new workflow and
leaves the old one to the agents that are bound to it.  Workflows and agents are numbered in the
order in which they were made.

* `Agent`, `Session`        the state;
* `Session.attach`, `Session.reset`, `Session.configure`   the operations without events;
* `Session.deliver`         an event told to every subscriber of an agent;
* `Session.transition`, `Session.compileWith`              the operations that tell events;
* `Session.perform`, `Session.run`                         an action through a named agent.
-/

namespace TypeStrip

structure Agent where
  workflow : Nat
  subscriptions : List Subscription := []
  deriving Repr, Inhabited

structure Heard where
  label : Text
  event : Event
  deriving DecidableEq, Repr, Inhabited

structure Session where
  workflows : List Workflow := []
  agents : List Agent := []
  names : List (Text × Nat) := []
  /-- the workflow that the session remembers -/
  current : Option Nat := none
  heard : List Heard := []
  log : List LogRecord := []
  deriving Repr, Inhabited

inductive ActionFault where
  | refused (current target : Phase)
  | rejected (r : Rejection)
  | unknownAgent (name : Text)
  deriving DecidableEq, Repr, Inhabited

def ActionFault.message : ActionFault → Text
  | refused current target =>
    "Invalid workflow transition: ".toList ++ current.label.toList ++ " → ".toList ++
      target.label.toList ++ ". Allowed targets: [".toList ++
      List.intercalate ", ".toList (current.successors.map fun p => Text.quoted p.label.toList) ++
      [']']
  | rejected r => r.message
  | unknownAgent name => Text.quoted name

namespace Session

def workflow (s : Session) (i : Nat) : Workflow := s.workflows[i]?.getD {}

def workflowOf (s : Session) (a : Nat) : Nat := (s.agents[a]?.getD default).workflow

def update (i : Nat) (f : Workflow → Workflow) (s : Session) : Session :=
  { s with workflows := s.workflows.modify i f }

def note (level : LogLevel) (message : Text) (s : Session) : Session :=
  { s with log := s.log ++ [⟨level, .agent, message⟩] }

/-! ### Agents and workflows -/

def remember (w : Workflow) (s : Session) : Session :=
  { s with workflows := s.workflows ++ [w], current := some s.workflows.length }

/-- A new agent for workflow `i`; its number is the number of agents before. -/
def addAgent (i : Nat) (s : Session) : Nat × Session :=
  (s.agents.length, { s with agents := s.agents ++ [⟨i, []⟩] })

/-- A new agent for the workflow of the session, which is made if there is none. -/
def attach (s : Session) : Nat × Session :=
  match s.current with
  | some i => s.addAgent i
  | none =>
    let i := s.workflows.length
    ((s.note .info "Initialising new UIAgent workflow state.".toList).remember {}).addAgent i

/-- A new workflow with the options of the old one, and an agent for it. -/
def reset (s : Session) : Nat × Session :=
  let options := match s.current with
    | some i => (s.workflow i).options
    | none => {}
  let i := s.workflows.length
  let s := s.note .info "UIAgent: hard reset triggered.".toList
  (s.remember { options := options }).addAgent i

def configure (a : Nat) (keywordBoundary requireReturnType : Json) (s : Session) :
    Except ActionFault Session :=
  let v := Json.obj [("keyword_boundary", keywordBoundary),
    ("require_return_type", requireReturnType)]
  match (Options.check v).toExcept "CompilerOptions" v with
  | .error r => .error (.rejected r)
  | .ok o =>
    .ok ((s.update (s.workflowOf a) fun w => { w with options := o }).note .info
      ("Compiler options updated: keyword_boundary=".toList ++ keywordBoundary.display ++
        " require_return_type=".toList ++ requireReturnType.display))

def subscribe (a : Nat) (sub : Subscription) (s : Session) : Session :=
  { s with agents := s.agents.modify a fun g =>
      { g with subscriptions := g.subscriptions ++ [sub] } }

/-! ### Events -/

/-- A bound on the number of reactions that the subscriptions of all agents can still lead to. -/
def weight (s : Session) : Nat :=
  (s.agents.flatMap Agent.subscriptions).foldr (fun sub n => sub.weight + n) 0

/-- What subscribers use to perform their actions: the session behind the action, and its fault. -/
abbrev React := Text → Action → Session → Option ActionFault × Session

def countReaction (a i : Nat) (s : Session) : Session :=
  { s with agents := s.agents.modify a fun g =>
      { g with subscriptions := g.subscriptions.modify i fun sub =>
          { sub with acted := sub.acted + 1 } } }

def noteFault (message : Text) (s : Session) : Session :=
  s.note .warning ("Event callback raised: ".toList ++ message)

def hear (react : React) (a i : Nat) (sub : Subscription) (e : Event) (s : Session) : Session :=
  let s := { s with heard := s.heard ++ [⟨sub.label, e⟩] }
  if sub.wants e && sub.acted < sub.times then
    let s := s.countReaction a i
    match sub.reaction with
    | .quiet => s
    | .fail message => s.noteFault message
    | .perform name action =>
      match react name action s with
      | (none, s) => s
      | (some fault, s) => s.noteFault fault.message
  else s

/-- The subscribers of agent `a` from number `i` on hear the event, those who subscribe meanwhile
included; `n` bounds their number. -/
def tell (react : React) (a : Nat) (e : Event) (n i : Nat) (s : Session) : Session :=
  match n with
  | 0 => s
  | n + 1 =>
    match (s.agents[a]?.getD default).subscriptions[i]? with
    | none => s
    | some sub => tell react a e n (i + 1) (s.hear react a i sub e)

/-- The event is told to all subscribers of agent `a`, in order.  Each reaction makes at most one
new subscription, so that the weight of the session bounds the number of those to come. -/
def deliver (react : React) (a : Nat) (e : Event) (s : Session) : Session :=
  let s := s.note .debug
    ("UIAgent event: ".toList ++ e.label.toList ++ " — ".toList ++ e.message)
  s.tell react a e ((s.agents[a]?.getD default).subscriptions.length + s.weight) 0

/-! ### Compile requests -/

def transition (react : React) (a : Nat) (target : Phase) (s : Session) :
    Except ActionFault Session :=
  let phase := (s.workflow (s.workflowOf a)).phase
  if target ∈ phase.successors then
    let s := s.note .info
      ("Workflow: ".toList ++ phase.label.toList ++ " → ".toList ++ target.label.toList)
    let s := s.update (s.workflowOf a) fun w => { w with phase := target }
    .ok (s.deliver react a (.phaseChanged phase target))
  else .error (.refused phase target)

def conclude (react : React) (a : Nat) (target : Phase) (e : Event) (success : Bool) (s : Session) :
    Except ActionFault Bool × Session :=
  match s.transition react a target with
  | .error fault => (.error fault, s)
  | .ok s => (.ok success, s.deliver react a e)

def fail (react : React) (a : Nat) (entry : Entry) (shown : Failure) (s : Session) :
    Except ActionFault Bool × Session :=
  let s := s.update (s.workflowOf a) fun w => { w with history := record w.history entry }
  let s := s.note .error
    ("UIAgent failure: ".toList ++ shown.kind ++ ": ".toList ++ shown.message)
  let s := s.update (s.workflowOf a) fun w => { w with failure := some shown }
  s.conclude react a .error (.failed shown.kind shown.message) false

def failInternally (react : React) (a : Nat) (source : Text) (ticks : Nat) (message : Text)
    (s : Session) : Except ActionFault Bool × Session :=
  let kind := "InternalError".toList
  (s.note .error "Unexpected compiler error".toList).fail react a
    ⟨preview source, some ⟨kind, message⟩, ticks⟩
    ⟨kind, "Unexpected error during compilation: ".toList ++ message⟩

def compileWith (react : React) (a : Nat) (source : Text) (ticks : Nat) (broken : Option Text)
    (s : Session) : Except ActionFault Bool × Session :=
  match s.transition react a .compiling with
  | .error fault => (.error fault, s)
  | .ok s =>
    let s := s.update (s.workflowOf a) fun w => { w with source := source, result := none }
    let options := (s.workflow (s.workflowOf a)).options
    match broken with
    | some message => s.failInternally react a source ticks message
    | none =>
      let s := { s with log := s.log ++ compileLog options source }
      match compile options source with
      | .ok c =>
        let s := s.update (s.workflowOf a) fun w =>
          { w with result := some c, failure := none,
                   history := record w.history ⟨preview source, none, ticks⟩ }
        s.conclude react a .compiled (.compiled c.tokens.length c.tree.functionNames) true
      | .error e =>
        match e.verdict with
        | .rejection r => s.failInternally react a source ticks r.message
        | .malformed f => s.failInternally react a source ticks f.message
        | .diagnostic d =>
          let failure := ⟨d.kind.toList, d.message⟩
          s.fail react a ⟨preview source, some failure, ticks⟩ failure

/-! ### Actions -/

def agent? (name : Text) (s : Session) : Option Nat := s.names.lookup name

def assign (name : Text) (p : Nat × Session) : Session :=
  { p.2 with names := (name, p.1) :: p.2.names.filter fun q => q.1 ≠ name }

def through (name : Text) (s : Session) (f : Nat → Except ActionFault Json × Session) :
    Except ActionFault Json × Session :=
  match s.agent? name with
  | none => (.error (.unknownAgent name), s)
  | some a => f a

/-- An operation that leaves the session as it was if it fails, and has no answer. -/
def settle (s : Session) : Except ActionFault Session → Except ActionFault Json × Session
  | .error fault => (.error fault, s)
  | .ok s => (.ok .null, s)

def act (react : React) (name : Text) (action : Action) (s : Session) :
    Except ActionFault Json × Session :=
  let shown (a : Nat) : Workflow := s.workflow (s.workflowOf a)
  match action with
  | .attach => (.ok .null, assign name s.attach)
  | .reset => (.ok .null, assign name s.reset)
  | .dropSession => (.ok .null, { s with current := none })
  | .configure boundary type => s.through name fun a => s.settle (s.configure a boundary type)
  | .transition target => s.through name fun a => s.settle (s.transition react a target)
  | .compile source ticks broken =>
    s.through name fun a =>
      let (success, s) := s.compileWith react a source ticks broken
      (success.map .bool, s)
  | .subscribe label trigger times reaction =>
    s.through name fun a => (.ok .null, s.subscribe a { label, trigger, times, reaction })
  | .output => s.through name fun a => (.ok (.ofOption (shown a).output), s)
  | .tokenRows => s.through name fun a => (.ok (shown a).tokenRows, s)
  | .tree => s.through name fun a => (.ok (shown a).treeJson, s)
  | .historyText => s.through name fun a => (.ok (.str (historyText (shown a).history)), s)

/-- An action whose reactions are nested at most `n` deep. -/
def perform (n : Nat) (name : Text) (action : Action) (s : Session) :
    Except ActionFault Json × Session :=
  match n with
  | 0 => (.ok .null, s)
  | n + 1 =>
    s.act (fun name action s =>
      match perform n name action s with
      | (.error fault, s) => (some fault, s)
      | (.ok _, s) => (none, s)) name action

/-- An action through the agent called `name`.  Every reaction uses up some weight of the session,
so that its weight also bounds how deep reactions can be nested. -/
def run (name : Text) (action : Action) (s : Session) : Except ActionFault Json × Session :=
  s.perform (s.weight + action.weight + 1) name action

def start : Session := { assign "main".toList ({} : Session).attach with log := [] }

def clear (s : Session) : Session := { s with heard := [], log := [] }

end Session

end TypeStrip
