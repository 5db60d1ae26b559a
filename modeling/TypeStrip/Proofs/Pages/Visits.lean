import TypeStrip.Page
import TypeStrip.Proofs.Sessions.Histories

/-!
# Visits to the page

What the users of a page have done decides what its session remembers: the options that the toggles
show, and the compile requests since the last reset.

* `Visit`                  these two, and `Visit.next` with one more run;
* `Visit.workflow`         the workflow that they make;
* `Visit.workflow_order`   one more request on top of it;
* `Session.Shows`          a session at rest with a given workflow;
* `Session.Attends`        an agent of that workflow;
* `Session.Attends.change` what a change of the workflow makes of this;
* `Page.takeOptions_eq`, `Page.request_eq`, `Session.Attends.reset`   what the parts of a run do.
-/

namespace TypeStrip

/-! ### What users have done -/

/-- What the users of a page have done: the options that they have chosen, and their compile
requests since the last reset, the latest at the end. -/
structure Visit where
  options : Options := {}
  orders : List Order := []
  deriving DecidableEq, Repr

/-- The workflow behind a request for `source` under the options `o`. -/
def Workflow.showing (o : Options) (source : Text) (history : List Entry) : Workflow :=
  match compile o source with
  | .ok c => { phase := .compiled, source, options := o, result := some c, history }
  | .error e => { phase := .error, source, options := o, failure := some e.failure, history }

namespace Workflow

variable (o : Options) (source : Text) (history : List Entry)

theorem source_showing : (showing o source history).source = source := by
  unfold showing
  cases compile o source <;> rfl

theorem history_showing : (showing o source history).history = history := by
  unfold showing
  cases compile o source <;> rfl

theorem showing_withOptions :
    { showing o source history with options := o } = showing o source history := by
  unfold showing
  cases compile o source <;> rfl

/-- An answer shows its request, and keeps nothing but options and history. -/
theorem answer_eq (ticks : Nat) (w : Workflow) : w.answer source ticks =
    showing w.options source (record w.history (Order.entry ⟨(w.options, source), ticks⟩)) := by
  unfold answer showing Order.entry Order.outcome
  cases compile w.options source <;> rfl

end Workflow

namespace Visit

/-- The text in the editor. -/
def source (v : Visit) : Text :=
  match v.orders.getLast? with
  | none => sampleSource
  | some q => q.request.2

/-- The result of the last request since the last reset, if there was one and it succeeded. -/
def result (v : Visit) : Option Compilation := v.orders.getLast?.bind fun q => q.outcome.toOption

/-- The entries of the latest requests. -/
def history (v : Visit) : List Entry := latest (v.orders.map Order.entry)

def workflow (v : Visit) : Workflow :=
  match v.orders.getLast? with
  | none => { options := v.options }
  | some q => { Workflow.showing q.request.1 q.request.2 v.history with options := v.options }

/-- One more request, under the present options. -/
def order (v : Visit) (source : Text) (ticks : Nat) : Visit :=
  { v with orders := v.orders ++ [⟨(v.options, source), ticks⟩] }

/-- One more run of the page. -/
def next (v : Visit) (i : PageInput) : Visit :=
  let o : Options := ⟨i.keywordBoundary.getD v.options.keywordBoundary,
    i.requireReturnType.getD v.options.requireReturnType⟩
  if i.resetPressed then { options := o }
  else if i.compilePressed then { v with options := o }.order (i.source.getD v.source) i.ticks
  else if i.samplePressed then { v with options := o }.order sampleSource i.ticks
  else { v with options := o }

/-- Some runs of a page that nobody has used before. -/
def of (inputs : List PageInput) : Visit := inputs.foldl next {}

theorem options_next (v : Visit) (i : PageInput) :
    (v.next i).options = ⟨i.keywordBoundary.getD v.options.keywordBoundary,
      i.requireReturnType.getD v.options.requireReturnType⟩ := by
  unfold next
  dsimp only
  split
  · rfl
  · split
    · rfl
    · split <;> rfl

/-! ### The workflow of a visit -/

variable {v : Visit} {q : Order}

theorem workflow_of_none (h : v.orders.getLast? = none) :
    v.workflow = { options := v.options } := by
  rw [workflow, h]

theorem workflow_of_some (h : v.orders.getLast? = some q) : v.workflow =
    { Workflow.showing q.request.1 q.request.2 v.history with options := v.options } := by
  rw [workflow, h]

theorem options_workflow (v : Visit) : v.workflow.options = v.options := by
  unfold workflow
  split <;> rfl

theorem source_workflow (v : Visit) : v.workflow.source = v.source := by
  unfold source
  cases h : v.orders.getLast? with
  | none => rw [workflow_of_none h]
  | some q =>
    rw [workflow_of_some h]
    exact Workflow.source_showing _ _ _

theorem history_workflow (v : Visit) : v.workflow.history = v.history := by
  cases h : v.orders.getLast? with
  | none =>
    rw [workflow_of_none h, history, List.getLast?_eq_none_iff.mp h]
    rfl
  | some q =>
    rw [workflow_of_some h]
    exact Workflow.history_showing _ _ _

/-- A result is there exactly if the last request succeeded. -/
theorem result_workflow (v : Visit) :
    v.workflow.result = v.result ∧ v.workflow.hasResult = v.result.isSome := by
  unfold result
  cases h : v.orders.getLast? with
  | none =>
    rw [workflow_of_none h]
    exact ⟨rfl, rfl⟩
  | some q =>
    rw [workflow_of_some h, Workflow.showing, Option.bind_some, Order.outcome]
    cases compile q.request.1 q.request.2 <;> exact ⟨rfl, rfl⟩

theorem workflow_withOptions (v : Visit) (o : Options) :
    { v with options := o }.workflow = { v.workflow with options := o } := by
  cases h : v.orders.getLast? with
  | none => rw [workflow_of_none h, workflow_of_none (v := { v with options := o }) h]
  | some q => rw [workflow_of_some h, workflow_of_some (v := { v with options := o }) h]; rfl

theorem history_order (v : Visit) (source : Text) (ticks : Nat) : (v.order source ticks).history =
    record v.history (Order.entry ⟨(v.options, source), ticks⟩) := by
  rw [history, history, record_latest]
  exact congrArg latest List.map_append

theorem workflow_order (v : Visit) (source : Text) (ticks : Nat) :
    (v.order source ticks).workflow = v.workflow.answer source ticks := by
  have hlast : (v.order source ticks).orders.getLast? = some ⟨(v.options, source), ticks⟩ :=
    List.getLast?_concat
  rw [workflow_of_some hlast, history_order, Workflow.answer_eq, options_workflow,
    history_workflow]
  exact Workflow.showing_withOptions _ _ _

end Visit

/-! ### Sessions of a page -/

namespace Session

variable {s s' : Session} {a : Nat} {w : Workflow} {f : Workflow → Workflow}

/-- A session at rest whose workflow is `w`, or that would begin with `w`. -/
structure Shows (w : Workflow) (s : Session) : Prop where
  rest : ∃ last, s.AtRest last
  workflow : s.shown.getD {} = w

/-- Agent `a` is bound to the workflow of the session, which is `w`. -/
structure Attends (a : Nat) (w : Workflow) (s : Session) : Prop where
  rest : ∃ last, s.AtRest last
  agent : a < s.agents.length
  current : s.current = some (s.workflowOf a)
  workflow : s.workflow (s.workflowOf a) = w

theorem Attends.shown_eq (h : s.Attends a w) : s.shown = some w := by
  rw [Session.shown, h.current, Option.map_some, h.workflow]

theorem Attends.options_eq (h : s.Attends a w) : s.options = w.options := by
  rw [Session.options, h.current]
  exact congrArg Workflow.options h.workflow

theorem Attends.shows (h : s.Attends a w) : s.Shows w := by
  refine ⟨h.rest, ?_⟩
  rw [h.shown_eq]
  rfl

theorem Attends.atRest (h : s.Attends a w) : ∃ last, w.AtRest last := by
  obtain ⟨last, hrest⟩ := h.rest
  have hi : s.workflowOf a < s.workflows.length := hrest.workflowOf_lt h.agent
  refine ⟨last (s.workflowOf a), ?_⟩
  rw [← h.workflow]
  exact hrest.workflows _ _ (getElem?_workflows hi)

theorem Shows.options_eq (h : s.Shows w) : s.options = w.options := by
  rw [← h.workflow, Session.options, Session.shown]
  cases s.current <;> rfl

theorem shows_empty : ({} : Session).Shows {} := ⟨⟨_, atRest_empty⟩, rfl⟩

/-- A new agent of a session that has just been given the workflow `w`. -/
theorem workflow_renewed (message : Text) (w : Workflow) (s : Session) :
    let p := ((s.note .info message).remember w).addAgent s.workflows.length
    p.2.current = some (p.2.workflowOf p.1) ∧ p.2.workflow (p.2.workflowOf p.1) = w := by
  intro p
  have hbound : p.2.workflowOf p.1 = s.workflows.length := workflowOf_new _ _
  have hget : (s.workflows ++ [w])[s.workflows.length]? = some w := List.getElem?_concat_length
  rw [hbound]
  exact ⟨rfl, congrArg (fun w : Option Workflow => w.getD {}) hget⟩

theorem Shows.attach (h : s.Shows w) : s.attach.2.Attends s.attach.1 w := by
  obtain ⟨last, hrest⟩ := h.rest
  have hw := h.workflow
  have hagent := hrest.attach
  suffices hnew : s.attach.2.current = some (s.attach.2.workflowOf s.attach.1) ∧
      s.attach.2.workflow (s.attach.2.workflowOf s.attach.1) = w from
    ⟨⟨last, hagent.1⟩, hagent.2, hnew.1, hnew.2⟩
  unfold Session.attach
  cases hcurrent : s.current with
  | some i =>
    have hbound : (s.addAgent i).2.workflowOf (s.addAgent i).1 = i := workflowOf_new i s
    rw [Session.shown, hcurrent] at hw
    dsimp only
    rw [hbound]
    exact ⟨hcurrent, hw⟩
  | none =>
    rw [Session.shown, hcurrent] at hw
    rw [← hw]
    exact workflow_renewed _ _ s

theorem Attends.change (h : s.Attends a w) {last : Option Request} (hf : (f w).AtRest last)
    (hagrees : Agrees (s.update (s.workflowOf a) f) s') : s'.Attends a (f w) := by
  obtain ⟨lasts, hrest⟩ := h.rest
  have hi : s.workflowOf a < s.workflows.length := hrest.workflowOf_lt h.agent
  have hbound : s'.workflowOf a = s.workflowOf a := hagrees.workflowOf_eq a
  refine ⟨⟨fun i => if i = s.workflowOf a then last else lasts i, ?_⟩, ?_, ?_, ?_⟩
  · refine hagrees.atRest (hrest.update hi ?_ fun j hj => if_neg hj)
    rw [h.workflow, if_pos rfl]
    exact hf
  · rw [hagrees.length_agents]
    exact h.agent
  · rw [hagrees.current, hbound]
    exact h.current
  · rw [hbound, hagrees.workflow_eq, workflow_update_self f hi, h.workflow]

theorem Attends.reset (h : s.Attends a w) :
    s.reset.2.Attends s.reset.1 { options := w.options } := by
  obtain ⟨last, hrest⟩ := h.rest
  have hagent := hrest.reset
  have hnew := workflow_renewed "UIAgent: hard reset triggered.".toList { options := s.options } s
  rw [← h.options_eq]
  exact ⟨⟨last, hagent.1⟩, hagent.2, hnew.1, hnew.2⟩

end Session

/-! ### The parts of a run -/

namespace Page

variable {s : Session} {a : Nat} {w : Workflow}

/-- The toggles give the session the options that they show. -/
theorem takeOptions_eq (h : s.Attends a w) (i : PageInput) :
    ∃ s', takeOptions i a s = .ok s' ∧
      s'.Attends a { w with options := chosen i w.options } := by
  unfold takeOptions
  rw [h.workflow]
  dsimp only
  split
  · next hsame =>
    refine ⟨s, rfl, ?_⟩
    rw [hsame]
    exact h
  · obtain ⟨last, hw⟩ := h.atRest
    exact ⟨_, rfl, h.change (f := fun x => { x with options := chosen i w.options })
      (hw.withOptions _) (Session.agrees_note _ _ _)⟩

/-- A button that makes a request. -/
theorem request_eq (h : s.Attends a w) (source : Text) (ticks : Nat) (place : String)
    (drawn : List Element) :
    ∃ s', request a source ticks place drawn s = ⟨s', drawn ++ inside place [rerun], .rerun⟩ ∧
      s'.Attends a (w.answer source ticks) := by
  obtain ⟨last, hw⟩ := h.atRest
  obtain ⟨lasts, hrest⟩ := h.rest
  have hi : s.workflowOf a < s.workflows.length := hrest.workflowOf_lt h.agent
  have hphase : (s.workflow (s.workflowOf a)).phase ≠ .compiling := by
    rw [h.workflow]
    exact hw.phase_ne
  obtain ⟨s', hs', hagrees⟩ : ∃ s', s.compileWith noReaction a source ticks none = _ ∧
    Session.Agrees (s.update _ (Workflow.answer source ticks)) s' :=
      Session.compileWith_eq hrest.calm rfl hi hphase source ticks
  refine ⟨s', ?_, h.change (Workflow.atRest_answer source ticks w) hagrees⟩
  rw [request, hs']

end Page

end TypeStrip
