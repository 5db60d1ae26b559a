import TypeStrip.Proofs.Sessions.Settled

/-!
# Agents side by side

An agent acts on the workflow it is bound to and on no other.  Agents that were made since the last
reset are bound to the workflow of the session and see what each of them does; older agents can no
longer reach it.  Resets keep the options of the session.

* `Action.Offered`             what agents offer to users;
* `Action.change`              what an action does to the workflow of its agent;
* `Session.outcome`            an action as one change of the session;
* `Session.AtRest.agrees_act`  this is what happens, up to events and records;
* `Session.Shares`             which agents are bound to the workflow of the session, and its
                               options;
* `Session.Shares.outcome`     what an action makes of this;
* `Session.Shares.after`       and any number of actions;
* `session_isolated`           what agents can do to a session and to each other.
-/

namespace TypeStrip

/-! ### Actions as changes of one workflow -/

/-- What agents offer to users; it is not among this that a session forgets its workflow. -/
def Action.Offered : Action → Prop
  | .dropSession => False
  | action => action.Plain

theorem Action.Offered.plain {action : Action} (h : action.Offered) : action.Plain := by
  cases action with
  | dropSession => exact h.elim
  | _ => exact h

/-- The options that a configuration asks for, if they are accepted. -/
def Options.given (boundary type : Json) : Option Options :=
  match Options.check (.obj [("keyword_boundary", boundary), ("require_return_type", type)]) with
  | .valid o => some o
  | .invalid _ => none

/-- What an action does to the workflow of its agent, if anything. -/
def Action.change : Action → Option (Workflow → Workflow)
  | .configure boundary type =>
    (Options.given boundary type).map fun o w => { w with options := o }
  | .compile source ticks _ => some (Workflow.answer source ticks)
  | _ => none

theorem Workflow.options_answer (source : Text) (ticks : Nat) (w : Workflow) :
    (w.answer source ticks).options = w.options := by
  unfold answer receive
  cases compile w.options source <;> rfl

namespace Session

variable {last : Nat → Option Request} {s s' : Session} {react : React} {name : Text}
  {action : Action} {a i : Nat}

/-- The workflow that an action through the agent called `name` changes. -/
def target (s : Session) (name : Text) (action : Action) : Option Nat :=
  match action.change with
  | some _ => (s.agent? name).map s.workflowOf
  | none => none

/-- The session behind an action, up to events and records. -/
def outcome (s : Session) (name : Text) : Action → Session
  | .attach => assign name s.attach
  | .reset => assign name s.reset
  | action =>
    match action.change, s.agent? name with
    | some f, some a => s.update (s.workflowOf a) f
    | _, _ => s

theorem outcome_of_change {f : Workflow → Workflow} (hf : action.change = some f)
    (ha : s.agent? name = some a) : s.outcome name action = s.update (s.workflowOf a) f := by
  cases action with
  | configure boundary type => simp only [outcome, hf, ha]
  | compile source ticks broken => simp only [outcome, hf, ha]
  | _ => cases hf

theorem outcome_of_none (hattach : action ≠ .attach) (hreset : action ≠ .reset)
    (h : action.change = none ∨ s.agent? name = none) : s.outcome name action = s := by
  have hsame : (match action.change, s.agent? name with
      | some f, some a => s.update (s.workflowOf a) f
      | _, _ => s) = s := by
    rcases h with h | h
    · rw [h]
    · rw [h]
      cases action.change <;> rfl
  cases action with
  | attach => exact absurd rfl hattach
  | reset => exact absurd rfl hreset
  | _ => exact hsame

/-- Every action has one of four outcomes. -/
theorem outcome_cases (s : Session) (name : Text) (action : Action) :
    (action = .attach ∧ s.outcome name action = assign name s.attach) ∨
    (action = .reset ∧ s.outcome name action = assign name s.reset) ∨
    (∃ a f, action.change = some f ∧ s.agent? name = some a ∧
      s.outcome name action = s.update (s.workflowOf a) f) ∨
    (action ≠ .reset ∧ s.target name action = none ∧ s.outcome name action = s) := by
  by_cases hattach : action = .attach
  · subst hattach
    exact .inl ⟨rfl, rfl⟩
  by_cases hreset : action = .reset
  · subst hreset
    exact .inr (.inl ⟨rfl, rfl⟩)
  right
  right
  cases hf : action.change with
  | none =>
    exact .inr ⟨hreset, by rw [target, hf], outcome_of_none hattach hreset (.inl hf)⟩
  | some f =>
    cases ha : s.agent? name with
    | none =>
      refine .inr ⟨hreset, ?_, outcome_of_none hattach hreset (.inr ha)⟩
      rw [target, hf, ha]
      rfl
    | some a => exact .inl ⟨a, f, rfl, rfl, outcome_of_change hf ha⟩

/-- An accepted configuration sets the options of its workflow; any other changes nothing. -/
theorem agrees_configure (boundary type : Json) (hagent : s.agent? name = some a) :
    Agrees (s.outcome name (.configure boundary type))
      (s.settle (s.configure a boundary type)).2 := by
  unfold configure
  dsimp only
  cases hcheck : Options.check
      (.obj [("keyword_boundary", boundary), ("require_return_type", type)]) with
  | invalid issues =>
    have hgiven : Options.given boundary type = none := by rw [Options.given, hcheck]
    have hchange : (Action.configure boundary type).change = none := by
      rw [Action.change, hgiven]
      rfl
    have hsame : s.outcome name (.configure boundary type) = s :=
      outcome_of_none nofun nofun (.inl hchange)
    rw [hsame]
    exact Agrees.refl s
  | valid o =>
    have hgiven : Options.given boundary type = some o := by rw [Options.given, hcheck]
    have hchange : (Action.configure boundary type).change =
        some fun w => { w with options := o } := by
      rw [Action.change, hgiven]
      rfl
    rw [outcome_of_change hchange hagent]
    exact agrees_note _ _ _

/-- An action through an agent is what the agent does. -/
theorem agrees_through {f : Nat → Except ActionFault Json × Session} (hattach : action ≠ .attach)
    (hreset : action ≠ .reset)
    (hf : ∀ a, s.agent? name = some a → Agrees (s.outcome name action) (f a).2) :
    Agrees (s.outcome name action) (s.through name f).2 := by
  unfold through
  cases hagent : s.agent? name with
  | none =>
    rw [outcome_of_none hattach hreset (.inr hagent)]
    exact Agrees.refl s
  | some a => exact hf a hagent

theorem AtRest.agrees_act (h : s.AtRest last) (hoffered : action.Offered) :
    Agrees (s.outcome name action) (s.act react name action).2 := by
  cases action with
  | attach => exact Agrees.refl _
  | reset => exact Agrees.refl _
  | dropSession => exact hoffered.elim
  | configure boundary type =>
    exact agrees_through nofun nofun fun a ha => agrees_configure boundary type ha
  | compile source ticks broken =>
    obtain rfl : broken = none := hoffered
    refine agrees_through nofun nofun fun a ha => ?_
    have hi : s.workflowOf a < s.workflows.length := h.workflowOf_lt (h.agent?_lt ha)
    have hrest := h.workflows _ _ (getElem?_workflows hi)
    obtain ⟨s', hs', hagrees⟩ : ∃ s', s.compileWith react a source ticks none = _ ∧
      Agrees (s.update _ (Workflow.answer source ticks)) s' :=
        compileWith_eq h.calm rfl hi hrest.phase_ne source ticks
    rw [outcome_of_change rfl ha, hs']
    exact hagrees
  | transition target => exact hoffered.elim
  | subscribe label trigger times reaction =>
    have hplain : reaction.Plain := hoffered
    exact agrees_through nofun nofun fun a _ => agrees_subscribe a hplain s
  | output | tokenRows | tree | historyText =>
    exact agrees_through nofun nofun fun _ _ => Agrees.refl s

theorem AtRest.run (h : s.AtRest last) (hoffered : action.Offered) (name : Text) :
    (s.run name action).2.AtRest fun i => (s.requestFor i name action).or (last i) :=
  h.act hoffered.plain name

theorem AtRest.agrees_run (h : s.AtRest last) (hoffered : action.Offered) :
    Agrees (s.outcome name action) (s.run name action).2 := h.agrees_act hoffered

/-! ### What stays -/

theorem getElem?_remember (w : Workflow) (hi : i < s.workflows.length) :
    (s.remember w).workflows[i]? = s.workflows[i]? := List.getElem?_append_left hi

theorem workflowOf_addAgent (i : Nat) (ha : a < s.agents.length) :
    (s.addAgent i).2.workflowOf a = s.workflowOf a := by
  have hget : (s.agents ++ [⟨i, []⟩])[a]? = s.agents[a]? := List.getElem?_append_left ha
  exact congrArg (fun g : Option Agent => (g.getD default).workflow) hget

theorem workflowOf_new (i : Nat) (s : Session) :
    (s.addAgent i).2.workflowOf s.agents.length = i := by
  have hget : (s.agents ++ [⟨i, []⟩])[s.agents.length]? = some ⟨i, []⟩ := by simp
  exact congrArg (fun g : Option Agent => (g.getD default).workflow) hget

/-- An action changes no workflow but its target. -/
theorem getElem?_outcome (hi : i < s.workflows.length) (ht : s.target name action ≠ some i) :
    (s.outcome name action).workflows[i]? = s.workflows[i]? := by
  rcases s.outcome_cases name action with ⟨-, e⟩ | ⟨-, e⟩ | ⟨a, f, hf, ha, e⟩ | ⟨-, -, e⟩
  · rw [e]
    show s.attach.2.workflows[i]? = _
    unfold attach
    split
    · rfl
    · exact getElem?_remember (s := s.note _ _) {} hi
  · rw [e]
    exact getElem?_remember (s := s.note _ _) _ hi
  · have hne : s.workflowOf a ≠ i := by
      intro he
      apply ht
      rw [target, hf, ha, Option.map_some, he]
    rw [e]
    exact List.getElem?_modify_ne f s.workflows hne
  · rw [e]

/-- An agent stays bound to its workflow. -/
theorem workflowOf_outcome (ha : a < s.agents.length) :
    (s.outcome name action).workflowOf a = s.workflowOf a := by
  rcases s.outcome_cases name action with ⟨-, e⟩ | ⟨-, e⟩ | ⟨b, f, -, -, e⟩ | ⟨-, -, e⟩
  · rw [e]
    show s.attach.2.workflowOf a = _
    unfold attach
    split
    · exact workflowOf_addAgent _ ha
    · exact workflowOf_addAgent (s := (s.note _ _).remember {}) _ ha
  · rw [e]
    exact workflowOf_addAgent (s := (s.note _ _).remember _) _ ha
  · rw [e]
    rfl
  · rw [e]

/-- Only a reset gives the session another workflow. -/
theorem current_outcome (hi : s.current = some i) (hreset : action ≠ .reset) :
    (s.outcome name action).current = some i := by
  rcases s.outcome_cases name action with ⟨-, e⟩ | ⟨e, -⟩ | ⟨a, f, -, -, e⟩ | ⟨-, -, e⟩
  · rw [e]
    show s.attach.2.current = _
    unfold attach
    rw [hi]
    exact hi
  · exact absurd e hreset
  · rw [e]
    exact hi
  · rw [e]
    exact hi

/-! ### Agents of one workflow -/

/-- The options of the session; without a workflow it has the usual ones. -/
def options (s : Session) : Options :=
  match s.current with
  | some i => (s.workflow i).options
  | none => {}

/-- The workflow of the session. -/
def shown (s : Session) : Option Workflow := s.current.map s.workflow

theorem Agrees.options_eq (h : Agrees s s') : s'.options = s.options := by
  unfold options
  rw [h.current]
  cases s.current with
  | none => rfl
  | some i => exact congrArg Workflow.options (h.workflow_eq i)

theorem Agrees.shown_eq (h : Agrees s s') : s'.shown = s.shown := by
  unfold shown
  rw [h.current]
  cases s.current with
  | none => rfl
  | some i => exact congrArg some (h.workflow_eq i)

/-- The agents from number `first` on, and no others, are bound to the workflow of the session, and
its options are `o`. -/
structure Shares (first : Nat) (o : Options) (s : Session) : Prop where
  started : s.current = none → s.agents = []
  first_le : first ≤ s.agents.length
  shared_iff : ∀ a, a < s.agents.length → (s.current = some (s.workflowOf a) ↔ first ≤ a)
  options : s.options = o

variable {first : Nat} {o : Options}

theorem Agrees.shares (h : Agrees s s') (hs : s.Shares first o) : s'.Shares first o where
  started := by
    intro hnone
    rw [h.current] at hnone
    have hlength := h.length_agents
    rw [hs.started hnone] at hlength
    exact List.eq_nil_of_length_eq_zero hlength
  first_le := by
    rw [h.length_agents]
    exact hs.first_le
  shared_iff := by
    intro a ha
    rw [h.length_agents] at ha
    rw [h.current, h.workflowOf_eq]
    exact hs.shared_iff a ha
  options := h.options_eq.trans hs.options

theorem Shares.addAgent (h : s.Shares first o) (hi : s.current = some i) :
    (s.addAgent i).2.Shares first o := by
  have hlength : (s.addAgent i).2.agents.length = s.agents.length + 1 := List.length_append
  refine ⟨?_, ?_, ?_, h.options⟩
  · intro hnone
    have hcurrent : s.current = none := hnone
    rw [hi] at hcurrent
    cases hcurrent
  · have hle := h.first_le
    omega
  · intro a ha
    show s.current = _ ↔ _
    by_cases hold : a < s.agents.length
    · rw [workflowOf_addAgent i hold]
      exact h.shared_iff a hold
    · have hnew : a = s.agents.length := by omega
      subst hnew
      rw [workflowOf_new, hi]
      exact ⟨fun _ => h.first_le, fun _ => rfl⟩

/-- No agent is bound to a workflow that has just been made. -/
theorem shares_remember (hs : s.Sound) (o : Options) :
    (s.remember { options := o }).Shares s.agents.length o where
  started := nofun
  first_le := Nat.le_refl _
  shared_iff := by
    intro a ha
    have hlt : s.workflowOf a < s.workflows.length := hs.workflowOf_lt ha
    have hold : ¬ s.agents.length ≤ a := Nat.not_le.mpr ha
    show some s.workflows.length = some (s.workflowOf a) ↔ _
    constructor
    · intro he
      have hsame := Option.some.inj he
      omega
    · intro hle
      exact absurd hle hold
  options := by
    have hget : (s.workflows ++ [({ options := o } : Workflow)])[s.workflows.length]? =
        some { options := o } := List.getElem?_concat_length
    exact congrArg (fun w : Option Workflow => (w.getD {}).options) hget

theorem Shares.attach (h : s.Shares first o) (hs : s.Sound) : s.attach.2.Shares first o := by
  unfold Session.attach
  split
  · next i hi => exact h.addAgent hi
  · next hnone =>
    have hfirst : first = s.agents.length := by
      have hle := h.first_le
      rw [h.started hnone] at hle ⊢
      exact Nat.le_zero.mp hle
    have hoptions : o = {} := by
      rw [← h.options, Session.options, hnone]
    subst hfirst hoptions
    have hnote := agrees_note .info "Initialising new UIAgent workflow state.".toList s
    exact (shares_remember (hnote.sound hs) {}).addAgent rfl

theorem Shares.reset (h : s.Shares first o) (hs : s.Sound) :
    s.reset.2.Shares s.agents.length o := by
  have hnote := agrees_note .info "UIAgent: hard reset triggered.".toList s
  rw [← h.options]
  exact (shares_remember (hnote.sound hs) _).addAgent rfl

theorem Shares.assign {p : Nat × Session} (h : p.2.Shares first o) (name : Text) :
    (Session.assign name p).Shares first o := ⟨h.started, h.first_le, h.shared_iff, h.options⟩

/-- A change of one workflow changes the options of the session only if it is that workflow. -/
theorem options_update (hs : s.Sound) (f : Workflow → Workflow) (i : Nat) :
    (s.update i f).options =
      if s.current = some i then (f (s.workflow i)).options else s.options := by
  unfold options
  show (match s.current with
    | some j => ((s.update i f).workflow j).options
    | none => {}) = _
  cases hj : s.current with
  | none => rfl
  | some j =>
    by_cases hij : j = i
    · subst hij
      rw [if_pos rfl]
      exact congrArg Workflow.options (workflow_update_self f (hs.current j hj))
    · rw [if_neg (fun he => hij (Option.some.inj he))]
      have hget : (s.update i f).workflows[j]? = s.workflows[j]? :=
        List.getElem?_modify_ne f s.workflows (Ne.symm hij)
      exact congrArg (fun w : Option Workflow => (w.getD {}).options) hget

/-- The options that an action gives the session: only a configuration does, through an agent that
is bound to the workflow of the session at that time. -/
def optionsGiven (s : Session) (name : Text) : Action → Option Options
  | .configure boundary type =>
    match s.agent? name with
    | some a => if s.current = some (s.workflowOf a) then Options.given boundary type else none
    | none => none
  | _ => none

/-- The first agent since the last reset, if it was `first` before the action. -/
def firstAfter (s : Session) (first : Nat) : Action → Nat
  | .reset => s.agents.length
  | _ => first

theorem options_outcome (h : s.Shares first o) (hs : s.Sound) {f : Workflow → Workflow}
    (hf : action.change = some f) (ha : s.agent? name = some a) :
    (s.update (s.workflowOf a) f).options = (s.optionsGiven name action).getD o := by
  rw [options_update hs, h.options]
  cases action with
  | configure boundary type =>
    obtain ⟨o', hgiven, rfl⟩ := Option.map_eq_some_iff.mp hf
    rw [optionsGiven, ha, hgiven]
    dsimp only
    split <;> rfl
  | compile source ticks broken =>
    cases hf
    rw [Workflow.options_answer]
    split
    · next hcurrent =>
      rw [← h.options, options, hcurrent]
      rfl
    · rfl
  | _ => cases hf

/-- Without a change there are no new options. -/
theorem optionsGiven_of_target (h : s.target name action = none) :
    s.optionsGiven name action = none := by
  cases action with
  | configure boundary type =>
    rw [optionsGiven]
    cases ha : s.agent? name with
    | none => rfl
    | some a =>
      cases hgiven : Options.given boundary type with
      | none =>
        dsimp only
        split <;> rfl
      | some o' =>
        rw [target, Action.change, hgiven, ha] at h
        cases h
  | _ => rfl

theorem Shares.outcome (h : s.Shares first o) (hs : s.Sound) (name : Text) (action : Action) :
    (s.outcome name action).Shares (s.firstAfter first action)
      ((s.optionsGiven name action).getD o) := by
  rcases s.outcome_cases name action with ⟨rfl, e⟩ | ⟨rfl, e⟩ | ⟨a, f, hf, ha, e⟩ | ⟨hr, ht, e⟩
  · exact (h.attach hs).assign name
  · exact (h.reset hs).assign name
  · have hfirst : s.firstAfter first action = first := by
      cases action with
      | reset => cases hf
      | _ => rfl
    rw [e, hfirst]
    exact ⟨h.started, h.first_le, h.shared_iff, options_outcome h hs hf ha⟩
  · have hfirst : s.firstAfter first action = first := by
      cases action with
      | reset => exact absurd rfl hr
      | _ => rfl
    rw [e, hfirst, optionsGiven_of_target ht]
    exact h

/-! ### Runs -/

/-- The number of the first agent that was made since the last reset, during some actions or
before; agents are numbered in the order in which they are made. -/
def sinceReset (first : Nat) (s : Session) : List (Text × Action) → Nat
  | [] => first
  | (name, action) :: rest => sinceReset (s.firstAfter first action) (s.run name action).2 rest

/-- The options of the last configuration that reached the session, during some actions or
before. -/
def configured (o : Options) (s : Session) : List (Text × Action) → Options
  | [] => o
  | (name, action) :: rest =>
    configured ((s.optionsGiven name action).getD o) (s.run name action).2 rest

theorem Shares.run (h : s.Shares first o) (hs : s.AtRest last) (hoffered : action.Offered)
    (name : Text) : (s.run name action).2.Shares (s.firstAfter first action)
      ((s.optionsGiven name action).getD o) :=
  (hs.agrees_run hoffered).shares (h.outcome hs.toSound name action)

theorem Shares.after {actions : List (Text × Action)} (h : s.Shares first o) (hs : s.AtRest last)
    (hoffered : ∀ p ∈ actions, p.2.Offered) :
    (s.after actions).Shares (s.sinceReset first actions) (s.configured o actions) := by
  induction actions generalizing s last first o with
  | nil => exact h
  | cons p actions ih =>
    obtain ⟨name, action⟩ := p
    obtain ⟨hp, hrest⟩ := List.forall_mem_cons.mp hoffered
    exact ih (h.run hs hp name) (hs.run hp name) hrest

theorem shares_empty : ({} : Session).Shares 0 {} :=
  ⟨fun _ => rfl, Nat.le_refl _, fun _ ha => absurd ha (Nat.not_lt_zero _), rfl⟩

theorem sinceReset_append (first : Nat) (s : Session) (before rest : List (Text × Action)) :
    s.sinceReset first (before ++ rest) =
      (s.after before).sinceReset (s.sinceReset first before) rest := by
  induction before generalizing s first with
  | nil => rfl
  | cons p before ih => exact ih _ _

/-- What is stale stays stale. -/
theorem Shares.le_sinceReset {actions : List (Text × Action)} (h : s.Shares first o)
    (hs : s.AtRest last) (hoffered : ∀ p ∈ actions, p.2.Offered) :
    first ≤ s.sinceReset first actions := by
  induction actions generalizing s last first o with
  | nil => exact Nat.le_refl _
  | cons p actions ih =>
    obtain ⟨name, action⟩ := p
    obtain ⟨hp, hrest⟩ := List.forall_mem_cons.mp hoffered
    have hstep : first ≤ s.firstAfter first action := by
      cases action with
      | reset => exact h.first_le
      | _ => exact Nat.le_refl _
    exact hstep.trans (ih (h.run hs hp name) (hs.run hp name) hrest)

/-- Agents that a reset leaves behind are never again among those since the last reset. -/
theorem length_agents_le_sinceReset {before since : List (Text × Action)} {name : Text}
    (hoffered : ∀ p ∈ before ++ (name, .reset) :: since, p.2.Offered) :
    (Session.after {} before).agents.length ≤
      Session.sinceReset 0 {} (before ++ (name, .reset) :: since) := by
  obtain ⟨hbefore, hrest⟩ := List.forall_mem_append.mp hoffered
  obtain ⟨hreset, hsince⟩ := List.forall_mem_cons.mp hrest
  have hplain : ∀ p ∈ before, p.2.Plain := fun p hp => (hbefore p hp).plain
  have hrest := atRest_empty.after hplain
  have hshares := shares_empty.after atRest_empty hbefore
  rw [sinceReset_append]
  exact (hshares.run hrest hreset name).le_sinceReset (hrest.run hreset name) hsince

/-! ### Isolation -/

/-- What agents can do to a session and to each other, where the agents from number `first` on are
those that were made since the last reset, and `o` are the options of the last configuration that
reached the session. -/
structure Isolated (first : Nat) (o : Options) (s : Session) : Prop where
  /-- an action changes no workflow but that of the agent it goes through; a reset changes none -/
  frame : ∀ name action, action.Offered → ∀ i, i < s.workflows.length →
    s.target name action ≠ some i → (s.run name action).2.workflows[i]? = s.workflows[i]?
  /-- every agent stays bound to its workflow -/
  bindings : ∀ name action, action.Offered → ∀ a, a < s.agents.length →
    (s.run name action).2.workflowOf a = s.workflowOf a
  /-- the agents since the last reset are those that are bound to the workflow of the session -/
  shared_iff : ∀ a, a < s.agents.length → (s.current = some (s.workflowOf a) ↔ first ≤ a)
  /-- each of them sees what the others do -/
  seen : ∀ name action f a b, action.Offered → action.change = some f →
    s.agent? name = some a → first ≤ a → first ≤ b → b < s.agents.length →
    (s.run name action).2.workflow ((s.run name action).2.workflowOf b) =
      f (s.workflow (s.workflowOf b))
  /-- older agents do not reach the workflow of the session -/
  stale : ∀ name action a, action.Offered → action ≠ .reset → s.agent? name = some a → a < first →
    (s.run name action).2.current = s.current ∧ (s.run name action).2.shown = s.shown
  /-- the session has the options of the last configuration that reached it -/
  options : s.options = o

theorem Shares.seen (h : s.Shares first o) (hs : s.AtRest last) {f : Workflow → Workflow} {b : Nat}
    (hoffered : action.Offered) (hf : action.change = some f) (ha : s.agent? name = some a)
    (hfirst : first ≤ a) (hfirst' : first ≤ b) (hb : b < s.agents.length) :
    (s.run name action).2.workflow ((s.run name action).2.workflowOf b) =
      f (s.workflow (s.workflowOf b)) := by
  have hagrees : Agrees (s.outcome name action) (s.run name action).2 := hs.agrees_run hoffered
  have ha' := (h.shared_iff a (hs.agent?_lt ha)).mpr hfirst
  have hb' := (h.shared_iff b hb).mpr hfirst'
  have hsame : s.workflowOf b = s.workflowOf a := Option.some.inj (hb'.symm.trans ha')
  rw [hagrees.workflowOf_eq, hagrees.workflow_eq, outcome_of_change hf ha]
  show (s.update (s.workflowOf a) f).workflow (s.workflowOf b) = _
  rw [hsame, workflow_update_self f (hs.workflowOf_lt (hs.agent?_lt ha))]

theorem Shares.stale (h : s.Shares first o) (hs : s.AtRest last) (hoffered : action.Offered)
    (hreset : action ≠ .reset) (ha : s.agent? name = some a) (hfirst : a < first) :
    (s.run name action).2.current = s.current ∧ (s.run name action).2.shown = s.shown := by
  have hagrees : Agrees (s.outcome name action) (s.run name action).2 := hs.agrees_run hoffered
  have hlt : a < s.agents.length := hs.agent?_lt ha
  have hother : s.current ≠ some (s.workflowOf a) := fun he =>
    absurd ((h.shared_iff a hlt).mp he) (Nat.not_le.mpr hfirst)
  obtain ⟨i, hi⟩ : ∃ i, s.current = some i := by
    apply Option.ne_none_iff_exists'.mp
    intro hnone
    rw [h.started hnone] at hlt
    exact absurd hlt (Nat.not_lt_zero a)
  have hcurrent : (s.outcome name action).current = some i := current_outcome hi hreset
  have htarget : s.target name action ≠ some i := by
    intro ht
    unfold target at ht
    split at ht
    · rw [ha] at ht
      exact hother (hi.trans ht.symm)
    · cases ht
  have hget : (s.outcome name action).workflow i = s.workflow i :=
    congrArg (fun w : Option Workflow => w.getD {}) (getElem?_outcome (hs.current i hi) htarget)
  refine ⟨hagrees.current.trans (hcurrent.trans hi.symm), hagrees.shown_eq.trans ?_⟩
  rw [shown, hcurrent, Option.map_some, hget, shown, hi, Option.map_some]

theorem Shares.isolated (h : s.Shares first o) (hs : s.AtRest last) : s.Isolated first o where
  frame name action hoffered i hi ht := by
    have hagrees : Agrees (s.outcome name action) (s.run name action).2 := hs.agrees_run hoffered
    rw [hagrees.workflows]
    exact getElem?_outcome hi ht
  bindings name action hoffered a ha := by
    have hagrees : Agrees (s.outcome name action) (s.run name action).2 := hs.agrees_run hoffered
    rw [hagrees.workflowOf_eq]
    exact workflowOf_outcome ha
  shared_iff := h.shared_iff
  seen _ _ _ _ _ hoffered hf ha hfirst hfirst' hb := h.seen hs hoffered hf ha hfirst hfirst' hb
  stale _ _ _ hoffered hreset ha hfirst := h.stale hs hoffered hreset ha hfirst
  options := h.options

end Session

/-- **Agents act on their own workflow only.**  After any actions, the agents that were made since
the last reset share the workflow of the session; all others have lost it for good, since a reset
leaves behind every agent that was made before it. -/
theorem session_isolated (actions : List (Text × Action)) (hoffered : ∀ p ∈ actions, p.2.Offered) :
    (Session.after {} actions).Isolated (Session.sinceReset 0 {} actions)
      (Session.configured {} {} actions) ∧
    ∀ before name since, actions = before ++ (name, .reset) :: since →
      (Session.after {} before).agents.length ≤ Session.sinceReset 0 {} actions := by
  have hplain : ∀ p ∈ actions, p.2.Plain := fun p hp => (hoffered p hp).plain
  have hrest := Session.atRest_empty.after hplain
  have hshares := Session.shares_empty.after Session.atRest_empty hoffered
  refine ⟨hshares.isolated hrest, ?_⟩
  rintro before name since rfl
  exact Session.length_agents_le_sinceReset hoffered

/-- An agent from before a reset configures and compiles, and the session keeps the options from
before that reset. -/
theorem session_isolated_stale :
    let actions : List (Text × Action) :=
      [("a".toList, .attach), ("a".toList, .configure (.bool false) (.bool true)),
        ("b".toList, .reset), ("a".toList, .configure (.bool true) (.bool false)),
        ("c".toList, .attach), ("a".toList, .compile "return 1;".toList 3 none)]
    let s := Session.after {} actions
    (∀ p ∈ actions, p.2.Offered) ∧ s.options = ⟨false, true⟩ ∧
      s.current = some (s.workflowOf 1) ∧ s.current = some (s.workflowOf 2) ∧
      s.current ≠ some (s.workflowOf 0) ∧
      (s.run "a".toList (.compile "return".toList 1 none)).2.shown = s.shown ∧
      (s.run "c".toList (.compile "return 2;".toList 1 none)).2.workflow
        ((s.run "c".toList (.compile "return 2;".toList 1 none)).2.workflowOf 1) =
          (s.workflow (s.workflowOf 1)).answer "return 2;".toList 1 := by
  intro actions s
  have hoffered : ∀ p ∈ actions, p.2.Offered := by
    simp [actions, Action.Offered, Action.Plain]
  have hfirst : Session.sinceReset 0 {} actions = 1 := by decide +kernel
  have hoptions : Session.configured {} {} actions = ⟨false, true⟩ := by decide +kernel
  have hagents : ∀ a, a < 3 → a < (Session.after {} actions).agents.length := by
    have hlength : (Session.after {} actions).agents.length = 3 := by decide +kernel
    intro a ha
    omega
  have ha : s.agent? "a".toList = some 0 := by decide +kernel
  have hc : s.agent? "c".toList = some 2 := by decide +kernel
  obtain ⟨h, -⟩ := session_isolated actions hoffered
  rw [hfirst, hoptions] at h
  refine ⟨hoffered, h.options, (h.shared_iff 1 (hagents 1 (by decide))).mpr (by decide),
    (h.shared_iff 2 (hagents 2 (by decide))).mpr (by decide), fun he => ?_, ?_, ?_⟩
  · exact absurd ((h.shared_iff 0 (hagents 0 (by decide))).mp he) (by decide)
  · have hrequest : (Action.compile "return".toList 1 none).Offered := rfl
    exact (h.stale _ _ 0 hrequest (by simp) ha (by decide)).2
  · have hrequest : (Action.compile "return 2;".toList 1 none).Offered := rfl
    exact h.seen _ _ _ 2 1 hrequest rfl hc (by decide) (by decide) (hagents 1 (by decide))

end TypeStrip
