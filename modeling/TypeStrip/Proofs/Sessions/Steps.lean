import TypeStrip.Proofs.Sessions.Announcements
import TypeStrip.Proofs.Sessions.Isolation

/-!
# Actions one by one

What one action does to a session with plain subscribers, whatever phases its workflows are in:
phases may also be set by hand.  An action moves one workflow and tells of it, or it does nothing to
the workflows that there are but for their options.

* `Action.Direct`        the actions of users, and transitions by hand;
* `Phase.Leads`          a way through the table of phases;
* `Action.effect`        what an action makes of the workflow of its agent, and what it tells;
* `Action.leads_of_effect`   which is a way through the table;
* `Session.Keeps`        agents stay bound, and subscribers stay;
* `Session.Moves`        one workflow has moved;
* `Session.Idles`        none has;
* `Session.Sound.run_moves`, `Session.Sound.run_idles`   an action does one or the other;
* `Session.Sound.run_keeps`, `Session.Sound.after_keeps`   what stays in either case.
-/

namespace TypeStrip

/-- Subscribers do not act, and the compiler is not replaced; everything else may be done. -/
def Action.Direct : Action → Prop
  | .compile _ _ broken => broken = none
  | .subscribe _ _ _ reaction => reaction.Plain
  | .attach | .reset | .dropSession | .configure _ _ | .transition _ | .output | .tokenRows | .tree
  | .historyText => True

theorem Action.Plain.direct {action : Action} (h : action.Plain) : action.Direct := by
  cases action with
  | transition target => exact h.elim
  | _ => exact h

/-- What an action makes of the workflow of its agent, and the events that it tells.  Refused
actions have no effect, and neither have those that are not about phases. -/
def Action.effect (w : Workflow) : Action → Option (Workflow × List Event)
  | .compile source ticks _ =>
    if w.phase = .compiling then none
    else some (w.answer source ticks, requestEvents w.phase (TypeStrip.compile w.options source))
  | .transition target =>
    if target ∈ w.phase.successors then
      some ({ w with phase := target }, [.phaseChanged w.phase target])
    else none
  | _ => none

/-! ### Ways through the phases -/

/-- Changes that begin at the one phase and end at the other, each from where the one before it led,
to a phase that may follow. -/
inductive Phase.Leads : Phase → List Change → Phase → Prop where
  | refl (p : Phase) : Leads p [] p
  | step {p q r : Phase} {cs : List Change} (h : q ∈ p.successors) (hrest : Leads q cs r) :
      Leads p ((p, q) :: cs) r

theorem Phase.Leads.trans {p q r : Phase} {cs ds : List Change} (h : p.Leads cs q)
    (h' : q.Leads ds r) : p.Leads (cs ++ ds) r := by
  induction h with
  | refl p => exact h'
  | step hq _ ih => exact .step hq (ih h')

theorem Phase.compiling_mem_successors {p : Phase} (h : p ≠ .compiling) :
    .compiling ∈ p.successors := by
  revert h
  cases p <;> decide

theorem Workflow.leads_answer (source : Text) (ticks : Nat) {w : Workflow}
    (h : w.phase ≠ .compiling) : w.phase.Leads
      ((requestEvents w.phase (compile w.options source)).filterMap Event.change)
      (w.answer source ticks).phase := by
  refine .step (Phase.compiling_mem_successors h) ?_
  unfold answer
  cases compile w.options source with
  | ok c => exact .step (q := .compiled) (by decide) (.refl _)
  | error e => exact .step (q := .error) (by decide) (.refl _)

theorem Action.leads_of_effect {action : Action} {w w' : Workflow} {events : List Event}
    (h : action.effect w = some (w', events)) :
    w.phase.Leads (events.filterMap Event.change) w'.phase := by
  cases action with
  | compile source ticks broken =>
    rw [effect] at h
    split at h
    · cases h
    · next hphase =>
      cases h
      exact w.leads_answer source ticks hphase
  | transition target =>
    rw [effect] at h
    split at h
    · next htarget =>
      cases h
      exact .step htarget (.refl target)
    · cases h
  | _ => cases h

namespace Session

variable {react : React} {s s' s'' : Session} {name : Text} {action : Action} {a i : Nat}

/-- The agent of an action, and the effect of the action on its workflow. -/
def effect (s : Session) (name : Text) (action : Action) : Option (Nat × Workflow × List Event) :=
  match s.agent? name with
  | none => none
  | some a => (action.effect (s.workflow (s.workflowOf a))).map fun p => (a, p)

/-- An effect comes from an agent, and is one on its workflow. -/
theorem effect_eq_some {w : Workflow} {events : List Event}
    (h : s.effect name action = some (a, w, events)) :
    s.agent? name = some a ∧
      action.effect (s.workflow (s.workflowOf a)) = some (w, events) := by
  unfold effect at h
  cases ha : s.agent? name with
  | none =>
    rw [ha] at h
    cases h
  | some b =>
    rw [ha] at h
    obtain ⟨p, heffect, hp⟩ := Option.map_eq_some_iff.mp h
    cases hp
    exact ⟨rfl, heffect⟩

/-! ### What stays -/

/-- Agents stay bound to their workflows, and subscribers stay with their agents; new ones may have
been added behind them. -/
structure Keeps (s s' : Session) : Prop where
  sound : s.Sound → s'.Sound
  labels : ∀ b, s.labels b <+: s'.labels b
  bound : ∀ b, b < s.agents.length → b < s'.agents.length ∧ s'.workflowOf b = s.workflowOf b

theorem Keeps.refl (s : Session) : Keeps s s :=
  ⟨id, fun _ => List.prefix_rfl, fun _ hb => ⟨hb, rfl⟩⟩

theorem Keeps.trans (h : Keeps s s') (h' : Keeps s' s'') : Keeps s s'' where
  sound := h'.sound ∘ h.sound
  labels b := (h.labels b).trans (h'.labels b)
  bound b hb := by
    obtain ⟨hlt, hbound⟩ := h.bound b hb
    obtain ⟨hlt', hbound'⟩ := h'.bound b hlt
    exact ⟨hlt', hbound'.trans hbound⟩

theorem Agrees.keeps (h : Agrees s s') (hlabels : ∀ b, s.labels b <+: s'.labels b) :
    Keeps s s' where
  sound := h.sound
  labels := hlabels
  bound b hb := ⟨by rwa [h.length_agents], h.workflowOf_eq b⟩

theorem keeps_update (i : Nat) (f : Workflow → Workflow) (s : Session) :
    Keeps s (s.update i f) :=
  ⟨fun hs => hs.update i f, fun _ => List.prefix_rfl, fun _ hb => ⟨hb, rfl⟩⟩

/-! ### Moving one workflow -/

/-- The workflow of agent `a` has become `w`, and the subscribers of `a` were told `events`. -/
structure Moves (a : Nat) (w : Workflow) (events : List Event) (s s' : Session) : Prop where
  agrees : Agrees (s.update (s.workflowOf a) fun _ => w) s'
  grows : Grows a (announced events (s.labels a)) (events.filterMap Event.change) s s'

theorem moves_compileWith (hs : s.Sound) (ha : a < s.agents.length) (source : Text) (ticks : Nat)
    (hp : (s.workflow (s.workflowOf a)).phase ≠ .compiling) :
    Moves a ((s.workflow (s.workflowOf a)).answer source ticks)
      (requestEvents (s.workflow (s.workflowOf a)).phase
        (compile (s.workflow (s.workflowOf a)).options source)) s
      (s.compileWith react a source ticks none).2 where
  agrees := by
    obtain ⟨s', hs', hagrees⟩ : ∃ s', s.compileWith react a source ticks none = _ ∧
      Agrees (s.update _ (Workflow.answer source ticks)) s' :=
        compileWith_eq hs.calm rfl (hs.workflowOf_lt ha) hp source ticks
    rw [hs']
    rw [update_congr (g := fun _ => (s.workflow (s.workflowOf a)).answer source ticks) rfl]
      at hagrees
    exact hagrees
  grows := grows_compileWith hs.calm rfl (hs.workflowOf_lt ha) hp source ticks

theorem moves_transition (hs : s.Sound) {target : Phase}
    (ht : target ∈ (s.workflow (s.workflowOf a)).phase.successors) :
    Moves a { s.workflow (s.workflowOf a) with phase := target }
      [.phaseChanged (s.workflow (s.workflowOf a)).phase target] s
      (s.settle (s.transition react a target)).2 := by
  obtain ⟨s', hs', hagrees⟩ : ∃ s', s.transition react a target = .ok s' ∧ _ :=
    transition_eq hs.calm ht
  have hgrows := grows_transition hs.calm hs'
  rw [update_congr (g := fun _ => { s.workflow (s.workflowOf a) with phase := target }) rfl]
    at hagrees
  rw [hs']
  exact ⟨hagrees, hgrows⟩

/-- The session behind an action through an agent. -/
theorem through_eq (ha : s.agent? name = some a)
    (f : Nat → Except ActionFault Json × Session) : s.through name f = f a := by
  rw [through, ha]

theorem Sound.run_moves {w : Workflow} {events : List Event} (hs : s.Sound)
    (hd : action.Direct) (h : s.effect name action = some (a, w, events)) :
    Moves a w events s (s.run name action).2 := by
  obtain ⟨ha, heffect⟩ := effect_eq_some h
  cases action with
  | compile source ticks broken =>
    obtain rfl : broken = none := hd
    rw [Action.effect] at heffect
    split at heffect
    · cases heffect
    · next hphase =>
      cases heffect
      show Moves a _ _ s (s.through name _).2
      rw [through_eq ha]
      exact moves_compileWith hs (hs.agent?_lt ha) source ticks hphase
  | transition target =>
    rw [Action.effect] at heffect
    split at heffect
    · next htarget =>
      cases heffect
      show Moves a _ _ s (s.through name _).2
      rw [through_eq ha]
      exact moves_transition hs htarget
    · cases heffect
  | _ => cases heffect

theorem Moves.keeps {w : Workflow} {events : List Event} (h : Moves a w events s s') :
    Keeps s s' := by
  refine (keeps_update _ _ s).trans (h.agrees.keeps fun b => ?_)
  rw [h.grows.labels]
  exact List.prefix_rfl

theorem Moves.workflow_eq {w : Workflow} {events : List Event}
    (h : Moves a w events s s') (hs : s.Sound) (ha : a < s.agents.length) (i : Nat) :
    s'.workflow i = if s.workflowOf a = i then w else s.workflow i := by
  rw [h.agrees.workflow_eq]
  split
  · next hi =>
    subst hi
    exact workflow_update_self _ (hs.workflowOf_lt ha)
  · next hi =>
    unfold workflow update
    dsimp only
    rw [List.getElem?_modify_ne _ s.workflows hi]

/-! ### Moving no workflow -/

/-- No workflow has moved, and nobody was told anything.  There may be other options, and more
workflows, agents and subscribers. -/
structure Idles (s s' : Session) : Prop extends Keeps s s' where
  workflow : ∀ i, ∃ o, s'.workflow i = { s.workflow i with options := o }
  heard : s'.heard = s.heard
  changes : s'.changes = s.changes

theorem Idles.trans (h : Idles s s') (h' : Idles s' s'') : Idles s s'' where
  toKeeps := h.toKeeps.trans h'.toKeeps
  workflow i := by
    obtain ⟨o, ho⟩ := h.workflow i
    obtain ⟨o', ho'⟩ := h'.workflow i
    exact ⟨o', by rw [ho', ho]⟩
  heard := h'.heard.trans h.heard
  changes := h'.changes.trans h.changes

theorem Idles.refl (s : Session) : Idles s s := ⟨Keeps.refl s, fun _ => ⟨_, rfl⟩, rfl, rfl⟩

theorem Agrees.idles (h : Agrees s s') (hlabels : ∀ b, s.labels b <+: s'.labels b)
    (hheard : s'.heard = s.heard) (hchanges : s'.changes = s.changes) : Idles s s' where
  toKeeps := h.keeps hlabels
  workflow i := ⟨(s.workflow i).options, h.workflow_eq i⟩
  heard := hheard
  changes := hchanges

theorem idles_note (level : LogLevel) (message : Text) {x : Char} (h : message.head? = some x)
    (hx : x ≠ 'W') (s : Session) : Idles s (s.note level message) := by
  have hgrows := grows_note 0 level message h hx s
  exact (agrees_note level message s).idles (fun _ => List.prefix_rfl) rfl
    (hgrows.changes.trans (List.append_nil _))

theorem idles_options (i : Nat) (o : Options) (s : Session) :
    Idles s (s.update i fun w => { w with options := o }) where
  toKeeps := keeps_update i _ s
  workflow j := by
    by_cases hj : i = j
    · subst hj
      unfold Session.workflow update
      dsimp only
      rw [List.getElem?_modify_eq]
      cases s.workflows[i]? with
      | none => exact ⟨{}, rfl⟩
      | some w => exact ⟨o, rfl⟩
    · refine ⟨(s.workflow j).options, ?_⟩
      have hget : (s.update i fun w => { w with options := o }).workflows[j]? = s.workflows[j]? :=
        List.getElem?_modify_ne _ s.workflows hj
      rw [Session.workflow, hget]
      rfl
  heard := rfl
  changes := rfl

/-- A workflow that has just been made is like one that is not there. -/
theorem idles_remember (o : Options) (s : Session) : Idles s (s.remember { options := o }) where
  sound hs := hs.remember _
  labels _ := List.prefix_rfl
  bound _ hb := ⟨hb, rfl⟩
  workflow i := by
    unfold Session.workflow remember
    dsimp only
    by_cases hi : i < s.workflows.length
    · rw [List.getElem?_append_left hi]
      exact ⟨_, rfl⟩
    · have hle : s.workflows.length ≤ i := Nat.le_of_not_lt hi
      rw [List.getElem?_append_right hle, List.getElem?_eq_none hle]
      cases i - s.workflows.length with
      | zero => exact ⟨o, rfl⟩
      | succ n => exact ⟨{}, rfl⟩
  heard := rfl
  changes := rfl

theorem idles_addAgent (hi : s.Sound → i < s.workflows.length) : Idles s (s.addAgent i).2 where
  sound hs := (hs.addAgent (hi hs)).1
  labels b := by
    by_cases hb : b < s.agents.length
    · have hsame : (s.addAgent i).2.labels b = s.labels b := by
        unfold labels addAgent
        dsimp only
        rw [List.getElem?_append_left hb]
      exact hsame ▸ List.prefix_rfl
    · have hnone : s.labels b = [] := by
        rw [labels, List.getElem?_eq_none (Nat.le_of_not_lt hb)]
        rfl
      exact hnone ▸ List.nil_prefix
  bound b hb := by
    have hlength : (s.addAgent i).2.agents.length = s.agents.length + 1 := List.length_append
    exact ⟨by omega, workflowOf_addAgent i hb⟩
  workflow _ := ⟨_, rfl⟩
  heard := rfl
  changes := rfl

/-- The new agent gets a name. -/
theorem idles_assign (hi : s.Sound → i < s.workflows.length) (name : Text) :
    Idles s (assign name (s.addAgent i)) := by
  have hadd : Idles s (s.addAgent i).2 := idles_addAgent hi
  refine ⟨⟨fun hs => ?_, hadd.labels, hadd.bound⟩, hadd.workflow, hadd.heard, hadd.changes⟩
  exact (hs.addAgent (hi hs)).assign name

theorem idles_renew (message : Text) {x : Char} (h : message.head? = some x) (hx : x ≠ 'W')
    (o : Options) (name : Text) (s : Session) :
    Idles s (assign name (((s.note .info message).remember { options := o }).addAgent
      s.workflows.length)) := by
  refine ((idles_note .info message h hx s).trans (idles_remember o _)).trans ?_
  exact idles_assign (fun hs => hs.current _ rfl) name

theorem idles_attach (name : Text) (s : Session) : Idles s (assign name s.attach) := by
  unfold attach
  split
  · next i hi => exact idles_assign (fun hs => hs.current i hi) name
  · exact idles_renew _ rfl (by decide) {} name s

theorem idles_reset (name : Text) (s : Session) : Idles s (assign name s.reset) :=
  idles_renew _ rfl (by decide) _ name s

theorem idles_dropSession (s : Session) : Idles s { s with current := none } where
  sound hs := ⟨hs.calm, hs.bound, hs.names, nofun⟩
  labels _ := List.prefix_rfl
  bound _ hb := ⟨hb, rfl⟩
  workflow _ := ⟨_, rfl⟩
  heard := rfl
  changes := rfl

theorem idles_configure (boundary type : Json) :
    Idles s (s.settle (s.configure a boundary type)).2 := by
  unfold configure
  dsimp only
  split
  · exact Idles.refl s
  · exact (idles_options _ _ s).trans (idles_note .info _ rfl (by decide) _)

theorem labels_subscribe_self (sub : Subscription) (ha : a < s.agents.length) :
    (s.subscribe a sub).labels a = s.labels a ++ [sub.label] := by
  unfold labels subscribe
  dsimp only
  rw [List.getElem?_modify_eq, List.getElem?_eq_getElem ha]
  exact List.map_append

theorem labels_subscribe_other (sub : Subscription) {b : Nat} (hb : a ≠ b) :
    (s.subscribe a sub).labels b = s.labels b := by
  unfold labels subscribe
  dsimp only
  rw [List.getElem?_modify_ne _ s.agents hb]

theorem labels_subscribe (sub : Subscription) (ha : a < s.agents.length) (b : Nat) :
    s.labels b <+: (s.subscribe a sub).labels b := by
  by_cases hb : a = b
  · subst hb
    rw [labels_subscribe_self sub ha]
    exact List.prefix_append _ _
  · exact labels_subscribe_other sub hb ▸ List.prefix_rfl

/-- A transition to a phase that may not follow changes nothing. -/
theorem transition_refused {target : Phase}
    (h : target ∉ (s.workflow (s.workflowOf a)).phase.successors) :
    s.transition react a target =
      .error (.refused (s.workflow (s.workflowOf a)).phase target) := by
  unfold transition
  dsimp only
  rw [if_neg h]

/-- Neither does a request while another one is under way. -/
theorem compileWith_refused (h : (s.workflow (s.workflowOf a)).phase = .compiling) (source : Text)
    (ticks : Nat) (broken : Option Text) : s.compileWith react a source ticks broken =
      (.error (.refused .compiling .compiling), s) := by
  have hnot : Phase.compiling ∉ (s.workflow (s.workflowOf a)).phase.successors := by
    rw [h]
    decide
  rw [compileWith, transition_refused hnot, h]

theorem idles_through {f : Nat → Except ActionFault Json × Session}
    (hf : ∀ a, s.agent? name = some a → Idles s (f a).2) : Idles s (s.through name f).2 := by
  unfold through
  cases ha : s.agent? name with
  | none => exact Idles.refl s
  | some a => exact hf a ha

theorem Sound.run_idles (hs : s.Sound) (hd : action.Direct)
    (h : s.effect name action = none) : Idles s (s.run name action).2 := by
  have heffect : ∀ a, s.agent? name = some a →
      action.effect (s.workflow (s.workflowOf a)) = none := by
    intro a ha
    rw [effect, ha] at h
    exact Option.map_eq_none_iff.mp h
  cases action with
  | attach => exact idles_attach name s
  | reset => exact idles_reset name s
  | dropSession => exact idles_dropSession s
  | configure boundary type => exact idles_through fun a _ => idles_configure boundary type
  | compile source ticks broken =>
    refine idles_through fun a ha => ?_
    have hnone := heffect a ha
    rw [Action.effect] at hnone
    split at hnone
    · next hphase =>
      dsimp only
      rw [compileWith_refused hphase]
      exact Idles.refl s
    · cases hnone
  | transition target =>
    refine idles_through fun a ha => ?_
    have hnone := heffect a ha
    rw [Action.effect] at hnone
    split at hnone
    · cases hnone
    · next htarget =>
      rw [transition_refused htarget]
      exact Idles.refl s
  | subscribe label trigger times reaction =>
    have hplain : reaction.Plain := hd
    refine idles_through fun a ha => ?_
    exact (agrees_subscribe a hplain s).idles (labels_subscribe _ (hs.agent?_lt ha)) rfl rfl
  | output | tokenRows | tree | historyText => exact idles_through fun _ _ => Idles.refl s

/-! ### Any number of actions -/

theorem Sound.run_keeps (hs : s.Sound) (hd : action.Direct) (name : Text) :
    Keeps s (s.run name action).2 := by
  cases heffect : s.effect name action with
  | none => exact (hs.run_idles hd heffect).toKeeps
  | some p => exact (hs.run_moves hd heffect).keeps

theorem Sound.after_keeps (hs : s.Sound) {actions : List (Text × Action)}
    (hd : ∀ p ∈ actions, p.2.Direct) : Keeps s (s.after actions) := by
  induction actions generalizing s with
  | nil => exact Keeps.refl s
  | cons p actions ih =>
    obtain ⟨name, action⟩ := p
    obtain ⟨hp, hrest⟩ := List.forall_mem_cons.mp hd
    have hstep := hs.run_keeps hp name
    exact hstep.trans (ih (hstep.sound hs) hrest)

theorem sound_empty : ({} : Session).Sound := atRest_empty.toSound

end Session

end TypeStrip
