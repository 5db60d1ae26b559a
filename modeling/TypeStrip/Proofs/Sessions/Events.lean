import TypeStrip.Proofs.Sessions.Steps

/-!
# Events and subscribers

A compile request tells each subscriber of its agent the same three events, and is not changed by
being listened to.  So a subscriber of the only agent that compiles a workflow hears all of its
phases.

* `Session.silent`           the session without subscribers;
* `Workflow.timeless`        a workflow without its measured durations;
* `Session.Told`             what one request tells, and that nobody can tell from its result and
                             from the workflows whether anyone listened;
* `Session.heardBy`, `Session.changesHeard`   what one subscriber has heard;
* `Session.RequestedOnlyBy`  all requests for a workflow go through one agent;
* `Session.Hears`            a subscriber that has heard every change of phase so far;
* `Session.Hears.after`      and goes on to do so;
* `request_told`             the events of a request, and those of a whole run.
-/

namespace TypeStrip

/-! ### Nobody listens -/

def Entry.timeless (e : Entry) : Entry := { e with ticks := 0 }

def Workflow.timeless (w : Workflow) : Workflow :=
  { w with history := w.history.map Entry.timeless }

theorem map_record (f : Entry → Entry) (history : List Entry) (e : Entry) :
    (record history e).map f = record (history.map f) (f e) := by
  unfold record
  dsimp only
  rw [List.map_drop, List.map_append, List.length_append, List.length_append, List.length_map]
  rfl

theorem Workflow.timeless_answer (source : Text) (ticks ticks' : Nat) (w : Workflow) :
    (w.answer source ticks).timeless = (w.answer source ticks').timeless := by
  unfold answer
  cases compile w.options source with
  | ok c =>
    simp only [receive, timeless, map_record]
    rfl
  | error e =>
    simp only [receive, timeless, map_record]
    rfl

/-- Two changes with the same view give lists with the same view. -/
theorem map_modify_congr {α β : Type} {f f' : α → α} {g : α → β} (h : ∀ x, g (f x) = g (f' x))
    (l : List α) (i : Nat) : (l.modify i f).map g = (l.modify i f').map g := by
  induction l generalizing i with
  | nil => simp
  | cons a l ih =>
    cases i with
    | zero => exact congrArg (· :: _) (h a)
    | succ i => exact congrArg (g a :: ·) (ih i)

namespace Session

variable {react : React} {s s' : Session} {name label : Text} {action : Action} {a b i : Nat}

/-- The session without subscribers. -/
def silent (s : Session) : Session :=
  { s with agents := s.agents.map fun g => { g with subscriptions := [] } }

theorem calm_silent (s : Session) : s.silent.Calm := by
  intro g hg
  obtain ⟨g', -, rfl⟩ := List.mem_map.mp hg
  exact nofun

theorem workflowOf_silent (s : Session) (a : Nat) : s.silent.workflowOf a = s.workflowOf a := by
  rw [workflowOf_eq, workflowOf_eq]
  unfold silent
  dsimp only
  rw [List.map_map]
  rfl

/-- A request through agent `a` answers `success` and tells `events`: each of them to all
subscribers of the agent, in the order in which they subscribed, and to nobody else.  The answer
and the workflows behind the request, up to durations, are those without any subscribers. -/
structure Told (react : React) (s : Session) (a : Nat) (source : Text) (ticks : Nat)
    (events : List Event) (success : Bool) : Prop where
  answer : (s.compileWith react a source ticks none).1 = .ok success
  heard : (s.compileWith react a source ticks none).2.heard =
    s.heard ++ events.flatMap fun e => (s.labels a).map fun l => ⟨l, e⟩
  others : ∀ b, b ≠ a → (s.compileWith react a source ticks none).2.agents[b]? = s.agents[b]?
  unobserved : ∀ react' ticks',
    (s.silent.compileWith react' a source ticks' none).1 = .ok success ∧
    (s.silent.compileWith react' a source ticks' none).2.workflows.map Workflow.timeless =
      (s.compileWith react a source ticks none).2.workflows.map Workflow.timeless

theorem told_compileWith (hs : s.Calm) (hi : s.workflowOf a < s.workflows.length)
    (hp : (s.workflow (s.workflowOf a)).phase ≠ .compiling) (source : Text) (ticks : Nat) :
    Told react s a source ticks
      (requestEvents (s.workflow (s.workflowOf a)).phase
        (compile (s.workflow (s.workflowOf a)).options source))
      (compile (s.workflow (s.workflowOf a)).options source).isOk := by
  obtain ⟨s', hs', hagrees⟩ : ∃ s', s.compileWith react a source ticks none = _ ∧
    Agrees (s.update _ (Workflow.answer source ticks)) s' :=
      compileWith_eq hs rfl hi hp source ticks
  have hgrows : Grows a _ _ s (s.compileWith react a source ticks none).2 :=
    grows_compileWith hs rfl hi hp source ticks
  refine ⟨by rw [hs'], hgrows.heard, hgrows.others, fun react' ticks' => ?_⟩
  obtain ⟨q, hq, hsilent⟩ : ∃ q, s.silent.compileWith react' a source ticks' none = _ ∧
    Agrees (s.silent.update _ (Workflow.answer source ticks')) q :=
      compileWith_eq s.calm_silent (s.workflowOf_silent a) hi hp source ticks'
  rw [hq, hs', hsilent.workflows, hagrees.workflows]
  exact ⟨rfl, map_modify_congr (Workflow.timeless_answer source ticks' ticks) s.workflows _⟩

/-! ### One subscriber -/

/-- What the subscribers with a label have heard. -/
def heardBy (label : Text) (s : Session) : List Event :=
  (s.heard.filter fun h => h.label = label).map Heard.event

/-- The changes of phase that they have heard of. -/
def changesHeard (label : Text) (s : Session) : List Change :=
  (s.heardBy label).filterMap Event.change

theorem heard_one (label : Text) (e : Event) (labels : List Text) :
    ((labels.map fun l => Heard.mk l e).filter fun h => h.label = label).map Heard.event =
      List.replicate (labels.count label) e := by
  induction labels with
  | nil => rfl
  | cons l labels ih =>
    by_cases hl : l = label
    · subst hl
      rw [List.map_cons, List.filter_cons_of_pos (by simp), List.map_cons, ih,
        List.count_cons_self, List.replicate_succ]
    · rw [List.map_cons, List.filter_cons_of_neg (by simpa using hl), ih,
        List.count_cons_of_ne hl]

/-- A label that `n` subscribers share hears every event `n` times. -/
theorem heard_announced (label : Text) (events : List Event) (labels : List Text) :
    ((announced events labels).filter fun h => h.label = label).map Heard.event =
      events.flatMap (List.replicate (labels.count label)) := by
  unfold announced
  induction events with
  | nil => rfl
  | cons e events ih =>
    rw [List.flatMap_cons, List.filter_append, List.map_append, heard_one, ih, List.flatMap_cons]

theorem Moves.heardBy_eq {w : Workflow} {events : List Event} (h : Moves a w events s s')
    (label : Text) : s'.heardBy label =
      s.heardBy label ++ events.flatMap (List.replicate ((s.labels a).count label)) := by
  unfold heardBy
  rw [h.grows.heard, List.filter_append, List.map_append, heard_announced]

/-- Nobody hears anything without having subscribed. -/
theorem heardBy_eq_nil (hs : s.Sound) {actions : List (Text × Action)}
    (hd : ∀ p ∈ actions, p.2.Direct) (h : s.heardBy label = [])
    (hlabel : ∀ b, label ∉ (s.after actions).labels b) : (s.after actions).heardBy label = [] := by
  induction actions generalizing s with
  | nil => exact h
  | cons p actions ih =>
    obtain ⟨name, action⟩ := p
    obtain ⟨hp, hrest⟩ := List.forall_mem_cons.mp hd
    have hkeeps := hs.run_keeps hp name
    refine ih (hkeeps.sound hs) hrest ?_ hlabel
    cases heffect : s.effect name action with
    | none =>
      rw [heardBy, (hs.run_idles hp heffect).heard]
      exact h
    | some p =>
      obtain ⟨b, w, events⟩ := p
      have hmoves := hs.run_moves hp heffect
      have hstays := (hkeeps.labels b).trans
        (((hkeeps.sound hs).after_keeps hrest).labels b)
      have hcount : (s.labels b).count label = 0 :=
        List.count_eq_zero.mpr fun hmem => hlabel b (hstays.mem hmem)
      rw [hmoves.heardBy_eq, h, hcount]
      simp

/-! ### The only agent of a workflow -/

/-- During some actions, all requests for workflow `i` are made through agent `a`. -/
def RequestedOnlyBy (a i : Nat) (s : Session) : List (Text × Action) → Prop
  | [] => True
  | (name, action) :: rest =>
    ((s.requestFor i name action).isSome → s.agent? name = some a) ∧
      RequestedOnlyBy a i (s.run name action).2 rest

instance RequestedOnlyBy.decidable (a i : Nat) :
    (s : Session) → (actions : List (Text × Action)) → Decidable (s.RequestedOnlyBy a i actions)
  | _, [] => inferInstanceAs (Decidable True)
  | s, (name, action) :: rest =>
    have := RequestedOnlyBy.decidable a i (s.run name action).2 rest
    inferInstanceAs (Decidable (_ ∧ _))

/-- A subscriber of agent `a` has heard of all changes of workflow `i` since it was in phase `p`. -/
structure Hears (a i : Nat) (p : Phase) (label : Text) (s : Session) : Prop extends s.Sound where
  agent : a < s.agents.length
  workflow : s.workflowOf a = i
  subscribed : label ∈ s.labels a
  leads : p.Leads (s.changesHeard label) (s.workflow i).phase

/-- Of the actions of users, only a request has an effect on a workflow. -/
theorem requestFor_of_effect {w w' : Workflow} {events : List Event} (hplain : action.Plain)
    (h : action.effect w = some (w', events)) (ha : s.agent? name = some b)
    (hi : s.workflowOf b = i) : (s.requestFor i name action).isSome := by
  cases action with
  | compile source ticks broken =>
    rw [requestFor, ha]
    dsimp only
    rw [if_pos hi]
    rfl
  | transition target => exact hplain.elim
  | _ => cases h

/-- A subscriber whose label nobody shares hears of the next action, too. -/
theorem Hears.run {p : Phase} (h : s.Hears a i p label) (hplain : action.Plain)
    (honly : (s.requestFor i name action).isSome → s.agent? name = some a)
    (hone : (s.labels a).count label ≤ 1) (hothers : ∀ b, b ≠ a → label ∉ s.labels b) :
    (s.run name action).2.Hears a i p label := by
  have hkeeps := h.toSound.run_keeps hplain.direct name
  obtain ⟨hagent, hbound⟩ := hkeeps.bound a h.agent
  refine ⟨hkeeps.sound h.toSound, hagent, hbound.trans h.workflow,
    (hkeeps.labels a).mem h.subscribed, ?_⟩
  cases heffect : s.effect name action with
  | none =>
    have hidles := h.toSound.run_idles hplain.direct heffect
    obtain ⟨o, ho⟩ := hidles.workflow i
    rw [ho, changesHeard, heardBy, hidles.heard]
    exact h.leads
  | some q =>
    obtain ⟨b, w, events⟩ := q
    obtain ⟨hb, haction⟩ := effect_eq_some heffect
    have hmoves := h.toSound.run_moves hplain.direct heffect
    rw [changesHeard, hmoves.heardBy_eq, List.filterMap_append,
      hmoves.workflow_eq h.toSound (h.agent?_lt hb)]
    -- Other agents may move other workflows, but their subscribers have other labels.
    by_cases hi : s.workflowOf b = i
    · have hsame : b = a :=
        Option.some.inj (hb.symm.trans (honly (requestFor_of_effect hplain haction hb hi)))
      subst hsame
      have hcount : (s.labels b).count label = 1 :=
        Nat.le_antisymm hone (List.one_le_count_iff.mpr h.subscribed)
      have hleads := Action.leads_of_effect haction
      rw [hi] at hleads
      rw [if_pos hi, hcount]
      have honce : events.flatMap (List.replicate 1) = events := List.flatMap_singleton' events
      rw [honce]
      exact h.leads.trans hleads
    · have hne : b ≠ a := by
        rintro rfl
        exact hi h.workflow
      rw [if_neg hi, List.count_eq_zero.mpr (hothers b hne)]
      have hnone : events.flatMap (List.replicate 0) = [] := by simp
      rw [hnone, List.filterMap_nil, List.append_nil]
      exact h.leads

theorem Hears.after {p : Phase} {actions : List (Text × Action)} (h : s.Hears a i p label)
    (hplain : ∀ q ∈ actions, q.2.Plain) (honly : s.RequestedOnlyBy a i actions)
    (hone : ((s.after actions).labels a).count label ≤ 1)
    (hothers : ∀ b, b ≠ a → label ∉ (s.after actions).labels b) :
    (s.after actions).Hears a i p label := by
  induction actions generalizing s with
  | nil => exact h
  | cons q actions ih =>
    obtain ⟨name, action⟩ := q
    obtain ⟨hq, hrest⟩ := List.forall_mem_cons.mp hplain
    obtain ⟨hnow, hlater⟩ := honly
    have hkeeps := h.toSound.after_keeps fun q hq => (hplain q hq).direct
    refine ih (h.run hq hnow ?_ ?_) hrest hlater hone hothers
    · exact ((hkeeps.labels a).sublist.count_le label).trans hone
    · intro b hb hmem
      exact hothers b hb ((hkeeps.labels b).mem hmem)

theorem after_append (s : Session) (actions more : List (Text × Action)) :
    s.after (actions ++ more) = (s.after actions).after more := by
  induction actions generalizing s with
  | nil => rfl
  | cons p actions ih => exact ih _

theorem run_subscribe (ha : s.agent? name = some a) (label : Text) (trigger : Option Text)
    (times : Nat) (reaction : Reaction) :
    (s.run name (.subscribe label trigger times reaction)).2 =
      s.subscribe a { label, trigger, times, reaction } := by
  show (s.through name _).2 = _
  rw [through_eq ha]

/-- Whoever has just subscribed has heard nothing yet, and so has missed nothing. -/
theorem Sound.hears_subscribe {sub : Subscription} (hs : s.Sound) (ha : a < s.agents.length)
    (hplain : sub.reaction.Plain) (hheard : s.heardBy sub.label = []) :
    (s.subscribe a sub).Hears a (s.workflowOf a) (s.workflow (s.workflowOf a)).phase
      sub.label := by
  have hkeeps := (agrees_subscribe a hplain s).keeps (labels_subscribe sub ha)
  obtain ⟨hlt, hbound⟩ := hkeeps.bound a ha
  refine ⟨hkeeps.sound hs, hlt, hbound, ?_, ?_⟩
  · rw [labels_subscribe_self sub ha]
    exact List.mem_append_right _ List.mem_cons_self
  · have hnone : (s.subscribe a sub).changesHeard sub.label = [] :=
      congrArg (List.filterMap Event.change) hheard
    rw [hnone]
    exact .refl _

/-- Nobody was subscribed with a label that only the new subscriber has in the end. -/
theorem not_mem_labels {sub : Subscription} (ha : a < s.agents.length)
    (hkeeps : Keeps (s.subscribe a sub) s') (hone : (s'.labels a).count sub.label = 1)
    (hothers : ∀ b, b ≠ a → sub.label ∉ s'.labels b) (b : Nat) : sub.label ∉ s.labels b := by
  intro hmem
  by_cases hb : b = a
  · subst hb
    have hle := (hkeeps.labels b).sublist.count_le sub.label
    have hpos : 0 < (s.labels b).count sub.label := List.count_pos_iff.mpr hmem
    rw [labels_subscribe_self sub ha, List.count_append, List.count_singleton_self, hone] at hle
    omega
  · have hstays := (labels_subscribe sub ha b).trans (hkeeps.labels b)
    exact hothers b hb (hstays.mem hmem)

/-- A new subscriber hears of everything that happens to the workflow of its agent from then on. -/
theorem Sound.hears_after {sub : Subscription} {actions : List (Text × Action)} (hs : s.Sound)
    (ha : a < s.agents.length) (hsub : sub.reaction.Plain) (hplain : ∀ p ∈ actions, p.2.Plain)
    (hnone : (∀ b, sub.label ∉ s.labels b) → s.heardBy sub.label = [])
    (honly : (s.subscribe a sub).RequestedOnlyBy a (s.workflowOf a) actions)
    (hone : (((s.subscribe a sub).after actions).labels a).count sub.label = 1)
    (hothers : ∀ b, b ≠ a → sub.label ∉ ((s.subscribe a sub).after actions).labels b) :
    ((s.subscribe a sub).after actions).Hears a (s.workflowOf a)
      (s.workflow (s.workflowOf a)).phase sub.label := by
  have hsound : (s.subscribe a sub).Sound := (agrees_subscribe a hsub s).sound hs
  have hkeeps := hsound.after_keeps fun p hp => (hplain p hp).direct
  have hheard : s.heardBy sub.label = [] := hnone (not_mem_labels ha hkeeps hone hothers)
  exact (hs.hears_subscribe ha hsub hheard).after hplain honly (Nat.le_of_eq hone) hothers

end Session

/-- **Subscribers hear every request, and change none.**  A request at rest tells every subscriber
of its agent, and nobody else, three events: the request begins; it ends in a resting phase; and its
outcome.  Its answer and the workflows behind it are those without subscribers.  So a subscriber of
the only agent that makes requests for a workflow hears of one connected way through the phases,
from the phase in which it subscribed to the present one. -/
theorem request_told :
    (∀ (react : Session.React) (s : Session) (a : Nat) (source : Text) (ticks : Nat), s.Calm →
      s.workflowOf a < s.workflows.length →
      (s.workflow (s.workflowOf a)).phase ≠ .compiling →
      (∃ c, compile (s.workflow (s.workflowOf a)).options source = .ok c ∧
        s.Told react a source ticks
          [.phaseChanged (s.workflow (s.workflowOf a)).phase .compiling,
            .phaseChanged .compiling .compiled,
            .compiled c.tokens.length (c.tree.statements.filterMap fun
              | .function name _ _ _ => some name.text
              | _ => none)] true) ∨
      (∃ e d, compile (s.workflow (s.workflowOf a)).options source = .error e ∧
        e.verdict = .diagnostic d ∧ s.Told react a source ticks
          [.phaseChanged (s.workflow (s.workflowOf a)).phase .compiling,
            .phaseChanged .compiling .error, .failed d.kind.toList d.message] false)) ∧
    (∀ (before rest : List (Text × Action)) (name label : Text) (trigger : Option Text)
      (times : Nat) (reaction : Reaction) (a : Nat),
      let since := (name, .subscribe label trigger times reaction) :: rest
      let s := Session.after {} before
      let s' := Session.after {} (before ++ since)
      (∀ p ∈ before ++ since, p.2.Plain) → s.agent? name = some a →
      (s'.labels a).count label = 1 → (∀ b, b ≠ a → label ∉ s'.labels b) →
      s.RequestedOnlyBy a (s.workflowOf a) since →
      (s.workflow (s.workflowOf a)).phase.Leads (s'.changesHeard label)
        (s'.workflow (s'.workflowOf a)).phase) := by
  constructor
  · intro react s a source ticks hs hi hp
    have htold : s.Told react a source ticks _ _ :=
      Session.told_compileWith hs hi hp source ticks
    cases hc : compile (s.workflow (s.workflowOf a)).options source with
    | ok c =>
      rw [hc, requestEvents, outcomeEvents, c.tree.functionNames_eq] at htold
      exact .inl ⟨c, rfl, htold⟩
    | error e =>
      obtain ⟨d, hd⟩ := compile_reports hc
      rw [hc, requestEvents, outcomeEvents, CompileFault.failure_eq hd] at htold
      exact .inr ⟨e, d, rfl, hd, htold⟩
  · intro before rest name label trigger times reaction a since s s' hplain ha hone hothers honly
    obtain ⟨hbefore, hsince⟩ := List.forall_mem_append.mp hplain
    obtain ⟨hsubscribe, hrest⟩ := List.forall_mem_cons.mp hsince
    have hdirect : ∀ p ∈ before, p.2.Direct := fun p hp => (hbefore p hp).direct
    have hsound : s.Sound :=
      (Session.sound_empty.after_keeps hdirect).sound Session.sound_empty
    have hs' : s' = (s.subscribe a { label, trigger, times, reaction }).after rest := by
      rw [← Session.run_subscribe ha]
      exact Session.after_append {} before since
    rw [hs'] at hone hothers ⊢
    have honly' := honly.2
    rw [Session.run_subscribe ha] at honly'
    have hreaction : reaction.Plain := hsubscribe
    have hhears := hsound.hears_after (hsound.agent?_lt ha) hreaction hrest
      (Session.heardBy_eq_nil Session.sound_empty hdirect rfl) honly' hone hothers
    rw [hhears.workflow]
    exact hhears.leads

/-- A subscriber that fails whenever it is told something hears of both requests of its agent, and
of neither of the other agent, which is bound to a workflow of its own.  A third request tells of
the function that its source declares. -/
theorem request_told_failing :
    let a := "a".toList
    let b := "b".toList
    let before : List (Text × Action) :=
      [(a, .attach), (a, .subscribe "first".toList none 1 .quiet), (b, .reset),
        (b, .subscribe "other".toList none 1 .quiet)]
    let rest : List (Text × Action) :=
      [(a, .compile "return 1;".toList 5 none), (b, .compile "return 2;".toList 1 none),
        (a, .compile "return".toList 2 none)]
    let since := (a, .subscribe "second".toList none 9 (.fail "full".toList)) :: rest
    let source := "function f(a: s): t \x7b \x7d".toList
    let s := Session.after {} (before ++ since)
    s.changesHeard "second".toList = [(.idle, .compiling), (.compiling, .compiled),
        (.compiled, .compiling), (.compiling, .error)] ∧
      Phase.idle.Leads (s.changesHeard "second".toList) (s.workflow (s.workflowOf 0)).phase ∧
      (s.compileWith (fun _ _ s => (none, s)) 0 source 4 none).1 = .ok true ∧
      (s.compileWith (fun _ _ s => (none, s)) 0 source 4 none).2.heard = s.heard ++
        [⟨"first".toList, .phaseChanged .error .compiling⟩,
          ⟨"second".toList, .phaseChanged .error .compiling⟩,
          ⟨"first".toList, .phaseChanged .compiling .compiled⟩,
          ⟨"second".toList, .phaseChanged .compiling .compiled⟩,
          ⟨"first".toList, .compiled 11 ["f".toList]⟩,
          ⟨"second".toList, .compiled 11 ["f".toList]⟩] := by
  intro a b before rest since source s
  have hplain : ∀ p ∈ before ++ since, p.2.Plain := by
    simp [before, since, rest, Action.Plain, Reaction.Plain]
  have hsound : s.Sound := (Session.sound_empty.after_keeps fun p hp => (hplain p hp).direct).sound
    Session.sound_empty
  have hlabels : ∀ b, b ≠ 0 → "second".toList ∉ s.labels b := by
    have hagents : (s.agents.map fun g => g.subscriptions.map Subscription.label) =
      [["first".toList, "second".toList], ["other".toList]] := by decide +kernel
    intro b hb
    rw [Session.labels_eq, hagents]
    obtain _ | _ | b := b
    · exact absurd rfl hb
    · decide
    · exact List.not_mem_nil
  have hcompile : (compile (s.workflow (s.workflowOf 0)).options source).toOption.map
      (fun c => (c.tokens.length, c.tree.statements.filterMap fun
        | .function name _ _ _ => some name.text
        | _ => none)) = some (11, ["f".toList]) := by
    decide +kernel
  have hphase : (s.workflow (s.workflowOf 0)).phase = .error := by decide +kernel
  have hsubscribed : s.labels 0 = ["first".toList, "second".toList] := by decide +kernel
  obtain ⟨hrequest, hrun⟩ := request_told
  have hleads := hrun before rest a "second".toList none 9 (.fail "full".toList) 0 hplain
    (by decide +kernel) (by decide +kernel) hlabels (by decide +kernel)
  have htold := hrequest (fun _ _ s => (none, s)) s 0 source 4 hsound.calm (by decide +kernel) (by decide +kernel)
  rw [hphase] at htold
  refine ⟨by decide +kernel, hleads, ?_⟩
  obtain ⟨c, hc, h⟩ | ⟨e, -, hc, -⟩ := htold
  · rw [hc] at hcompile
    obtain ⟨htokens, hnames⟩ := Prod.mk.inj (Option.some.inj hcompile)
    rw [htokens, hnames] at h
    refine ⟨h.answer, h.heard.trans ?_⟩
    rw [hsubscribed]
    rfl
  · rw [hc] at hcompile
    cases hcompile

end TypeStrip
