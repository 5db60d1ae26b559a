import TypeStrip.Proofs.Sessions.Requests

/-!
# Sessions at rest

Between two actions every workflow of a session is at rest: it has not been used, or it shows the
outcome of its last compile request, under the options that it had then.

* `Action.Plain`             the actions of users whose subscribers do not act;
* `Workflow.AtRest`          the three shapes of a workflow between two actions;
* `Session.Sound`            agents, names and the session itself refer to workflows and agents
                             that exist;
* `Session.AtRest`           a sound session all of whose workflows are at rest;
* `Session.AtRest.act`       an action leads from rest to rest;
* `Session.AtRest.after`     and so does any number of actions;
* `Workflow.Settled`         what this says about the fields of a workflow;
* `session_settled`          which holds of every workflow of a session, at any time.
-/

namespace TypeStrip

/-- What users do: they neither set phases by hand nor replace the compiler, and their subscribers
listen or fail, but do not act. -/
def Action.Plain : Action → Prop
  | .compile _ _ broken => broken = none
  | .subscribe _ _ _ reaction => reaction.Plain
  | .transition _ => False
  | .attach | .reset | .dropSession | .configure _ _ | .output | .tokenRows | .tree
  | .historyText => True

/-! ### Workflows at rest -/

/-- The options and the source of a compile request. -/
abbrev Request := Options × Text

/-- A workflow that has not been used, or that shows the outcome of its last request, `last`.  The
options of the workflow may have changed since. -/
inductive Workflow.AtRest (last : Option Request) (w : Workflow) : Prop where
  | fresh (hlast : last = none) (hphase : w.phase = .idle) (hsource : w.source = sampleSource)
      (hresult : w.result = none) (hfailure : w.failure = none) (hhistory : w.history = [])
  | compiled {o : Options} {c : Compilation} {entry : Entry} (hlast : last = some (o, w.source))
      (hcompile : compile o w.source = .ok c) (hphase : w.phase = .compiled)
      (hresult : w.result = some c) (hfailure : w.failure = none)
      (hhistory : w.history.getLast? = some entry) (hentry : entry.failure = none)
  | failed {o : Options} {e : CompileFault} {entry : Entry} (hlast : last = some (o, w.source))
      (hcompile : compile o w.source = .error e) (hphase : w.phase = .error)
      (hresult : w.result = none) (hfailure : w.failure = some e.failure)
      (hhistory : w.history.getLast? = some entry) (hentry : entry.failure = some e.failure)

namespace Workflow

variable {last : Option Request} {w : Workflow}

theorem AtRest.phase_ne (h : w.AtRest last) : w.phase ≠ .compiling := by
  cases h with
  | fresh _ hphase | compiled _ _ hphase | failed _ _ hphase => rw [hphase]; decide

/-- The options for later requests do not matter. -/
theorem AtRest.withOptions (h : w.AtRest last) (o : Options) :
    { w with options := o }.AtRest last := by
  cases h with
  | fresh hlast hphase hsource hresult hfailure hhistory =>
    exact .fresh hlast hphase hsource hresult hfailure hhistory
  | compiled hlast hcompile hphase hresult hfailure hhistory hentry =>
    exact .compiled hlast hcompile hphase hresult hfailure hhistory hentry
  | failed hlast hcompile hphase hresult hfailure hhistory hentry =>
    exact .failed hlast hcompile hphase hresult hfailure hhistory hentry

theorem atRest_new (o : Options) : ({ options := o } : Workflow).AtRest none :=
  .fresh rfl rfl rfl rfl rfl rfl

theorem atRest_answer (source : Text) (ticks : Nat) (w : Workflow) :
    (w.answer source ticks).AtRest (some (w.options, source)) := by
  unfold answer
  cases hc : compile w.options source with
  | ok c => exact .compiled rfl hc rfl rfl rfl (getLast?_record _ _) rfl
  | error e => exact .failed rfl hc rfl rfl rfl (getLast?_record _ _) rfl

end Workflow

/-! ### Sessions at rest -/

namespace Session

/-- Everything that refers to a workflow or an agent refers to one that exists. -/
structure Sound (s : Session) : Prop where
  calm : s.Calm
  bound : ∀ g ∈ s.agents, g.workflow < s.workflows.length
  names : ∀ p ∈ s.names, p.2 < s.agents.length
  current : ∀ i ∈ s.current, i < s.workflows.length

/-- All workflows are at rest; `last i` is the last request of workflow `i`. -/
structure AtRest (last : Nat → Option Request) (s : Session) : Prop extends s.Sound where
  workflows : ∀ (i : Nat) (w : Workflow), s.workflows[i]? = some w → w.AtRest (last i)
  unused : ∀ i, s.workflows.length ≤ i → last i = none

variable {last last' : Nat → Option Request} {s s' : Session}

theorem Sound.workflowOf_lt (h : s.Sound) {a : Nat} (ha : a < s.agents.length) :
    s.workflowOf a < s.workflows.length := by
  rw [workflowOf, List.getElem?_eq_getElem ha]
  exact h.bound _ (List.getElem_mem ha)

theorem Sound.agent?_lt (h : s.Sound) {name : Text} {a : Nat} (ha : s.agent? name = some a) :
    a < s.agents.length := by
  obtain ⟨before, after, hnames, -⟩ := List.lookup_eq_some_iff.mp ha
  exact h.names (name, a) (by rw [hnames]; simp)

theorem getElem?_workflows {i : Nat} (hi : i < s.workflows.length) :
    s.workflows[i]? = some (s.workflow i) := by
  rw [workflow, List.getElem?_eq_getElem hi]
  rfl

theorem Agrees.sound (h : Agrees s s') (hs : s.Sound) : s'.Sound where
  calm := h.calm hs.calm
  bound := by
    intro g hg
    have hmem : g.workflow ∈ s.agents.map Agent.workflow := by
      rw [← h.bindings]
      exact List.mem_map_of_mem hg
    obtain ⟨g', hg', hsame⟩ := List.mem_map.mp hmem
    rw [h.workflows, ← hsame]
    exact hs.bound g' hg'
  names := by
    rw [h.names, h.length_agents]
    exact hs.names
  current := by
    rw [h.current, h.workflows]
    exact hs.current

theorem Sound.update (h : s.Sound) (i : Nat) (f : Workflow → Workflow) : (s.update i f).Sound where
  calm := h.calm
  bound := by
    show ∀ g ∈ s.agents, g.workflow < (s.workflows.modify i f).length
    rw [List.length_modify]
    exact h.bound
  names := h.names
  current := by
    show ∀ j ∈ s.current, j < (s.workflows.modify i f).length
    rw [List.length_modify]
    exact h.current

theorem Sound.remember (h : s.Sound) (w : Workflow) : (s.remember w).Sound where
  calm := h.calm
  bound g hg := by
    show g.workflow < (s.workflows ++ [w]).length
    have hlt := h.bound g hg
    rw [List.length_append, List.length_singleton]
    omega
  names := h.names
  current := by
    rintro i ⟨⟩
    show s.workflows.length < (s.workflows ++ [w]).length
    rw [List.length_append, List.length_singleton]
    omega

/-- A sound session and the number of one of its agents. -/
def SoundAgent (p : Nat × Session) : Prop := p.2.Sound ∧ p.1 < p.2.agents.length

theorem Sound.addAgent (h : s.Sound) {i : Nat} (hi : i < s.workflows.length) :
    SoundAgent (s.addAgent i) := by
  let g : Agent := ⟨i, []⟩
  have hlength : (s.agents ++ [g]).length = s.agents.length + 1 := by simp
  refine ⟨⟨?_, ?_, ?_, h.current⟩, ?_⟩
  · intro g' hg
    rcases List.mem_append.mp hg with hg | hg
    · exact h.calm g' hg
    · rw [List.mem_singleton.mp hg]
      exact nofun
  · intro g' hg
    rcases List.mem_append.mp hg with hg | hg
    · exact h.bound g' hg
    · rw [List.mem_singleton.mp hg]
      exact hi
  · intro p hp
    show p.2 < (s.agents ++ [g]).length
    have hlt := h.names p hp
    omega
  · show s.agents.length < (s.agents ++ [g]).length
    omega

theorem SoundAgent.assign {p : Nat × Session} (h : SoundAgent p) (name : Text) :
    (Session.assign name p).Sound where
  calm := h.1.calm
  bound := h.1.bound
  names := by
    intro q hq
    rcases List.mem_cons.mp hq with rfl | hq
    · exact h.2
    · exact h.1.names q (List.mem_of_mem_filter hq)
  current := h.1.current

theorem Agrees.atRest (h : Agrees s s') (hs : s.AtRest last) : s'.AtRest last where
  toSound := h.sound hs.toSound
  workflows := by
    rw [h.workflows]
    exact hs.workflows
  unused := by
    rw [h.workflows]
    exact hs.unused

/-- One workflow is changed, and remembers its request. -/
theorem AtRest.update {i : Nat} {f : Workflow → Workflow} (h : s.AtRest last)
    (hi : i < s.workflows.length) (hf : (f (s.workflow i)).AtRest (last' i))
    (hlast : ∀ j, j ≠ i → last' j = last j) : (s.update i f).AtRest last' where
  toSound := h.toSound.update i f
  workflows := by
    intro j w hw
    by_cases hj : i = j
    · subst hj
      have hmod : f <$> s.workflows[i]? = some w := by
        rw [← List.getElem?_modify_eq]
        exact hw
      rw [getElem?_workflows hi] at hmod
      cases hmod
      exact hf
    · rw [hlast j (Ne.symm hj)]
      refine h.workflows j w ?_
      rw [← List.getElem?_modify_ne f s.workflows hj]
      exact hw
  unused := by
    intro j hj
    have hlength : (s.workflows.modify i f).length ≤ j := hj
    rw [List.length_modify] at hlength
    rw [hlast j (by omega)]
    exact h.unused j hlength

/-! ### New workflows and agents -/

theorem AtRest.remember (h : s.AtRest last) (o : Options) :
    (s.remember { options := o }).AtRest last where
  toSound := h.toSound.remember _
  workflows := by
    intro i w hw
    have hmem : (s.workflows ++ [{ options := o }])[i]? = some w := hw
    rw [List.getElem?_append] at hmem
    split at hmem
    · exact h.workflows i w hmem
    · next hi =>
      have hnew : w ∈ [({ options := o } : Workflow)] := List.mem_of_getElem? hmem
      rw [List.mem_singleton.mp hnew, h.unused i (Nat.le_of_not_lt hi)]
      exact Workflow.atRest_new o
  unused := by
    intro i hi
    have hlength : (s.workflows ++ [_]).length ≤ i := hi
    rw [List.length_append] at hlength
    exact h.unused i (by omega)

/-- A session and the number of one of its agents. -/
def HasAgent (last : Nat → Option Request) (p : Nat × Session) : Prop :=
  p.2.AtRest last ∧ p.1 < p.2.agents.length

theorem AtRest.addAgent (h : s.AtRest last) {i : Nat} (hi : i < s.workflows.length) :
    HasAgent last (s.addAgent i) :=
  have hsound := h.toSound.addAgent hi
  ⟨⟨hsound.1, h.workflows, h.unused⟩, hsound.2⟩

/-- An agent for a new workflow. -/
theorem AtRest.renew (h : s.AtRest last) (message : Text) (o : Options) :
    HasAgent last (((s.note .info message).remember { options := o }).addAgent
      s.workflows.length) := by
  have hnew := ((agrees_note .info message s).atRest h).remember o
  exact hnew.addAgent (hnew.current _ rfl)

theorem AtRest.attach (h : s.AtRest last) : HasAgent last s.attach := by
  unfold Session.attach
  split
  · next i hi => exact h.addAgent (h.current i hi)
  · exact h.renew _ {}

theorem AtRest.reset (h : s.AtRest last) : HasAgent last s.reset := h.renew _ _

theorem HasAgent.assign {p : Nat × Session} (h : HasAgent last p) (name : Text) :
    (Session.assign name p).AtRest last where
  toSound := SoundAgent.assign ⟨h.1.toSound, h.2⟩ name
  workflows := h.1.workflows
  unused := h.1.unused

/-! ### Actions -/

variable {react : React} {a : Nat}

theorem AtRest.configure (h : s.AtRest last) (ha : a < s.agents.length) (boundary type : Json) :
    (s.settle (s.configure a boundary type)).2.AtRest last := by
  have hi : s.workflowOf a < s.workflows.length := h.workflowOf_lt ha
  unfold Session.configure
  dsimp only
  split
  · exact h
  · next o _ =>
    refine (agrees_note _ _ _).atRest (h.update hi ?_ fun _ _ => rfl)
    exact (h.workflows _ _ (getElem?_workflows hi)).withOptions o

theorem AtRest.subscribe (h : s.AtRest last) {sub : Subscription} (hsub : sub.reaction.Plain) :
    (s.subscribe a sub).AtRest last := (agrees_subscribe a hsub s).atRest h

/-- The request that an action makes of workflow `i`, with the options of the time. -/
def requestFor (s : Session) (i : Nat) (name : Text) : Action → Option Request
  | .compile source _ _ =>
    match s.agent? name with
    | some a => if s.workflowOf a = i then some ((s.workflow i).options, source) else none
    | none => none
  | _ => none

theorem AtRest.compileWith (h : s.AtRest last) (ha : a < s.agents.length) (source : Text)
    (ticks : Nat) : (s.compileWith react a source ticks none).2.AtRest fun i =>
      (if s.workflowOf a = i then some ((s.workflow i).options, source) else none).or (last i) := by
  have hi : s.workflowOf a < s.workflows.length := h.workflowOf_lt ha
  have hrest := h.workflows _ _ (getElem?_workflows hi)
  obtain ⟨s', hs', hagrees⟩ : ∃ s', s.compileWith react a source ticks none = _ ∧
    Agrees (s.update _ (Workflow.answer source ticks)) s' :=
      compileWith_eq h.calm rfl hi hrest.phase_ne source ticks
  rw [hs']
  refine hagrees.atRest (h.update hi ?_ ?_)
  · rw [if_pos rfl]
    exact Workflow.atRest_answer source ticks _
  · intro j hj
    rw [if_neg (Ne.symm hj)]
    rfl

/-- An action through an agent does nothing where there is no such agent. -/
theorem AtRest.through (h : s.AtRest last) {name : Text}
    {f : Nat → Except ActionFault Json × Session}
    (hf : ∀ a, a < s.agents.length → (f a).2.AtRest last) : (s.through name f).2.AtRest last := by
  unfold Session.through
  cases hagent : s.agent? name with
  | none => exact h
  | some a => exact hf a (h.agent?_lt hagent)

theorem AtRest.act (h : s.AtRest last) {action : Action} (hplain : action.Plain) (name : Text) :
    (s.act react name action).2.AtRest fun i => (s.requestFor i name action).or (last i) := by
  cases action with
  | attach => exact h.attach.assign name
  | reset => exact h.reset.assign name
  | dropSession => exact ⟨⟨h.calm, h.bound, h.names, nofun⟩, h.workflows, h.unused⟩
  | configure boundary type => exact h.through fun a ha => h.configure ha boundary type
  | compile source ticks broken =>
    cases hplain
    unfold Session.act Session.through requestFor
    cases hagent : s.agent? name with
    | none => exact h
    | some a => exact h.compileWith (h.agent?_lt hagent) source ticks
  | transition target => exact hplain.elim
  | subscribe label trigger times reaction => exact h.through fun a _ => h.subscribe hplain
  | output | tokenRows | tree | historyText => exact h.through fun _ _ => h

/-! ### Runs -/

/-- The session behind some actions, each through the agent of a name. -/
def after (s : Session) : List (Text × Action) → Session
  | [] => s
  | (name, action) :: rest => after (s.run name action).2 rest

/-- The last request of workflow `i`, during some actions or before. -/
def lastRequest (i : Nat) (last : Option Request) (s : Session) :
    List (Text × Action) → Option Request
  | [] => last
  | (name, action) :: rest =>
    lastRequest i ((s.requestFor i name action).or last) (s.run name action).2 rest

theorem AtRest.after (h : s.AtRest last) {actions : List (Text × Action)}
    (hplain : ∀ p ∈ actions, p.2.Plain) :
    (s.after actions).AtRest fun i => s.lastRequest i (last i) actions := by
  induction actions generalizing s last with
  | nil => exact h
  | cons p actions ih =>
    obtain ⟨name, action⟩ := p
    obtain ⟨hp, hrest⟩ := List.forall_mem_cons.mp hplain
    exact ih (h.act hp name) hrest

theorem atRest_empty : ({} : Session).AtRest fun _ => none :=
  ⟨⟨nofun, nofun, nofun, nofun⟩, nofun, fun _ _ => rfl⟩

end Session

/-! ### Fields of a workflow -/

/-- What phase, source, result, failure and history of a workflow say about each other and about
its last request, `last`. -/
structure Workflow.Settled (last : Option Request) (w : Workflow) : Prop where
  phases : w.phase = .idle ∨ w.phase = .compiled ∨ w.phase = .error
  unused_iff : w.phase = .idle ↔ last = none
  idle_iff : w.phase = .idle ↔ w.history = []
  idle : w.phase = .idle → w.source = sampleSource ∧ w.result = none ∧ w.failure = none
  compiled_iff : w.phase = .compiled ↔ w.result ≠ none
  compiled : w.phase = .compiled → w.failure = none ∧
    (∃ o c, last = some (o, w.source) ∧ compile o w.source = .ok c ∧ w.result = some c) ∧
    ∃ entry, w.history.getLast? = some entry ∧ entry.success = true
  error_iff : w.phase = .error ↔ w.failure ≠ none
  error : w.phase = .error → w.result = none ∧
    ∃ o e d, last = some (o, w.source) ∧ compile o w.source = .error e ∧ e.verdict = .diagnostic d ∧
      w.failure = some ⟨d.kind.toList, d.message⟩ ∧ d.message ≠ [] ∧
      ∃ entry, w.history.getLast? = some entry ∧ entry.success = false ∧ entry.failure = w.failure

theorem Workflow.AtRest.settled {last : Option Request} {w : Workflow} (h : w.AtRest last) :
    w.Settled last := by
  have hused : ∀ {entry : Entry}, w.history.getLast? = some entry → w.history ≠ [] :=
    fun hlast => List.ne_nil_of_mem (List.mem_of_getLast? hlast)
  cases h with
  | fresh hlast hphase hsource hresult hfailure hhistory =>
    constructor <;> simp [hlast, hphase, hsource, hresult, hfailure, hhistory]
  | @compiled o c entry hlast hcompile hphase hresult hfailure hhistory hentry =>
    exact {
      phases := .inr (.inl hphase)
      unused_iff := by simp [hphase, hlast]
      idle_iff := by simp [hphase, hused hhistory]
      idle := by simp [hphase]
      compiled_iff := by simp [hphase, hresult]
      compiled := fun _ => ⟨hfailure, ⟨o, c, hlast, hcompile, hresult⟩, entry, hhistory,
        by rw [Entry.success, hentry]; rfl⟩
      error_iff := by simp [hphase, hfailure]
      error := by simp [hphase] }
  | @failed o e entry hlast hcompile hphase hresult hfailure hhistory hentry =>
    obtain ⟨d, hd⟩ := compile_reports hcompile
    rw [CompileFault.failure_eq hd] at hfailure hentry
    exact {
      phases := .inr (.inr hphase)
      unused_iff := by simp [hphase, hlast]
      idle_iff := by simp [hphase, hused hhistory]
      idle := by simp [hphase]
      compiled_iff := by simp [hphase, hresult]
      compiled := by simp [hphase]
      error_iff := by simp [hphase, hfailure]
      error := fun _ => ⟨hresult, o, e, d, hlast, hcompile, hd, hfailure,
        compile_message_ne_nil hcompile hd, entry, hhistory,
        by rw [Entry.success, hentry]; rfl, hentry.trans hfailure.symm⟩ }

/-- **Every workflow of a session is settled, whatever users have done.** -/
theorem session_settled (actions : List (Text × Action)) (hplain : ∀ p ∈ actions, p.2.Plain)
    (i : Nat) (w : Workflow) (hw : (Session.after {} actions).workflows[i]? = some w) :
    w.Settled (Session.lastRequest i none {} actions) :=
  ((Session.atRest_empty.after hplain).workflows i w hw).settled

/-- Two agents of one workflow, with a subscriber that fails; the second request fails, and then
the options change. -/
theorem session_settled_reconfigured :
    let actions : List (Text × Action) :=
      [("a".toList, .attach), ("a".toList, .subscribe "log".toList none 2 (.fail "full".toList)),
        ("b".toList, .attach), ("a".toList, .compile "return 1;".toList 3 none),
        ("b".toList, .compile "return".toList 1 none),
        ("a".toList, .configure (.bool false) (.bool false))]
    ∃ w, (Session.after {} actions).workflows[0]? = some w ∧ w.phase = .error ∧
      w.options = ⟨false, false⟩ ∧ w.Settled (some ({}, "return".toList)) := by
  intro actions
  have hplain : ∀ p ∈ actions, p.2.Plain := by
    simp [actions, Action.Plain, Reaction.Plain]
  have hlast : Session.lastRequest 0 none {} actions = some ({}, "return".toList) := by
    decide +kernel
  have hshown : (Session.after {} actions).workflows[0]?.map
      (fun w => (w.phase, w.options)) = some (.error, ⟨false, false⟩) := by decide +kernel
  obtain ⟨w, hw, hfields⟩ := Option.map_eq_some_iff.mp hshown
  have hsettled := session_settled actions hplain 0 w hw
  rw [hlast] at hsettled
  exact ⟨w, hw, congrArg Prod.fst hfields, congrArg Prod.snd hfields, hsettled⟩

end TypeStrip
