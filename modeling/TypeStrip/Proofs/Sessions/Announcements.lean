import TypeStrip.Proofs.Sessions.Requests

/-!
# What is told

What the subscribers of an agent hear of a compile request, and which changes of phase the log
tells of, in a session with plain subscribers.

* `Session.labels`          the subscribers of an agent, in order;
* `LogRecord.change`        the change of phase that a log record tells of;
* `announced`               some events, each told to some subscribers;
* `Session.Grows`           more has been heard and logged, and nothing forgotten;
* `Session.grows_deliver`   an event reaches every subscriber of an agent, in order;
* `requestEvents`           the events of a request;
* `Session.grows_compileWith`   a request tells these and no others.
-/

namespace TypeStrip

/-! ### Changes of phase -/

/-- From one phase to the next. -/
abbrev Change := Phase × Phase

namespace LogRecord

def workflowMessage (c : Change) : Text :=
  "Workflow: ".toList ++ c.1.label.toList ++ " → ".toList ++ c.2.label.toList

def allChanges : List Change :=
  [Phase.idle, .compiling, .compiled, .error].product [.idle, .compiling, .compiled, .error]

/-- The change of phase that a record tells of, if it tells of one. -/
def change (r : LogRecord) : Option Change :=
  if r.component = .agent then allChanges.find? fun c => r.message == workflowMessage c else none

theorem change_workflow (c : Change) : change ⟨.info, .agent, workflowMessage c⟩ = some c := by
  obtain ⟨p, q⟩ := c
  cases p <;> cases q <;> decide

theorem change_of_component {r : LogRecord} (h : r.component ≠ .agent) : r.change = none :=
  if_neg h

/-- The messages about changes of phase can be told from all others by their first letter. -/
theorem change_of_head {r : LogRecord} {x : Char} (h : r.message.head? = some x) (hx : x ≠ 'W') :
    r.change = none := by
  unfold change
  split
  · apply List.find?_eq_none.mpr
    intro c _ hc
    rw [beq_iff_eq.mp hc] at h
    have hhead : (workflowMessage c).head? = some 'W' := rfl
    exact hx (Option.some.inj (h.symm.trans hhead))
  · rfl

end LogRecord

/-- The change of phase that an event is about. -/
def Event.change : Event → Option Change
  | .phaseChanged previous current => some (previous, current)
  | .compiled _ _ | .failed _ _ => none

/-- Each of the events, told to each of the subscribers. -/
def announced (events : List Event) (labels : List Text) : List Heard :=
  events.flatMap fun e => labels.map fun l => ⟨l, e⟩

theorem announced_append (events events' : List Event) (labels : List Text) :
    announced (events ++ events') labels = announced events labels ++ announced events' labels :=
  List.flatMap_append

theorem announced_singleton (e : Event) (labels : List Text) :
    announced [e] labels = labels.map fun l => ⟨l, e⟩ := by
  simp [announced]

/-- The events behind the first of a request. -/
def outcomeEvents : Except CompileFault Compilation → List Event
  | .ok c => [.phaseChanged .compiling .compiled, .compiled c.tokens.length c.tree.functionNames]
  | .error e => [.phaseChanged .compiling .error, .failed e.failure.kind e.failure.message]

/-- The events of a request that begins in phase `p`. -/
def requestEvents (p : Phase) (outcome : Except CompileFault Compilation) : List Event :=
  .phaseChanged p .compiling :: outcomeEvents outcome

namespace Session

/-- The labels of the subscribers of agent `a`, in order. -/
def labels (s : Session) (a : Nat) : List Text :=
  (s.agents[a]?.getD default).subscriptions.map Subscription.label

theorem labels_eq (s : Session) (a : Nat) : s.labels a =
    (s.agents.map fun g => g.subscriptions.map Subscription.label)[a]?.getD [] := by
  rw [labels, List.getElem?_map]
  cases s.agents[a]? <;> rfl

/-- The changes of phase in the log. -/
def changes (s : Session) : List Change := s.log.filterMap LogRecord.change

/-! ### Growth -/

/-- Subscribers have heard `heard`, and the log tells of the changes `told`.  Nobody has subscribed,
and nobody has reacted but subscribers of agent `a`. -/
structure Grows (a : Nat) (heard : List Heard) (told : List Change) (s s' : Session) : Prop where
  heard : s'.heard = s.heard ++ heard
  changes : s'.changes = s.changes ++ told
  labels : ∀ b, s'.labels b = s.labels b
  others : ∀ b, b ≠ a → s'.agents[b]? = s.agents[b]?

variable {react : React} {s s' s'' : Session} {a i : Nat} {e : Event} {heard heard' : List Heard}
  {told told' : List Change}

theorem Grows.trans (h : Grows a heard told s s') (h' : Grows a heard' told' s' s'') :
    Grows a (heard ++ heard') (told ++ told') s s'' where
  heard := by rw [h'.heard, h.heard, List.append_assoc]
  changes := by rw [h'.changes, h.changes, List.append_assoc]
  labels b := (h'.labels b).trans (h.labels b)
  others b hb := (h'.others b hb).trans (h.others b hb)

/-- What leaves subscribers and log alone. -/
theorem Grows.of_eq (hheard : s'.heard = s.heard) (hlog : s'.log = s.log)
    (hagents : s'.agents = s.agents) : Grows a [] [] s s' where
  heard := by rw [hheard, List.append_nil]
  changes := by rw [Session.changes, hlog, List.append_nil, Session.changes]
  labels b := by rw [Session.labels, hagents, Session.labels]
  others b _ := by rw [hagents]

theorem grows_update (a i : Nat) (f : Workflow → Workflow) (s : Session) :
    Grows a [] [] s (s.update i f) := .of_eq rfl rfl rfl

theorem grows_log (a : Nat) (records : List LogRecord) (s : Session) :
    Grows a [] (records.filterMap LogRecord.change) s { s with log := s.log ++ records } where
  heard := (List.append_nil _).symm
  changes := List.filterMap_append
  labels _ := rfl
  others _ _ := rfl

/-- A record that is not about a change of phase. -/
theorem grows_note (a : Nat) (level : LogLevel) (message : Text) {x : Char}
    (h : message.head? = some x) (hx : x ≠ 'W') (s : Session) :
    Grows a [] [] s (s.note level message) := by
  have hchange : LogRecord.change ⟨level, .agent, message⟩ = none :=
    LogRecord.change_of_head h hx
  have hlog := grows_log a [⟨level, .agent, message⟩] s
  rwa [List.filterMap_cons_none hchange] at hlog

/-! ### Events -/

theorem grows_countReaction (a i : Nat) (s : Session) :
    Grows a [] [] s (s.countReaction a i) where
  heard := (List.append_nil _).symm
  changes := (List.append_nil _).symm
  labels b := by
    rw [labels_eq, labels_eq]
    congr 2
    apply map_modify_of_keeps
    intro g
    apply map_modify_of_keeps
    intro sub
    rfl
  others b hb := List.getElem?_modify_ne _ _ (Ne.symm hb)

theorem grows_hear {sub : Subscription} (hsub : sub.reaction.Plain) :
    Grows a [⟨sub.label, e⟩] [] s (s.hear react a i sub e) := by
  have hheard : Grows a [⟨sub.label, e⟩] [] s { s with heard := s.heard ++ [⟨sub.label, e⟩] } :=
    ⟨rfl, (List.append_nil _).symm, fun _ => rfl, fun _ _ => rfl⟩
  unfold hear
  dsimp only
  split
  · have hcount := hheard.trans (grows_countReaction a i _)
    split
    · exact hcount
    · exact hcount.trans (grows_note a _ _ rfl (by decide) _)
    · next hreaction =>
      rw [hreaction] at hsub
      exact hsub.elim
  · exact hheard

theorem getElem?_labels (s : Session) (a i : Nat) : (s.labels a)[i]? =
    ((s.agents[a]?.getD default).subscriptions[i]?).map Subscription.label :=
  List.getElem?_map

/-- From subscriber number `i` on, as long as the bound `n` does not cut them off. -/
theorem grows_tell (hs : s.Calm) (n i : Nat) (hn : (s.labels a).length ≤ n + i) :
    Grows a (((s.labels a).drop i).map fun l => ⟨l, e⟩) [] s (s.tell react a e n i) := by
  induction n generalizing s i with
  | zero =>
    rw [List.drop_eq_nil_of_le (by omega)]
    exact .of_eq rfl rfl rfl
  | succ n ih =>
    have hlabel := getElem?_labels s a i
    unfold tell
    split
    · next hnone =>
      rw [hnone] at hlabel
      rw [List.drop_eq_nil_of_le (List.getElem?_eq_none_iff.mp hlabel)]
      exact .of_eq rfl rfl rfl
    · next sub hsub =>
      have hplain : sub.reaction.Plain := hs.plain hsub
      have hhear : Grows a [⟨sub.label, e⟩] [] s (s.hear react a i sub e) := grows_hear hplain
      have hcalm : (s.hear react a i sub e).Calm := (agrees_hear hplain).calm hs
      have hrest := ih hcalm (i + 1) (by rw [hhear.labels]; omega)
      rw [hhear.labels] at hrest
      rw [hsub, Option.map_some] at hlabel
      obtain ⟨hi, hget⟩ := List.getElem?_eq_some_iff.mp hlabel
      rw [List.drop_eq_getElem_cons hi, hget]
      exact hhear.trans hrest

theorem length_labels (s : Session) (a : Nat) :
    (s.labels a).length = (s.agents[a]?.getD default).subscriptions.length := List.length_map _

theorem grows_deliver (hs : s.Calm) :
    Grows a (announced [e] (s.labels a)) [] s (s.deliver react a e) := by
  have hnote : Grows a [] [] s (s.note .debug
      ("UIAgent event: ".toList ++ e.label.toList ++ " — ".toList ++ e.message)) :=
    grows_note a .debug _ rfl (by decide) s
  have hbound : (s.labels a).length ≤
      (s.agents[a]?.getD default).subscriptions.length + s.weight + 0 := by
    rw [length_labels]
    omega
  rw [announced_singleton]
  unfold deliver
  exact hnote.trans (grows_tell ((agrees_note _ _ s).calm hs) _ 0 hbound)

/-! ### Transitions -/

theorem grows_transition (hs : s.Calm) {target : Phase}
    (h : s.transition react a target = .ok s') :
    Grows a (announced [.phaseChanged (s.workflow (s.workflowOf a)).phase target] (s.labels a))
      [((s.workflow (s.workflowOf a)).phase, target)] s s' := by
  unfold transition at h
  dsimp only at h
  split at h
  · cases h
    have hlog := grows_log a [⟨.info, .agent,
      LogRecord.workflowMessage ((s.workflow (s.workflowOf a)).phase, target)⟩] s
    rw [List.filterMap_cons_some (LogRecord.change_workflow _)] at hlog
    have hupdate := hlog.trans (grows_update a (s.workflowOf a)
      (fun w => { w with phase := target }) _)
    refine hupdate.trans (?_ : Grows a _ [] _ _)
    exact grows_deliver ((Agrees.update (agrees_note _ _ s) _ _).calm hs)
  · cases h

/-! ### Requests -/

/-- A change of one workflow that is not about its phase changes no phase. -/
theorem phase_update {f : Workflow → Workflow} (hf : ∀ w, (f w).phase = w.phase) (i j : Nat)
    (s : Session) : ((s.update i f).workflow j).phase = (s.workflow j).phase := by
  unfold workflow update
  dsimp only
  by_cases hj : i = j
  · subst hj
    rw [List.getElem?_modify_eq]
    cases s.workflows[i]? with
    | none => rfl
    | some w => exact hf w
  · rw [List.getElem?_modify_ne f s.workflows hj]

/-- A request ends as it was left off. -/
theorem Grows.conclude (h : Grows a [] [] s s') (hs : s'.Calm) {p target : Phase}
    (hp : (s'.workflow (s'.workflowOf a)).phase = p) (ht : target ∈ p.successors) (e : Event)
    (b : Bool) : Grows a (announced [.phaseChanged p target, e] (s.labels a)) [(p, target)] s
      (s'.conclude react a target e b).2 := by
  subst hp
  obtain ⟨s₁, h₁, hs₁⟩ : ∃ s₁, s'.transition react a target = .ok s₁ ∧ _ := transition_eq hs ht
  have htransition := grows_transition hs h₁
  have hevent : Grows a (announced [e] (s₁.labels a)) [] s₁ (s₁.deliver react a e) :=
    grows_deliver (hs₁.calm hs)
  rw [htransition.labels] at hevent
  have hboth := h.trans (htransition.trans hevent)
  rw [← announced_append, h.labels] at hboth
  unfold Session.conclude
  rw [h₁]
  exact hboth

theorem grows_fail (hs : s.Calm) (hp : (s.workflow (s.workflowOf a)).phase = .compiling)
    (entry : Entry) (shown : Failure) :
    Grows a (announced [.phaseChanged .compiling .error, .failed shown.kind shown.message]
      (s.labels a)) [(.compiling, .error)] s (s.fail react a entry shown).2 := by
  have hrecord : Grows a [] [] s (s.update (s.workflowOf a) fun w =>
      { w with history := record w.history entry }) := grows_update a _ _ s
  have hnote := hrecord.trans (grows_note a .error
    ("UIAgent failure: ".toList ++ shown.kind ++ ": ".toList ++ shown.message) rfl (by decide) _)
  have hshown := hnote.trans (grows_update a (s.workflowOf a)
    (fun w => { w with failure := some shown }) _)
  refine hshown.conclude hs ?_ (by decide) _ false
  calc _ = _ := phase_update (by intro w; rfl) _ _ _
    _ = _ := phase_update (by intro w; rfl) _ _ s
    _ = _ := hp

theorem grows_respond (hs : s.Calm) (ha : s.workflowOf a = i)
    (hp : (s.workflow i).phase = .compiling) (source : Text) (ticks : Nat)
    (outcome : Except CompileFault Compilation) :
    Grows a (announced (outcomeEvents outcome) (s.labels a))
      ((outcomeEvents outcome).filterMap Event.change) s
      (s.respond react a source ticks outcome).2 := by
  subst ha
  cases outcome with
  | ok c =>
    have hresult := grows_update a (s.workflowOf a) (fun w =>
      { w with result := some c, failure := none,
               history := record w.history ⟨preview source, none, ticks⟩ }) s
    refine hresult.conclude hs ?_ (by decide) _ true
    exact (phase_update (by intro w; rfl) _ _ s).trans hp
  | error e => exact grows_fail hs hp _ e.failure

/-- The compiler writes no records in the name of the agents. -/
theorem changes_compileLog (o : Options) (source : Text) :
    (compileLog o source).filterMap LogRecord.change = [] := by
  have hscan : ∀ r ∈ scanLog o source, r.component ≠ .agent := by
    unfold scanLog
    split <;> simp
  have hfunctions : ∀ fs : List (Name × Nat), ∀ r ∈ fs.map functionRecord,
      r.component ≠ .agent := by
    intro fs r hr
    obtain ⟨f, -, rfl⟩ := List.mem_map.mp hr
    simp [functionRecord]
  have hparse : ∀ tokens, ∀ r ∈ parseLog o tokens, r.component ≠ .agent := by
    intro tokens
    unfold parseLog
    split
    · exact hfunctions _
    · exact List.forall_mem_append.mpr ⟨hfunctions _, by simp⟩
  have houtcome : ∀ r ∈ outcomeLog (compile o source), r.component ≠ .agent := by
    unfold outcomeLog
    split
    · simp
    · split <;> simp
  have hall : ∀ r ∈ compileLog o source, r.component ≠ .agent := by
    unfold compileLog
    refine List.forall_mem_append.mpr ⟨List.forall_mem_append.mpr
      ⟨List.forall_mem_append.mpr ⟨by simp, hscan⟩, ?_⟩, houtcome⟩
    split
    · simp
    · exact hparse _
  exact List.filterMap_eq_nil_iff.mpr fun r hr => LogRecord.change_of_component (hall r hr)

theorem grows_started (a i : Nat) (o : Options) (source : Text) (s : Session) :
    Grows a [] [] s (s.started i o source) := by
  have hlog := grows_log a (compileLog o source)
    (s.update i fun w => { w with source := source, result := none })
  rw [changes_compileLog] at hlog
  exact (grows_update a i _ s).trans hlog

/-- A request at rest tells of its three events. -/
theorem grows_compileWith (hs : s.Calm) (ha : s.workflowOf a = i) (hi : i < s.workflows.length)
    (hp : (s.workflow i).phase ≠ .compiling) (source : Text) (ticks : Nat) :
    Grows a (announced (requestEvents (s.workflow i).phase
        (compile (s.workflow i).options source)) (s.labels a))
      ((requestEvents (s.workflow i).phase (compile (s.workflow i).options source)).filterMap
        Event.change) s (s.compileWith react a source ticks none).2 := by
  obtain ⟨s₁, h₁, hs₁, hrequest⟩ : ∃ s₁, s.transition react a .compiling = .ok s₁ ∧ _ :=
    compileWith_eq_respond hs ha hi hp source ticks
  have htransition := grows_transition hs h₁
  have hstarted := htransition.trans (grows_started a i (s.workflow i).options source s₁)
  have hcalm : (s₁.started i (s.workflow i).options source).Calm := hs₁.calm hs
  have hbound : (s₁.started i (s.workflow i).options source).workflowOf a = i :=
    (hs₁.workflowOf_eq a).trans ha
  have hphase : ((s₁.started i (s.workflow i).options source).workflow i).phase = .compiling := by
    have hupdate : ((s₁.update i fun w => { w with source := source, result := none }).workflow
        i).phase = (s₁.workflow i).phase := phase_update (by intro w; rfl) i i s₁
    have hset : s₁.workflow i = { s.workflow i with phase := .compiling } := by
      rw [hs₁.workflow_eq, workflow_update_self _ hi]
    exact hupdate.trans (congrArg Workflow.phase hset)
  have hrespond : Grows a _ _ _
      ((s₁.started i (s.workflow i).options source).respond react a source ticks _).2 :=
    grows_respond hcalm hbound hphase source ticks (compile (s.workflow i).options source)
  rw [hstarted.labels] at hrespond
  have hall := hstarted.trans hrespond
  rw [List.append_nil, ← announced_append, ha] at hall
  rw [hrequest]
  exact hall

end Session

end TypeStrip
