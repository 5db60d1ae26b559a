import TypeStrip.Proofs.Failures
import TypeStrip.Proofs.Sessions.Agreement

/-!
# Compile requests

What a compile request does to a session with plain subscribers: it changes one workflow, all at
once, and nothing else.

* `Session.update_update`, `Session.workflow_update_self`   changes of one workflow;
* `Workflow.answer`                                         a workflow behind a request;
* `Session.compileWith_eq`                                  a request takes its workflow there.
-/

namespace TypeStrip

/-- The workflow with the outcome of a request for `source` that took `ticks`. -/
def Workflow.receive (source : Text) (ticks : Nat) (outcome : Except CompileFault Compilation)
    (w : Workflow) : Workflow :=
  match outcome with
  | .ok c =>
    { w with phase := .compiled, result := some c, failure := none,
             history := record w.history ⟨preview source, none, ticks⟩ }
  | .error e =>
    { w with phase := .error, failure := some e.failure,
             history := record w.history ⟨preview source, some e.failure, ticks⟩ }

def Workflow.answer (source : Text) (ticks : Nat) (w : Workflow) : Workflow :=
  { w with source := source, result := none }.receive source ticks (compile w.options source)

namespace Session

variable {react : React} {s s' : Session} {a i : Nat}

/-! ### Changes of one workflow -/

theorem update_update (i : Nat) (f g : Workflow → Workflow) (s : Session) :
    (s.update i f).update i g = s.update i (g ∘ f) := by
  simp only [update, List.modify_modify_eq]

theorem workflow_update_self (f : Workflow → Workflow) (hi : i < s.workflows.length) :
    (s.update i f).workflow i = f (s.workflow i) := by
  simp [workflow, update, hi]

/-- Only what happens to the workflow at hand matters. -/
theorem update_congr {f g : Workflow → Workflow} (h : f (s.workflow i) = g (s.workflow i)) :
    s.update i f = s.update i g := by
  unfold update
  congr 1
  apply List.ext_getElem?
  intro j
  rw [List.getElem?_modify, List.getElem?_modify]
  by_cases hj : i = j
  · subst hj
    cases hw : s.workflows[i]? with
    | none => rfl
    | some w =>
      have hwi : s.workflow i = w := by rw [workflow, hw]; rfl
      rw [hwi] at h
      simpa using h
  · simp [hj]

theorem Agrees.then_update {f : Workflow → Workflow} (h : Agrees (s.update i f) s')
    (g : Workflow → Workflow) : Agrees (s.update i (g ∘ f)) (s'.update i g) := by
  rw [← update_update]
  exact h.update i g

/-! ### The end of a request -/

theorem conclude_eq (hs : s.Calm) (hi : s.workflowOf a = i) {target : Phase}
    (ht : target ∈ (s.workflow i).phase.successors) (e : Event) (b : Bool) :
    ∃ s', s.conclude react a target e b = (.ok b, s') ∧
      Agrees (s.update i fun w => { w with phase := target }) s' := by
  subst hi
  obtain ⟨s₁, h₁, hs₁⟩ : ∃ s₁, s.transition react a target = .ok s₁ ∧ _ := transition_eq hs ht
  unfold conclude
  rw [h₁]
  exact ⟨_, rfl, hs₁.trans (agrees_deliver (hs₁.calm hs))⟩

/-- A request ends as it was left off: the workflow takes the last change of phase on top of the
changes before it. -/
theorem Agrees.conclude {f : Workflow → Workflow} (h : Agrees (s.update i f) s') (hs : s.Calm)
    (ha : s.workflowOf a = i) (hi : i < s.workflows.length) {target : Phase}
    (ht : target ∈ (f (s.workflow i)).phase.successors) (e : Event) (b : Bool) :
    ∃ s'', s'.conclude react a target e b = (.ok b, s'') ∧
      Agrees (s.update i fun w => { f w with phase := target }) s'' := by
  have hbound : s'.workflowOf a = i := (h.workflowOf_eq a).trans ha
  have hphase : target ∈ (s'.workflow i).phase.successors := by
    rw [h.workflow_eq, workflow_update_self f hi]
    exact ht
  obtain ⟨s'', hs'', hagrees⟩ := conclude_eq (h.calm hs) hbound hphase e b
  exact ⟨s'', hs'', (h.then_update _).trans hagrees⟩

theorem Agrees.fail {f : Workflow → Workflow} (h : Agrees (s.update i f) s') (hs : s.Calm)
    (ha : s.workflowOf a = i) (hi : i < s.workflows.length)
    (hp : (f (s.workflow i)).phase = .compiling) (entry : Entry) (shown : Failure) :
    ∃ s'', s'.fail react a entry shown = (.ok false, s'') ∧
      Agrees (s.update i fun w => { f w with history := record (f w).history entry,
                                             failure := some shown, phase := .error }) s'' := by
  have hbound : s'.workflowOf a = i := (h.workflowOf_eq a).trans ha
  have hrecord := h.then_update fun w => { w with history := record w.history entry }
  have hnote := hrecord.trans (agrees_note .error
    ("UIAgent failure: ".toList ++ shown.kind ++ ": ".toList ++ shown.message) _)
  have hshown := hnote.then_update fun w => { w with failure := some shown }
  have hnext : Phase.error ∈ (f (s.workflow i)).phase.successors := by
    rw [hp]
    decide
  obtain ⟨s'', hs'', hagrees⟩ :=
    hshown.conclude hs ha hi hnext (.failed shown.kind shown.message) false
  refine ⟨s'', ?_, hagrees⟩
  show Session.conclude react a .error _ false
    (Session.update (s'.workflowOf a) _ (Session.note _ _
      (Session.update (s'.workflowOf a) _ s'))) = _
  rw [hbound]
  exact hs''

theorem Agrees.respond {f : Workflow → Workflow} (h : Agrees (s.update i f) s') (hs : s.Calm)
    (ha : s.workflowOf a = i) (hi : i < s.workflows.length)
    (hp : (f (s.workflow i)).phase = .compiling) (source : Text) (ticks : Nat)
    (outcome : Except CompileFault Compilation) :
    ∃ s'', s'.respond react a source ticks outcome = (.ok outcome.isOk, s'') ∧
      Agrees (s.update i fun w => (f w).receive source ticks outcome) s'' := by
  cases outcome with
  | ok c =>
    have hbound : s'.workflowOf a = i := (h.workflowOf_eq a).trans ha
    have hnext : Phase.compiled ∈ (f (s.workflow i)).phase.successors := by
      rw [hp]
      decide
    have hresult := h.then_update fun w =>
      { w with result := some c, failure := none,
               history := record w.history ⟨preview source, none, ticks⟩ }
    show ∃ s'', Session.conclude react a .compiled _ true
      (Session.update (s'.workflowOf a) _ s') = _ ∧ _
    rw [hbound]
    exact hresult.conclude hs ha hi hnext _ true
  | error e => exact h.fail hs ha hi hp _ e.failure

/-- The session when the compiler has run: workflow `i` shows the source, and the log has the
records of the run. -/
def started (i : Nat) (o : Options) (source : Text) (s : Session) : Session :=
  { s.update i fun w => { w with source := source, result := none } with
    log := s.log ++ compileLog o source }

/-- A request at rest changes the phase, runs the compiler and responds to its outcome. -/
theorem compileWith_eq_respond (hs : s.Calm) (ha : s.workflowOf a = i)
    (hi : i < s.workflows.length) (hp : (s.workflow i).phase ≠ .compiling) (source : Text)
    (ticks : Nat) : ∃ s₁, s.transition react a .compiling = .ok s₁ ∧
      Agrees (s.update i fun w => { w with phase := .compiling }) s₁ ∧
      s.compileWith react a source ticks none =
        (s₁.started i (s.workflow i).options source).respond react a source ticks
          (compile (s.workflow i).options source) := by
  have hstart : Phase.compiling ∈ (s.workflow (s.workflowOf a)).phase.successors := by
    rw [ha]
    revert hp
    cases (s.workflow i).phase <;> decide
  obtain ⟨s₁, h₁, hs₁⟩ : ∃ s₁, s.transition react a .compiling = .ok s₁ ∧
    Agrees (s.update (s.workflowOf a) fun w => { w with phase := .compiling }) s₁ :=
      transition_eq hs hstart
  rw [ha] at hs₁
  have hbound : s₁.workflowOf a = i := (hs₁.workflowOf_eq a).trans ha
  have hoptions : ((s₁.update i fun w => { w with source := source, result := none }).workflow
      i).options = (s.workflow i).options := by
    rw [(hs₁.then_update _).workflow_eq, workflow_update_self _ hi]
    rfl
  have hbound' : (s₁.update i fun w => { w with source := source, result := none }).workflowOf a =
    i := hbound
  refine ⟨s₁, h₁, hs₁, ?_⟩
  rw [compileWith_eq_request, request, h₁]
  dsimp only
  rw [hbound, hbound', hoptions]
  rfl

/-- A request at rest takes its workflow to its answer, and tells whether there is a result. -/
theorem compileWith_eq (hs : s.Calm) (ha : s.workflowOf a = i) (hi : i < s.workflows.length)
    (hp : (s.workflow i).phase ≠ .compiling) (source : Text) (ticks : Nat) :
    ∃ s', s.compileWith react a source ticks none =
        (.ok (compile (s.workflow i).options source).isOk, s') ∧
      Agrees (s.update i (Workflow.answer source ticks)) s' := by
  obtain ⟨s₁, -, hs₁, hrequest⟩ : ∃ s₁, s.transition react a .compiling = .ok s₁ ∧ _ :=
    compileWith_eq_respond hs ha hi hp source ticks
  have hs₂ := (hs₁.then_update fun w => { w with source := source, result := none }).trans
    (agrees_log (s₁.log ++ compileLog (s.workflow i).options source) _)
  obtain ⟨s', hs', hagrees⟩ := hs₂.respond hs ha hi rfl source ticks
    (compile (s.workflow i).options source)
  refine ⟨s', hrequest.trans hs', ?_⟩
  have hanswer : s.update i (Workflow.answer source ticks) = s.update i fun w =>
      Workflow.receive source ticks (compile (s.workflow i).options source)
        { w with phase := .compiling, source := source, result := none } := by
    apply update_congr
    unfold Workflow.answer Workflow.receive
    cases compile (s.workflow i).options source <;> rfl
  rw [hanswer]
  exact hagrees

end Session

end TypeStrip
