import TypeStrip.Session

/-!
# Sessions with plain subscribers

Subscribers that do nothing but listen, or fail, cannot reach a workflow.  So an event leaves a
session as it was, up to what has been heard and logged.

* `Reaction.Plain`, `Session.Calm`   subscribers that perform no action of their own;
* `Session.Agrees`                   the same workflows, agents and names;
* `Session.agrees_deliver`           an event changes nothing of these;
* `Session.transition_eq`            a transition changes the phase of one workflow.
-/

namespace TypeStrip

/-! ### Lists of which one item is changed -/

section
variable {α β : Type} {f : α → α}

theorem forall_mem_modify {p : α → Prop} (hf : ∀ x, p x → p (f x)) {l : List α}
    (hl : ∀ x ∈ l, p x) (i : Nat) : ∀ x ∈ l.modify i f, p x := by
  induction l generalizing i with
  | nil => simp
  | cons a l ih =>
    obtain ⟨ha, hl⟩ := List.forall_mem_cons.mp hl
    cases i with
    | zero => exact List.forall_mem_cons.mpr ⟨hf a ha, hl⟩
    | succ i => exact List.forall_mem_cons.mpr ⟨ha, ih hl i⟩

/-- What the change keeps is the same for the whole list. -/
theorem map_modify_of_keeps {g : α → β} (h : ∀ x, g (f x) = g x) (l : List α) (i : Nat) :
    (l.modify i f).map g = l.map g := by
  induction l generalizing i with
  | nil => simp
  | cons a l ih =>
    cases i with
    | zero => exact congrArg (· :: _) (h a)
    | succ i => exact congrArg (g a :: ·) (ih i)

end

/-! ### Plain subscribers -/

/-- A reaction that performs no action. -/
def Reaction.Plain : Reaction → Prop
  | .quiet | .fail _ => True
  | .perform _ _ => False

namespace Session

/-- No subscriber performs an action. -/
def Calm (s : Session) : Prop := ∀ g ∈ s.agents, ∀ sub ∈ g.subscriptions, sub.reaction.Plain

/-! ### Agreement -/

/-- The same workflows, remembered and bound to agents in the same way; what was heard and logged,
and how often subscribers have reacted, may differ. -/
structure Agrees (s s' : Session) : Prop where
  workflows : s'.workflows = s.workflows
  names : s'.names = s.names
  current : s'.current = s.current
  bindings : s'.agents.map Agent.workflow = s.agents.map Agent.workflow
  calm : s.Calm → s'.Calm

theorem workflowOf_eq (s : Session) (a : Nat) :
    s.workflowOf a = (s.agents.map Agent.workflow)[a]?.getD 0 := by
  rw [workflowOf, List.getElem?_map]
  cases s.agents[a]? <;> rfl

namespace Agrees

variable {s s' s'' : Session}

theorem refl (s : Session) : Agrees s s := ⟨rfl, rfl, rfl, rfl, id⟩

theorem trans (h : Agrees s s') (h' : Agrees s' s'') : Agrees s s'' where
  workflows := h'.workflows.trans h.workflows
  names := h'.names.trans h.names
  current := h'.current.trans h.current
  bindings := h'.bindings.trans h.bindings
  calm := h'.calm ∘ h.calm

theorem update (h : Agrees s s') (i : Nat) (f : Workflow → Workflow) :
    Agrees (s.update i f) (s'.update i f) where
  workflows := by
    show s'.workflows.modify i f = s.workflows.modify i f
    rw [h.workflows]
  names := h.names
  current := h.current
  bindings := h.bindings
  calm := h.calm

theorem workflow_eq (h : Agrees s s') (i : Nat) : s'.workflow i = s.workflow i := by
  rw [workflow, h.workflows]
  rfl

theorem workflowOf_eq (h : Agrees s s') (a : Nat) : s'.workflowOf a = s.workflowOf a := by
  rw [Session.workflowOf_eq, h.bindings, ← Session.workflowOf_eq]

theorem length_agents (h : Agrees s s') : s'.agents.length = s.agents.length := by
  have hl := congrArg List.length h.bindings
  rwa [List.length_map, List.length_map] at hl

end Agrees

theorem agrees_note (level : LogLevel) (message : Text) (s : Session) :
    Agrees s (s.note level message) := ⟨rfl, rfl, rfl, rfl, id⟩

theorem agrees_log (records : List LogRecord) (s : Session) :
    Agrees s { s with log := records } := ⟨rfl, rfl, rfl, rfl, id⟩

/-! ### Events -/

variable {react : React} {s : Session} {a : Nat} {e : Event}

theorem agrees_countReaction (a i : Nat) (s : Session) : Agrees s (s.countReaction a i) where
  workflows := rfl
  names := rfl
  current := rfl
  bindings := by
    apply map_modify_of_keeps
    intro g
    rfl
  calm hs := by
    refine forall_mem_modify (fun g hg => ?_) hs a
    refine forall_mem_modify (fun sub hsub => ?_) hg i
    exact hsub

theorem agrees_hear {i : Nat} {sub : Subscription} (hsub : sub.reaction.Plain) :
    Agrees s (s.hear react a i sub e) := by
  have hheard : Agrees s { s with heard := s.heard ++ [⟨sub.label, e⟩] } := ⟨rfl, rfl, rfl, rfl, id⟩
  unfold hear
  dsimp only
  split
  · have hcount := hheard.trans (agrees_countReaction a i _)
    split
    · exact hcount
    · exact hcount.trans (agrees_note _ _ _)
    · next hreaction =>
      rw [hreaction] at hsub
      exact hsub.elim
  · exact hheard

theorem agrees_subscribe (a : Nat) {sub : Subscription} (hsub : sub.reaction.Plain) (s : Session) :
    Agrees s (s.subscribe a sub) where
  workflows := rfl
  names := rfl
  current := rfl
  bindings := by
    apply map_modify_of_keeps
    intro g
    rfl
  calm hs := by
    refine forall_mem_modify (fun g hg => ?_) hs a
    intro sub' hsub'
    rcases List.mem_append.mp hsub' with hold | hnew
    · exact hg sub' hold
    · rw [List.mem_singleton.mp hnew]
      exact hsub

theorem Calm.plain (hs : s.Calm) {i : Nat} {sub : Subscription}
    (h : (s.agents[a]?.getD default).subscriptions[i]? = some sub) : sub.reaction.Plain := by
  cases hg : s.agents[a]? with
  | none =>
    rw [hg] at h
    cases h
  | some g =>
    rw [hg] at h
    exact hs g (List.mem_of_getElem? hg) sub (List.mem_of_getElem? h)

theorem agrees_tell (hs : s.Calm) (n i : Nat) : Agrees s (s.tell react a e n i) := by
  induction n generalizing s i with
  | zero => exact Agrees.refl s
  | succ n ih =>
    unfold tell
    split
    · exact Agrees.refl s
    · next sub hsub =>
      have hhear : Agrees s (s.hear react a i sub e) := agrees_hear (hs.plain hsub)
      exact hhear.trans (ih (hhear.calm hs) (i + 1))

theorem agrees_deliver (hs : s.Calm) : Agrees s (s.deliver react a e) := by
  have hnote := agrees_note .debug
    ("UIAgent event: ".toList ++ e.label.toList ++ " — ".toList ++ e.message) s
  exact hnote.trans (agrees_tell (hnote.calm hs) _ 0)

/-! ### Transitions -/

theorem transition_eq (hs : s.Calm) {target : Phase}
    (ht : target ∈ (s.workflow (s.workflowOf a)).phase.successors) :
    ∃ s', s.transition react a target = .ok s' ∧
      Agrees (s.update (s.workflowOf a) fun w => { w with phase := target }) s' := by
  unfold transition
  dsimp only
  rw [if_pos ht]
  exact ⟨_, rfl, ((agrees_note _ _ s).update _ _).trans (agrees_deliver hs)⟩

end Session

end TypeStrip
