import TypeStrip.Proofs.Sessions.Steps

/-!
# Phases follow their table

Whatever is done to a workflow, in whatever phase it is, its phase changes only as the table of
phases allows; and what is refused changes nothing.

* `Session.Guarded`             what is refused, and that it changes nothing;
* `Session.Sound.guarded`       every session with plain subscribers is guarded;
* `Session.route`               the changes of phase that a workflow goes through;
* `Session.Sound.route_leads`   they are a way through the table;
* `session_guarded`             both, for every session that can be reached.
-/

namespace TypeStrip

theorem Phase.Leads.snd_ne_idle {p q : Phase} {cs : List Change} (h : p.Leads cs q) :
    ∀ c ∈ cs, c.2 ≠ .idle := by
  induction h with
  | refl p => exact nofun
  | @step p q r cs hq _ ih =>
    refine List.forall_mem_cons.mpr ⟨?_, ih⟩
    revert hq
    cases p <;> cases q <;> decide

namespace Session

variable {react : React} {s : Session} {name : Text} {action : Action} {a i : Nat}

/-! ### Refusals -/

/-- What is refused, and that it changes nothing at all. -/
structure Guarded (s : Session) : Prop where
  /-- requests are refused exactly while another one is under way -/
  compile_eq : ∀ name a source ticks, s.agent? name = some a →
    (s.run name (.compile source ticks none)).1 =
      if (s.workflow (s.workflowOf a)).phase = .compiling then
        .error (.refused .compiling .compiling)
      else .ok (.bool (compile (s.workflow (s.workflowOf a)).options source).isOk)
  /-- transitions are refused exactly if the table does not have them -/
  transition_eq : ∀ name a target, s.agent? name = some a →
    (s.run name (.transition target)).1 =
      if target ∈ (s.workflow (s.workflowOf a)).phase.successors then .ok .null
      else .error (.refused (s.workflow (s.workflowOf a)).phase target)
  /-- every workflow is as it was, and nothing has been heard -/
  unchanged : ∀ name action fault, action.Direct → (s.run name action).1 = .error fault →
    (s.run name action).2 = s

theorem Sound.compile_answer (hs : s.Sound) (ha : s.agent? name = some a) (source : Text)
    (ticks : Nat) : (s.run name (.compile source ticks none)).1 =
      if (s.workflow (s.workflowOf a)).phase = .compiling then
        .error (.refused .compiling .compiling)
      else .ok (.bool (compile (s.workflow (s.workflowOf a)).options source).isOk) := by
  show (s.through name _).1 = _
  rw [through_eq ha]
  dsimp only
  split
  · next hphase => rw [compileWith_refused hphase]; rfl
  · next hphase =>
    have hi := hs.workflowOf_lt (hs.agent?_lt ha)
    obtain ⟨s', hs', -⟩ : ∃ s', s.compileWith _ a source ticks none = _ ∧ _ :=
      Session.compileWith_eq hs.calm rfl hi hphase source ticks
    rw [hs']
    rfl

theorem Sound.transition_answer (hs : s.Sound) (ha : s.agent? name = some a) (target : Phase) :
    (s.run name (.transition target)).1 =
      if target ∈ (s.workflow (s.workflowOf a)).phase.successors then .ok .null
      else .error (.refused (s.workflow (s.workflowOf a)).phase target) := by
  show (s.through name _).1 = _
  rw [through_eq ha]
  split
  · next htarget =>
    obtain ⟨s', hs', -⟩ : ∃ s', s.transition _ a target = .ok s' ∧ _ :=
      Session.transition_eq hs.calm htarget
    rw [hs']
    rfl
  · next htarget => rw [transition_refused htarget]; rfl

theorem settle_unchanged {r : Except ActionFault Session} {fault : ActionFault}
    (h : (s.settle r).1 = .error fault) : (s.settle r).2 = s := by
  cases r with
  | error f => rfl
  | ok s' => cases h

theorem through_unchanged {f : Nat → Except ActionFault Json × Session} {fault : ActionFault}
    (hf : ∀ a, s.agent? name = some a → (f a).1 = .error fault → (f a).2 = s)
    (h : (s.through name f).1 = .error fault) : (s.through name f).2 = s := by
  unfold through at h ⊢
  cases ha : s.agent? name with
  | none => rfl
  | some a =>
    rw [ha] at h
    exact hf a ha h

theorem Sound.unchanged (hs : s.Sound) (hd : action.Direct) {fault : ActionFault}
    (h : (s.run name action).1 = .error fault) : (s.run name action).2 = s := by
  cases action with
  | attach => cases h
  | reset => cases h
  | dropSession => cases h
  | configure boundary type => exact through_unchanged (fun a _ => settle_unchanged) h
  | compile source ticks broken =>
    obtain rfl : broken = none := hd
    cases ha : s.agent? name with
    | none => exact through_unchanged (fun a ha' => by rw [ha] at ha'; cases ha') h
    | some a =>
      rw [hs.compile_answer ha] at h
      split at h
      · next hphase =>
        show (s.through name _).2 = _
        rw [through_eq ha]
        dsimp only
        rw [compileWith_refused hphase]
      · cases h
  | transition target => exact through_unchanged (fun a _ => settle_unchanged) h
  | subscribe label trigger times reaction =>
    exact through_unchanged (fun a _ hf => by cases hf) h
  | output | tokenRows | tree | historyText => exact through_unchanged (fun a _ _ => rfl) h

theorem Sound.guarded (hs : s.Sound) : s.Guarded where
  compile_eq _ _ source ticks ha := hs.compile_answer ha source ticks
  transition_eq _ _ target ha := hs.transition_answer ha target
  unchanged _ _ _ hd h := hs.unchanged hd h

/-! ### Routes -/

/-- The changes of phase that workflow `i` goes through during some actions, as the log tells of
them: those of the actions through agents that are bound to it. -/
def route (i : Nat) (s : Session) : List (Text × Action) → List Change
  | [] => []
  | (name, action) :: rest =>
    (if (s.agent? name).map s.workflowOf = some i then
      (s.run name action).2.changes.drop s.changes.length
    else []) ++ route i (s.run name action).2 rest

/-- One action takes a workflow along its part of the route. -/
theorem Sound.run_leads (hs : s.Sound) (hd : action.Direct) (name : Text) (i : Nat) :
    (s.workflow i).phase.Leads
      (if (s.agent? name).map s.workflowOf = some i then
        (s.run name action).2.changes.drop s.changes.length
      else []) ((s.run name action).2.workflow i).phase := by
  cases heffect : s.effect name action with
  | none =>
    have hidles := hs.run_idles hd heffect
    obtain ⟨o, ho⟩ := hidles.workflow i
    rw [hidles.changes, List.drop_length, ite_self, ho]
    exact .refl _
  | some p =>
    obtain ⟨a, w, events⟩ := p
    obtain ⟨ha, haction⟩ := effect_eq_some heffect
    have hmoves := hs.run_moves hd heffect
    rw [hmoves.workflow_eq hs (hs.agent?_lt ha), hmoves.grows.changes, List.drop_left, ha,
      Option.map_some]
    by_cases hi : s.workflowOf a = i
    · subst hi
      rw [if_pos rfl, if_pos rfl]
      exact Action.leads_of_effect haction
    · rw [if_neg (fun h => hi (Option.some.inj h)), if_neg hi]
      exact .refl _

theorem Sound.route_leads (hs : s.Sound) {actions : List (Text × Action)}
    (hd : ∀ p ∈ actions, p.2.Direct) (i : Nat) :
    (s.workflow i).phase.Leads (s.route i actions) ((s.after actions).workflow i).phase := by
  induction actions generalizing s with
  | nil => exact .refl _
  | cons p actions ih =>
    obtain ⟨name, action⟩ := p
    obtain ⟨hp, hrest⟩ := List.forall_mem_cons.mp hd
    have hsound := (hs.run_keeps hp name).sound hs
    exact (hs.run_leads hp name i).trans (ih hsound hrest)

end Session

/-- **Phases follow their table.**  Wherever a session has been led, a request is refused exactly
while another one is under way and a transition exactly if the table does not have it, and neither
changes anything then.  The changes of phase of a workflow are a way through the table; so it is
never idle again. -/
theorem session_guarded (actions : List (Text × Action)) (hdirect : ∀ p ∈ actions, p.2.Direct) :
    (Session.after {} actions).Guarded ∧
    ∀ i, Phase.idle.Leads (Session.route i {} actions)
        ((Session.after {} actions).workflow i).phase ∧
      ∀ c ∈ Session.route i {} actions, c.2 ≠ .idle := by
  have hsound := (Session.sound_empty.after_keeps hdirect).sound Session.sound_empty
  refine ⟨hsound.guarded, fun i => ?_⟩
  have hleads := Session.sound_empty.route_leads hdirect i
  exact ⟨hleads, hleads.snd_ne_idle⟩

/-- A workflow that was set to a request by hand refuses one, and takes one when it was set to the
end of it, although it has no result. -/
theorem session_guarded_by_hand :
    let a := "a".toList
    let actions : List (Text × Action) :=
      [(a, .attach), (a, .subscribe "log".toList none 1 (.fail "full".toList)),
        (a, .transition .compiling)]
    let more : List (Text × Action) := [(a, .compile "return 1;".toList 0 none),
      (a, .transition .idle), (a, .transition .compiled), (a, .compile "return".toList 0 none)]
    let s := Session.after {} actions
    (s.run a (.compile "return 1;".toList 0 none)).1 = .error (.refused .compiling .compiling) ∧
      (s.run a (.compile "return 1;".toList 0 none)).2 = s ∧
      (s.run a (.transition .idle)).1 = .error (.refused .compiling .idle) ∧
      (s.run a (.transition .idle)).2 = s ∧
      Session.route 0 {} (actions ++ more) = [(.idle, .compiling), (.compiling, .compiled),
        (.compiled, .compiling), (.compiling, .error)] ∧
      Phase.idle.Leads (Session.route 0 {} (actions ++ more))
        ((Session.after {} (actions ++ more)).workflow 0).phase := by
  intro a actions more s
  have hdirect : ∀ p ∈ actions, p.2.Direct := by
    simp [actions, Action.Direct, Reaction.Plain]
  have hall : ∀ p ∈ actions ++ more, p.2.Direct := by
    simp [actions, more, Action.Direct, Reaction.Plain]
  have hagent : s.agent? a = some 0 := by decide +kernel
  have hphase : (s.workflow (s.workflowOf 0)).phase = .compiling := by decide +kernel
  have hroute : Session.route 0 {} (actions ++ more) = [(.idle, .compiling),
    (.compiling, .compiled), (.compiled, .compiling), (.compiling, .error)] := by decide +kernel
  obtain ⟨h, -⟩ := session_guarded actions hdirect
  have hcompile := h.compile_eq a 0 "return 1;".toList 0 hagent
  rw [hphase, if_pos rfl] at hcompile
  have htransition := h.transition_eq a 0 .idle hagent
  rw [hphase, if_neg (by decide)] at htransition
  obtain ⟨hleads, -⟩ := (session_guarded (actions ++ more) hall).2 0
  exact ⟨hcompile, h.unchanged _ _ _ rfl hcompile, htransition,
    h.unchanged _ _ _ trivial htransition, hroute, hleads⟩

end TypeStrip
