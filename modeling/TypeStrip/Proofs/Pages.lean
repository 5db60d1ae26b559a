import TypeStrip.Proofs.Pages.Visits

/-!
# Pages in agreement with their session

A page decides in several places, by different tests, what to draw of its session.  All of them
agree, since a session is at rest whenever the page is run.

* `Page.drawing`, `Page.run_eq`   what a run draws, and the session it leaves behind;
* `Page.drawn`                    the calls of one kind at one place of a drawing;
* `Page.drawing_enabled`          nothing is drawn disabled;
* `Page.Faithful`                 a drawing that shows what its session has;
* `Page.drawing_faithful`         such is every drawing that is not cut short;
* `Page.shows_after`              and any number of runs leads to such drawings;
* `page_consistent`               what users see and do, over any number of runs.
-/

namespace TypeStrip
namespace Page

variable {v : Visit} {s : Session} {w : Workflow} {i : PageInput}

/-! ### One run -/

/-- A run in which a button is pressed is cut short. -/
def pressed (i : PageInput) : Bool := i.resetPressed || i.compilePressed || i.samplePressed

/-- What a run draws of the workflow that it finds. -/
def drawing (i : PageInput) (w : Workflow) : List Element :=
  setup :: sidebar w ++
    if i.resetPressed then inside "sidebar" [rerun]
    else editor w ++ inside "col0" [compileButton w] ++
      if i.compilePressed then inside "col0" [spinner] ++ inside "col0" [rerun]
      else inside "col1" [sampleButton w] ++
        if i.samplePressed then inside "col1" [rerun] else results w

theorem run_eq (h : s.Shows v.workflow) (i : PageInput) : ∃ s' a,
    run i s = ⟨s', drawing i v.workflow, if pressed i then .rerun else .done⟩ ∧
      s'.Attends a (v.next i).workflow := by
  have hagent := h.attach
  obtain ⟨s₁, htake, hs₁⟩ := takeOptions_eq hagent i
  have hoptions : v.workflow.options = v.options := v.options_workflow
  rw [hoptions, ← Visit.workflow_withOptions] at hs₁
  unfold run drawing pressed Visit.next
  dsimp only
  rw [hagent.workflow, htake]
  dsimp only
  cases i.resetPressed with
  | true =>
    have hreset := hs₁.reset
    rw [Visit.options_workflow] at hreset
    exact ⟨_, _, rfl, hreset⟩
  | false =>
    cases i.compilePressed with
    | true =>
      obtain ⟨s₂, hrequest, hs₂⟩ := request_eq hs₁ (i.source.getD v.workflow.source) i.ticks "col0"
        (setup :: sidebar v.workflow ++ editor v.workflow ++
          inside "col0" [compileButton v.workflow] ++ inside "col0" [spinner])
      rw [v.source_workflow, ← Visit.workflow_order] at hs₂
      refine ⟨s₂, _, hrequest.trans ?_, hs₂⟩
      simp
    | false =>
      cases i.samplePressed with
      | true =>
        obtain ⟨s₂, hrequest, hs₂⟩ := request_eq hs₁ sampleSource i.ticks "col1"
          (setup :: sidebar v.workflow ++ editor v.workflow ++
            inside "col0" [compileButton v.workflow] ++ inside "col1" [sampleButton v.workflow])
        rw [← Visit.workflow_order] at hs₂
        refine ⟨s₂, _, hrequest.trans ?_, hs₂⟩
        simp
      | false =>
        refine ⟨s₁, _, ?_, hs₁⟩
        simp

/-! ### Calls at one place -/

/-- The arguments of the calls of one kind at one place, in order. -/
def drawn (place : List String) (call : String) (l : List Element) : List (List Json) :=
  (l.filter fun e => e.place = place && e.call = call).map Element.args

variable {place : List String} {call : String} {container : String} {l : List Element}

theorem drawn_append (place : List String) (call : String) (l m : List Element) :
    drawn place call (l ++ m) = drawn place call l ++ drawn place call m := by
  simp [drawn]

theorem drawn_eq_nil (h : ∀ e ∈ l, e.place = place → e.call ≠ call) : drawn place call l = [] := by
  unfold drawn
  rw [List.map_eq_nil_iff, List.filter_eq_nil_iff]
  intro e he
  simpa using h e he

theorem drawn_inside (container : String) (place : List String) (call : String)
    (l : List Element) : drawn (container :: place) call (inside container l) =
      drawn place call l := by
  have hsame :
      (fun e : Element => decide (e.place = container :: place) && decide (e.call = call)) ∘
      (fun e : Element => { e with place := container :: e.place }) =
        fun e => decide (e.place = place) && decide (e.call = call) := by
    funext e
    simp
  unfold drawn inside
  rw [List.filter_map, List.map_map, hsame]
  rfl

theorem drawn_inside_top (container call : String) (l : List Element) :
    drawn [] call (inside container l) = [] := by
  apply drawn_eq_nil
  intro e he hplace
  obtain ⟨e', -, rfl⟩ := List.mem_map.mp he
  cases hplace

theorem drawn_inside_other {first : String} (h : first ≠ container) :
    drawn (first :: place) call (inside container l) = [] := by
  apply drawn_eq_nil
  intro e he hplace
  obtain ⟨e', -, rfl⟩ := List.mem_map.mp he
  exact absurd (List.cons.inj hplace).1.symm h

/-! ### Widgets -/

/-- No widget of the drawing is disabled. -/
def Enabled (l : List Element) : Prop := ∀ e ∈ l, ("disabled", Json.bool true) ∉ e.named

theorem enabled_append {l m : List Element} (hl : Enabled l) (hm : Enabled m) : Enabled (l ++ m) :=
  List.forall_mem_append.mpr ⟨hl, hm⟩

theorem enabled_inside (container : String) (h : Enabled l) : Enabled (inside container l) := by
  intro e he
  obtain ⟨e', he', rfl⟩ := List.mem_map.mp he
  exact h e' he'

theorem enabled_sidebar (hw : w.isBusy = false) : Enabled (sidebar w) := by
  apply enabled_inside
  have hbox : Enabled (failureBox w) := by
    unfold failureBox
    split
    · simp [Enabled]
    · split <;> simp [Enabled]
  refine enabled_append (enabled_append (enabled_append (enabled_append ?_ hbox) ?_) ?_) ?_
  · simp [Enabled, markdown, divider]
  · simp [Enabled, divider]
  · simp [Enabled, toggles, subheader]
  · simp [Enabled, divider, resetButton, hw]

theorem enabled_resultTab (absent : String) {f : Compilation → List Element}
    (h : ∀ c, Enabled (f c)) : Enabled (resultTab w absent f) := by
  unfold resultTab
  split
  · split
    · exact h _
    · simp [Enabled, info]
  · simp [Enabled, info]

theorem enabled_results (w : Workflow) : Enabled (results w) := by
  refine enabled_append (enabled_append (enabled_append (enabled_append (enabled_append ?_ ?_)
    (enabled_inside _ ?_)) (enabled_inside _ ?_)) (enabled_inside _ ?_)) (enabled_inside _ ?_)
  · unfold errorBox
    split <;> simp [Enabled]
  · simp [Enabled, tabs]
  · exact enabled_resultTab _ fun c => by simp [Enabled]
  · exact enabled_resultTab _ fun c => by simp [Enabled]
  · exact enabled_resultTab _ fun c => by simp [Enabled]
  · unfold historyTab
    split <;> simp [Enabled, subheader, info]

theorem drawing_enabled (hw : w.isBusy = false) (i : PageInput) : Enabled (drawing i w) := by
  have hsetup : Enabled [setup] := by simp [Enabled, setup]
  have hrerun : Enabled [rerun] := by simp [Enabled, rerun]
  have heditor : Enabled (editor w) := by simp [Enabled, editor, subheader, hw]
  have hcompile : Enabled [compileButton w] := by simp [Enabled, compileButton, hw]
  have hspinner : Enabled [spinner] := by simp [Enabled, spinner]
  have hsample : Enabled [sampleButton w] := by simp [Enabled, sampleButton, hw]
  unfold drawing
  refine enabled_append (enabled_append (l := [setup]) hsetup (enabled_sidebar hw)) ?_
  split
  · exact enabled_inside _ hrerun
  refine enabled_append (enabled_append heditor (enabled_inside _ hcompile)) ?_
  split
  · exact enabled_append (enabled_inside _ hspinner) (enabled_inside _ hrerun)
  refine enabled_append (enabled_inside _ hsample) ?_
  split
  · exact enabled_inside _ hrerun
  · exact enabled_results w

/-! ### Full drawings -/

/-- A drawing shows what its session has: `w` is the workflow of the session, and `v` what users
have done. -/
structure Faithful (v : Visit) (w : Workflow) (l : List Element) : Prop where
  /-- the error box of the sidebar -/
  sidebarBox : drawn ["sidebar"] "error" l ≠ [] ↔ w.phase = .error
  /-- the error box above the tabs -/
  mainBox : drawn [] "error" l ≠ [] ↔ w.phase = .error
  /-- the three tabs for the result of the last request since the last reset -/
  tokens : drawn ["tab0"] "dataframe" l =
    match v.result with
    | none => []
    | some c => [[.arr (Workflow.rows 0 c.tokens)]]
  tree : drawn ["tab1"] "json" l =
    match v.result with
    | none => []
    | some c => [[c.tree.toJson]]
  output : drawn ["tab2"] "code" l =
    match v.result with
    | none => []
    | some c => [[.str c.output]]
  /-- the two totals, once there was a request since the last reset -/
  total : drawn ["tab3", "col0"] "metric" l =
    if v.orders = [] then [] else [[lit "Total", .int w.history.length]]
  succeeded : drawn ["tab3", "col1"] "metric" l =
    if v.orders = [] then []
    else [[lit "Succeeded", .int (w.history.filter Entry.success).length]]
  history : w.history = v.history

theorem drawing_of_not_pressed (hi : pressed i = false) (w : Workflow) : drawing i w =
    [setup] ++ sidebar w ++ editor w ++ inside "col0" [compileButton w] ++
      inside "col1" [sampleButton w] ++ results w := by
  simp only [pressed, Bool.or_eq_false_iff] at hi
  simp [drawing, hi]

/-- The calls of a full drawing, part by part. -/
theorem drawn_drawing (hi : pressed i = false) (place : List String) (call : String) :
    drawn place call (drawing i w) = drawn place call [setup] ++ drawn place call (sidebar w) ++
      drawn place call (editor w) ++ drawn place call (inside "col0" [compileButton w]) ++
      drawn place call (inside "col1" [sampleButton w]) ++ (drawn place call (errorBox w) ++
      drawn place call [tabs] ++ drawn place call (inside "tab0" (tokensTab w)) ++
      drawn place call (inside "tab1" (treeTab w)) ++
      drawn place call (inside "tab2" (outputTab w)) ++
      drawn place call (inside "tab3" (historyTab w))) := by
  rw [drawing_of_not_pressed hi, results]
  simp only [drawn_append]

theorem drawn_top (hi : pressed i = false) :
    drawn [] "error" (drawing i w) = drawn [] "error" (errorBox w) := by
  have hsetup : drawn [] "error" [setup] = [] := by apply drawn_eq_nil; simp [setup]
  have heditor : drawn [] "error" (editor w) = [] := by
    apply drawn_eq_nil; simp [editor, subheader]
  have htabs : drawn [] "error" [tabs] = [] := by apply drawn_eq_nil; simp [tabs]
  rw [drawn_drawing hi, hsetup, heditor, htabs, sidebar]
  simp only [drawn_inside_top, List.nil_append, List.append_nil]

/-- What stands inside of something is not among what is drawn directly on the page. -/
theorem drawn_flat (w : Workflow) (container : String) (place : List String) (call : String) :
    drawn (container :: place) call [setup] = [] ∧ drawn (container :: place) call (editor w) = [] ∧
    drawn (container :: place) call (errorBox w) = [] ∧
    drawn (container :: place) call [tabs] = [] := by
  refine ⟨?_, ?_, ?_, ?_⟩ <;> apply drawn_eq_nil
  · simp [setup]
  · simp [editor, subheader]
  · unfold errorBox
    split <;> simp
  · simp [tabs]

theorem drawn_sidebar (hi : pressed i = false) :
    drawn ["sidebar"] "error" (drawing i w) = drawn [] "error" (failureBox w) := by
  obtain ⟨hsetup, heditor, hbox, htabs⟩ := drawn_flat w "sidebar" [] "error"
  have hstatus : drawn [] "error" [markdown "## 🧩 tinyts".toList, divider,
      markdown ("**Status:** :".toList ++ (phaseColor w.phase).toList ++ '[' ::
        w.phase.label.toList ++ [']'])] = [] := by
    apply drawn_eq_nil; simp [markdown, divider]
  have hdivider : drawn [] "error" [divider] = [] := by apply drawn_eq_nil; simp [divider]
  have htoggles : drawn [] "error" (toggles w.options) = [] := by
    apply drawn_eq_nil; simp [toggles, subheader]
  have hreset : drawn [] "error" [divider, resetButton w] = [] := by
    apply drawn_eq_nil; simp [divider, resetButton]
  rw [drawn_drawing hi, hsetup, heditor, hbox, htabs, sidebar, drawn_inside, status]
  simp (disch := decide) only [drawn_append, hstatus, hdivider, htoggles, hreset,
    drawn_inside_other, List.nil_append, List.append_nil]

/-- What stands in a tab is what was drawn for it. -/
theorem drawn_tab (hi : pressed i = false) (place : List String) (call : String) :
    drawn ("tab0" :: place) call (drawing i w) = drawn place call (tokensTab w) ∧
    drawn ("tab1" :: place) call (drawing i w) = drawn place call (treeTab w) ∧
    drawn ("tab2" :: place) call (drawing i w) = drawn place call (outputTab w) ∧
    drawn ("tab3" :: place) call (drawing i w) = drawn place call (historyTab w) := by
  have hflat := fun container => drawn_flat w container place call
  refine ⟨?_, ?_, ?_, ?_⟩ <;>
    simp (disch := decide) only [drawn_drawing hi, hflat, sidebar, drawn_inside,
      drawn_inside_other, List.nil_append, List.append_nil]

/-! ### What a session shows -/

theorem sidebarBox_iff {last : Option Request} (hw : w.AtRest last) :
    drawn [] "error" (failureBox w) ≠ [] ↔ w.phase = .error := by
  have hsettled := hw.settled
  unfold failureBox
  cases hf : w.failure with
  | none =>
    have hphase : ¬ w.phase = .error := fun he => hsettled.error_iff.mp he hf
    simp [drawn, hphase]
  | some f =>
    have hphase : w.phase = .error := hsettled.error_iff.mpr (by simp [hf])
    obtain ⟨-, o, e, d, -, -, -, hfailure, hne, -⟩ := hsettled.error hphase
    rw [hf] at hfailure
    cases hfailure
    have hempty : d.message.isEmpty = false := by simpa using hne
    simp [drawn, hphase, hempty]

theorem mainBox_iff (w : Workflow) : drawn [] "error" (errorBox w) ≠ [] ↔ w.phase = .error := by
  unfold errorBox
  by_cases hphase : w.phase = .error
  · simp [drawn, hphase]
  · simp [drawn, hphase]

/-- A tab shows the result of the last request, or that there is none. -/
theorem resultTab_workflow (v : Visit) (absent : String) (f : Compilation → List Element) :
    resultTab v.workflow absent f =
      match v.result with
      | none => [info absent]
      | some c => f c := by
  obtain ⟨hresult, hhas⟩ := v.result_workflow
  rw [resultTab, hresult, hhas]
  cases v.result <;> rfl

theorem historyTab_totals (w : Workflow) :
    drawn ["col0"] "metric" (historyTab w) =
      (if w.history = [] then [] else [[lit "Total", .int w.history.length]]) ∧
    drawn ["col1"] "metric" (historyTab w) =
      (if w.history = [] then []
      else [[lit "Succeeded", .int (w.history.filter Entry.success).length]]) := by
  unfold historyTab
  by_cases hw : w.history = []
  · simp [drawn, subheader, info, hw]
  · simp [drawn, subheader, hw]

theorem drawing_faithful {last : Option Request} (hv : v.workflow.AtRest last)
    (hi : pressed i = false) : Faithful v (v.next i).workflow (drawing i v.workflow) := by
  have hnext : (v.next i).workflow = { v.workflow with options := chosen i v.options } := by
    simp only [pressed, Bool.or_eq_false_iff] at hi
    rw [← Visit.workflow_withOptions]
    simp [Visit.next, chosen, hi]
  have hhistory : (v.next i).workflow.history = v.workflow.history := by rw [hnext]
  have hphase : (v.next i).workflow.phase = v.workflow.phase := by rw [hnext]
  have hused : v.orders = [] ↔ v.workflow.history = [] := by
    rw [Visit.history_workflow, Visit.history, latest_eq_nil, List.map_eq_nil_iff]
  obtain ⟨htokens, -⟩ := drawn_tab (w := v.workflow) hi [] "dataframe"
  obtain ⟨-, htree, -⟩ := drawn_tab (w := v.workflow) hi [] "json"
  obtain ⟨-, -, houtput, -⟩ := drawn_tab (w := v.workflow) hi [] "code"
  obtain ⟨-, -, -, htotal⟩ := drawn_tab (w := v.workflow) hi ["col0"] "metric"
  obtain ⟨-, -, -, hsucceeded⟩ := drawn_tab (w := v.workflow) hi ["col1"] "metric"
  refine ⟨?_, ?_, ?_, ?_, ?_, ?_, ?_, ?_⟩
  · rw [drawn_sidebar hi, hphase]
    exact sidebarBox_iff hv
  · rw [drawn_top hi, hphase]
    exact mainBox_iff v.workflow
  · rw [htokens, tokensTab, resultTab_workflow, Workflow.tokenRows, v.result_workflow.1]
    cases v.result <;> simp [drawn, info]
  · rw [htree, treeTab, resultTab_workflow, Workflow.treeJson, v.result_workflow.1]
    cases v.result <;> simp [drawn, info]
  · rw [houtput, outputTab, resultTab_workflow]
    cases v.result <;> simp [drawn, info]
  · simp only [htotal, (historyTab_totals v.workflow).1, hhistory, hused]
  · simp only [hsucceeded, (historyTab_totals v.workflow).2, hhistory, hused]
  · rw [hhistory, Visit.history_workflow]

/-! ### Any number of runs -/

/-- The session behind some runs of the page, which begin without one. -/
def after (inputs : List PageInput) : Session :=
  inputs.foldl (fun s i => (run i s).session) {}

theorem shows_after (inputs : List PageInput) :
    (after inputs).Shows (Visit.of inputs).workflow := by
  have hruns : ∀ (inputs : List PageInput) (s : Session) (v : Visit), s.Shows v.workflow →
      (inputs.foldl (fun s i => (run i s).session) s).Shows
        (inputs.foldl Visit.next v).workflow := by
    intro inputs
    induction inputs with
    | nil => exact fun _ _ h => h
    | cons i inputs ih =>
      intro s v h
      obtain ⟨s', a, hrun, hs'⟩ := run_eq h i
      refine ih _ _ ?_
      show (run i s).session.Shows _
      rw [hrun]
      exact hs'.shows
  exact hruns inputs {} {} Session.shows_empty

/-- What a run does and draws, of a session `s` in which users have done `v`. -/
structure Consistent (v : Visit) (i : PageInput) (s : Session) : Prop where
  /-- a run ends with a request to run again if a button is pressed, and never fails -/
  ending : (run i s).ending = if pressed i then .rerun else .done
  enabled : Enabled (run i s).elements
  /-- the toggles give the session the options that they show, and nothing else in the run does -/
  toggled : ∃ s', takeOptions i s.attach.1 s.attach.2 = .ok s' ∧ s'.options =
    ⟨i.keywordBoundary.getD s.options.keywordBoundary,
      i.requireReturnType.getD s.options.requireReturnType⟩
  options : (run i s).session.options =
    ⟨i.keywordBoundary.getD s.options.keywordBoundary,
      i.requireReturnType.getD s.options.requireReturnType⟩
  reset : i.resetPressed = true → (run i s).session.shown =
    some { options :=
      ⟨i.keywordBoundary.getD s.options.keywordBoundary,
        i.requireReturnType.getD s.options.requireReturnType⟩ }
  compiled : i.resetPressed = false → i.compilePressed = true → (run i s).session.shown =
    some (Workflow.showing
      ⟨i.keywordBoundary.getD s.options.keywordBoundary,
        i.requireReturnType.getD s.options.requireReturnType⟩
      (i.source.getD v.source) (v.next i).history)
  faithful : pressed i = false →
    ∃ w, (run i s).session.shown = some w ∧ Faithful v w (run i s).elements

theorem consistent_of_shows (h : s.Shows v.workflow) (i : PageInput) : Consistent v i s := by
  have hagent := h.attach
  obtain ⟨last, hrest⟩ := hagent.atRest
  have hbusy : v.workflow.isBusy = false := by simpa [Workflow.isBusy] using hrest.phase_ne
  have hoptions : s.options = v.options := h.options_eq.trans v.options_workflow
  obtain ⟨s₁, htake, hs₁⟩ := takeOptions_eq hagent i
  obtain ⟨s', a, hrun, hs'⟩ := run_eq h i
  have hchosen := v.options_next i
  constructor
  · rw [hrun]
  · rw [hrun]
    exact drawing_enabled hbusy i
  · refine ⟨s₁, htake, hs₁.options_eq.trans ?_⟩
    rw [hoptions, v.options_workflow]
    rfl
  · rw [hrun, hs'.options_eq, Visit.options_workflow, hchosen, hoptions]
  · intro hreset
    rw [hrun, hs'.shown_eq, hoptions]
    simp [Visit.next, hreset, Visit.workflow]
  · intro hreset hcompile
    have hlast : (v.next i).orders.getLast? =
        some ⟨((v.next i).options, i.source.getD v.source), i.ticks⟩ := by
      simp [Visit.next, Visit.order, hreset, hcompile]
    rw [hrun, hs'.shown_eq, Visit.workflow_of_some hlast, hchosen, hoptions]
    exact congrArg some (Workflow.showing_withOptions _ _ _)
  · intro hi
    rw [hrun]
    exact ⟨_, hs'.shown_eq, drawing_faithful hrest hi⟩

end Page

/-- **A page agrees with its session, whatever its users do.**  After any number of runs a run
neither fails nor draws a disabled widget, does to the session what the widgets say, and, unless a
button cuts it short, draws errors, results and totals exactly where the session has them. -/
theorem page_consistent (inputs : List PageInput) (i : PageInput) :
    Page.Consistent (Visit.of inputs) i (Page.after inputs) :=
  Page.consistent_of_shows (Page.shows_after inputs) i

end TypeStrip
