import Mathlib.Data.List.Forall2
import TypeStrip.Proofs.HistoryText
import TypeStrip.Proofs.Sessions.Steps

/-!
# Histories

The history of a workflow is the end of the list of its requests, whoever made them and whatever was
done in between.

* `latest`              the entries that a history keeps, and `record_latest` one more of them;
* `Order`               a request that was answered, with its options and duration;
* `Order.entry`         the entry that it leaves;
* `Order.Entered`       what this entry says, without the functions that make it;
* `Session.orders`      the requests of some actions that were for one workflow and not refused;
* `Session.Sound.history_run`, `Session.Sound.history_after`   they are what a history holds;
* `history_recorded`    the history of a workflow and its text.
-/

namespace TypeStrip

/-! ### The latest entries -/

/-- The entries that are not too old. -/
def latest (l : List Entry) : List Entry := l.drop (l.length - historyLimit)

/-- It does not matter whether entries that are too old were dropped before. -/
theorem record_latest (l : List Entry) (e : Entry) : record (latest l) e = latest (l ++ [e]) := by
  show latest (latest l ++ [e]) = latest (l ++ [e])
  unfold latest
  rw [List.length_append, List.length_append, List.length_drop, List.length_singleton]
  by_cases hn : l.length < historyLimit
  · have hall : l.length - historyLimit = 0 := by omega
    have hmore : l.length + 1 - historyLimit = 0 := by omega
    rw [hall, Nat.sub_zero, hmore]
    rfl
  · have hone : l.length - (l.length - historyLimit) + 1 - historyLimit = 1 := by omega
    have hmore : l.length + 1 - historyLimit = l.length - historyLimit + 1 := by omega
    have hle : l.length - historyLimit ≤ l.length := Nat.sub_le _ _
    rw [hone, hmore, ← List.drop_drop, List.drop_append_of_le_length hle]

theorem latest_eq_nil {l : List Entry} : latest l = [] ↔ l = [] := by
  unfold latest
  rw [List.drop_eq_nil_iff, ← List.length_eq_zero_iff]
  have hlimit : historyLimit = 50 := rfl
  omega

/-! ### Requests and their entries -/

/-- A compile request and how long it took. -/
structure Order where
  request : Request
  ticks : Nat
  deriving DecidableEq, Repr

namespace Order

def outcome (q : Order) : Except CompileFault Compilation := compile q.request.1 q.request.2

def entry (q : Order) : Entry :=
  ⟨preview q.request.2,
    match q.outcome with
    | .ok _ => none
    | .error e => some e.failure,
    q.ticks⟩

/-- What stands between the blanks of the source, with single spaces between. -/
def line (q : Order) : Text :=
  List.intercalate [' '] ((q.request.2.splitOnP isBlank).filter (· ≠ []))

/-- The entry tells whether the request succeeded and how it failed, and shows its source on a line
of at most 60 characters. -/
structure Entered (q : Order) (e : Entry) : Prop where
  ok : ∀ c, q.outcome = .ok c → e.success = true ∧ e.failure = none
  error : ∀ f, q.outcome = .error f → e.success = false ∧
    ∃ d, f.verdict = .diagnostic d ∧ e.failure = some ⟨d.kind.toList, d.message⟩
  short : q.line.length ≤ 60 → e.preview = q.line
  long : 60 < q.line.length → e.preview = q.line.take 60 ++ ['…']
  ticks : e.ticks = q.ticks

theorem entry_of_ok {q : Order} {c : Compilation} (h : q.outcome = .ok c) :
    q.entry.failure = none := by
  rw [entry, h]

theorem entry_of_error {q : Order} {f : CompileFault} (h : q.outcome = .error f) :
    ∃ d, f.verdict = .diagnostic d ∧ d.message.Printable ∧
      q.entry.failure = some ⟨d.kind.toList, d.message⟩ := by
  obtain ⟨d, hd⟩ := compile_reports h
  refine ⟨d, hd, compile_message_printable h hd, ?_⟩
  rw [entry, h, ← CompileFault.failure_eq hd]

theorem entered_entry (q : Order) : q.Entered q.entry where
  ok c hc := by
    have hnone := entry_of_ok hc
    exact ⟨by rw [Entry.success, hnone]; rfl, hnone⟩
  error f hf := by
    obtain ⟨d, hd, -, hfailure⟩ := entry_of_error hf
    exact ⟨by rw [Entry.success, hfailure]; rfl, d, hd, hfailure⟩
  short h := by
    show preview q.request.2 = q.line
    rw [preview, Text.words_eq_filter]
    exact if_neg (Nat.not_lt.mpr h)
  long h := by
    show preview q.request.2 = _
    rw [preview, Text.words_eq_filter]
    exact if_pos h
  ticks := rfl

/-- Whatever the source holds, its entry breaks no lines. -/
theorem oneLine_entry (q : Order) : q.entry.OneLine where
  preview := newline_not_mem_preview q.request.2
  failure f hf := by
    cases h : q.outcome with
    | ok c =>
      rw [entry_of_ok h] at hf
      cases hf
    | error e =>
      obtain ⟨d, -, hmessage, hfailure⟩ := entry_of_error h
      rw [hfailure] at hf
      cases hf
      exact ⟨d.kind_printable.newline_not_mem, hmessage.newline_not_mem⟩

end Order

theorem Workflow.history_answer (source : Text) (ticks : Nat) (w : Workflow) :
    (w.answer source ticks).history =
      record w.history (Order.entry ⟨(w.options, source), ticks⟩) := by
  unfold answer Order.entry Order.outcome
  cases compile w.options source <;> rfl

/-! ### The requests of some actions -/

/-- The request that an action makes of a workflow, if it is one and is not refused. -/
def Action.order (w : Workflow) : Action → Option Order
  | .compile source ticks _ =>
    if w.phase = .compiling then none else some ⟨(w.options, source), ticks⟩
  | _ => none

theorem Action.order_of_effect_none {action : Action} {w : Workflow}
    (h : action.effect w = none) : action.order w = none := by
  cases action with
  | compile source ticks broken =>
    rw [effect] at h
    split at h
    · next hphase => exact if_pos hphase
    · cases h
  | _ => rfl

/-- An effect on a workflow adds the request to its history, if it comes from one. -/
theorem Action.history_of_effect {action : Action} {w w' : Workflow} {events : List Event}
    (h : action.effect w = some (w', events)) : w'.history =
      (action.order w).elim w.history fun q => record w.history q.entry := by
  cases action with
  | compile source ticks broken =>
    rw [effect] at h
    split at h
    · cases h
    · next hphase =>
      cases h
      rw [order, if_neg hphase]
      exact w.history_answer source ticks
  | transition target =>
    rw [effect] at h
    split at h
    · cases h
      rfl
    · cases h
  | _ => cases h

namespace Session

variable {s : Session} {name : Text} {action : Action} {i : Nat}

/-- The request that an action through the agent called `name` makes of workflow `i`. -/
def orderFor (s : Session) (i : Nat) (name : Text) (action : Action) : Option Order :=
  match s.agent? name with
  | none => none
  | some a => if s.workflowOf a = i then action.order (s.workflow i) else none

/-- The requests of some actions that are for workflow `i` and are not refused. -/
def orders (i : Nat) (s : Session) : List (Text × Action) → List Order
  | [] => []
  | (name, action) :: rest =>
    (s.orderFor i name action).toList ++ orders i (s.run name action).2 rest

/-- An action that moves no workflow makes no request. -/
theorem orderFor_of_effect_none (h : s.effect name action = none) (i : Nat) :
    s.orderFor i name action = none := by
  unfold effect at h
  unfold orderFor
  cases ha : s.agent? name with
  | none => rfl
  | some a =>
    rw [ha] at h
    dsimp only
    split
    · next hi =>
      subst hi
      exact Action.order_of_effect_none (Option.map_eq_none_iff.mp h)
    · rfl

theorem Sound.history_run (hs : s.Sound) (hd : action.Direct) (name : Text) (i : Nat) :
    ((s.run name action).2.workflow i).history =
      (s.orderFor i name action).elim (s.workflow i).history
        fun q => record (s.workflow i).history q.entry := by
  cases heffect : s.effect name action with
  | none =>
    obtain ⟨o, ho⟩ := (hs.run_idles hd heffect).workflow i
    rw [ho, orderFor_of_effect_none heffect i]
    rfl
  | some p =>
    obtain ⟨a, w, events⟩ := p
    obtain ⟨ha, haction⟩ := effect_eq_some heffect
    have hmoves := hs.run_moves hd heffect
    rw [hmoves.workflow_eq hs (hs.agent?_lt ha), orderFor, ha]
    dsimp only
    split
    · next hi =>
      subst hi
      exact Action.history_of_effect haction
    · rfl

/-- A history goes on to hold the latest requests.  `done` are those that were made before. -/
theorem Sound.history_after {actions : List (Text × Action)} (hs : s.Sound)
    (hd : ∀ p ∈ actions, p.2.Direct) (done : List Order)
    (h : (s.workflow i).history = latest (done.map Order.entry)) :
    ((s.after actions).workflow i).history =
      latest ((done ++ s.orders i actions).map Order.entry) := by
  induction actions generalizing s done with
  | nil =>
    rw [orders, List.append_nil]
    exact h
  | cons p actions ih =>
    obtain ⟨name, action⟩ := p
    obtain ⟨hp, hrest⟩ := List.forall_mem_cons.mp hd
    have hstep := hs.history_run hp name i
    -- The request of this action joins those before it, so that `record_latest` applies.
    rw [orders, ← List.append_assoc]
    refine ih ((hs.run_keeps hp name).sound hs) hrest _ ?_
    cases horder : s.orderFor i name action with
    | none =>
      rw [horder] at hstep
      rw [Option.toList_none, List.append_nil]
      exact hstep.trans h
    | some q =>
      rw [horder, Option.elim_some, h, record_latest] at hstep
      rw [Option.toList_some, List.map_append]
      exact hstep

end Session

/-- **A history is the end of the list of requests, and its text has their lines.**  The history of
a workflow holds the last 50 requests for it in their order, and its text has three lines for each
of them, whatever their sources hold. -/
theorem history_recorded (actions : List (Text × Action)) (hdirect : ∀ p ∈ actions, p.2.Direct)
    (i : Nat) :
    let orders := Session.orders i {} actions
    let history := ((Session.after {} actions).workflow i).history
    let lines := (historyText history).splitOn '\n'
    let k := min orders.length 50
    List.Forall₂ Order.Entered (orders.drop (orders.length - k)) history ∧ history.length = k ∧
    (orders ≠ [] → lines.length = 3 * k + 5 ∧
      ∀ j e, history[j]? = some e →
        lines[3 * (j + 1) + 1]? = some (e.sourceLine (j + 1)) ∧
        lines[3 * (j + 1) + 2]? = some e.resultLine) := by
  intro orders history lines k
  have hlatest : history = latest (orders.map Order.entry) :=
    Session.sound_empty.history_after hdirect [] rfl
  have hdrop : history = (orders.drop (orders.length - k)).map Order.entry := by
    have hk : orders.length - 50 = orders.length - k := by omega
    rw [hlatest, latest, List.length_map, ← List.map_drop, ← hk]
    rfl
  have hlength : history.length = k := by
    rw [hdrop, List.length_map, List.length_drop]
    omega
  refine ⟨?_, hlength, fun hne => ?_⟩
  · rw [hdrop, List.forall₂_map_right_iff, List.forall₂_same]
    exact fun q _ => q.entered_entry
  · have hnonempty : history ≠ [] := by
      rw [hlatest, Ne, latest_eq_nil, List.map_eq_nil_iff]
      exact hne
    have honeLine : ∀ e ∈ history, e.OneLine := by
      intro e he
      rw [hdrop] at he
      obtain ⟨q, -, rfl⟩ := List.mem_map.mp he
      exact q.oneLine_entry
    have hlines : lines = historyLines history := splitOn_historyText hnonempty honeLine
    rw [hlines, length_historyLines, hlength]
    exact ⟨rfl, fun j e he => getElem?_historyLines he⟩

/-- The text of 51 requests, the last of which pretends to be two. -/
theorem history_recorded_forged :
    let a := "a".toList
    let actions : List (Text × Action) :=
      (a, .attach) :: List.replicate 50 (a, .compile "return".toList 0 none) ++
        [(a, .compile "return 1;\n\n[51] Source : 2".toList 32 none)]
    let history := ((Session.after {} actions).workflow 0).history
    let lines := (historyText history).splitOn '\n'
    history.length = 50 ∧ lines.length = 155 ∧
      lines[151]? = some "[50] Source : return 1; [51] Source : 2".toList ∧
      lines[152]? = some ("     Result : ❌ LexError: Unknown character '[' at offset 11".toList ++
        "  |  31.2ms".toList) := by
  intro a actions history lines
  have hdirect : ∀ p ∈ actions, p.2.Direct := by
    simp [actions, Action.Direct]
  have horders : (Session.orders 0 {} actions).length = 51 := by decide +kernel
  have hlast : history[49]? = some ⟨"return 1; [51] Source : 2".toList,
    some ⟨"LexError".toList, "Unknown character '[' at offset 11".toList⟩, 32⟩ := by
      decide +kernel
  obtain ⟨-, hlength, htext⟩ := history_recorded actions hdirect 0
  rw [horders] at hlength htext
  obtain ⟨hlines, hentry⟩ := htext (List.ne_nil_of_length_eq_add_one horders)
  obtain ⟨hsource, hresult⟩ := hentry 49 _ hlast
  exact ⟨hlength, hlines, hsource.trans (by decide +kernel), hresult.trans (by decide +kernel)⟩

end TypeStrip
