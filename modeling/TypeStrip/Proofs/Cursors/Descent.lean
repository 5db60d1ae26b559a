import TypeStrip.Proofs.Cursors.Tracking

/-!
# Descending and passing over tokens

A walk reads a node by recursive descent and counts the constructs it is in.  A pass reads the same
node, or stops at the same place for the same reason, and a walk leaves its count as it found it.

* `Frame.close`        the token that ends a construct;
* `Cursor.TracksAll`   everything that is read from a cursor on is read as by a pass;
* `tracks_all`         which holds because each part of it is read where fewer tokens are left;
* `Cursor.walk_eq`     a walk is a pass up to the first node.
-/

namespace TypeStrip

variable {o : Options} {room : Int}

/-! ### Open constructs -/

def Frame.close : Frame → Kind
  | .returning _ => .semicolon
  | .body _ _ _ _ => .braceClose

/-- What is expected where the input ends inside a construct. -/
def Frame.missing : Frame → Expectation
  | .returning _ => .semicolonAfterReturn
  | .body _ _ _ _ => .braceClose

theorem Frame.close_add (f : Frame) (n : Node) : (f.add n).close = f.close := by cases f <;> rfl

theorem Frame.missing_add (f : Frame) (n : Node) : (f.add n).missing = f.missing := by
  cases f <;> rfl

theorem Frame.nodes_add (f : Frame) (n : Node) : (f.add n).nodes = n :: f.nodes := by
  cases f <;> rfl

theorem Frame.fill_add (f : Frame) (n : Node) (ns : List Node) : (f.add n).fill ns = f.fill ns := by
  cases f <;> rfl

theorem Frame.fill_nodes (f : Frame) : f.fill f.nodes = f := by cases f <;> rfl

namespace ParseState

/-- A token that does not end the innermost construct begins a node. -/
theorem step_of_not_close {s : ParseState} {t : Token} (hh : s.header = none)
    (hclose : ∀ f ∈ s.opened.head?, t.kind ≠ f.close) : s.step o room t = nodeStep room s t := by
  obtain ⟨done, opened, header⟩ := s
  cases hh
  cases opened with
  | nil => rfl
  | cons f fs =>
    have hf : t.kind ≠ f.close := hclose f rfl
    cases f with
    | returning vs => exact if_neg hf
    | body name params type ns => exact if_neg hf

theorem finish_opened (done : List Node) (f : Frame) (fs : List Frame) :
    finish ⟨done, f :: fs, none⟩ = .error (.unexpected f.missing) := by
  cases f <;> rfl

end ParseState

/-! ### Nodes -/

namespace Cursor

section
variable (o : Options) (room : Int)

/-- Reading a node, wherever one may begin. -/
def TracksNode (c : Cursor) : Prop :=
  ∀ s : ParseState, s.header = none → s.done = [] → Agrees room c s.opened.length →
    (∀ t, c.peek = some t → ∀ f ∈ s.opened.head?, t.kind ≠ f.close) →
    (c.peek = none → s.opened = []) → Tracks o room s c (node o c) fun n => s.add n

/-- Reading a `return` behind its keyword. -/
def TracksReturn (c : Cursor) : Prop :=
  ∀ fs : List Frame, Agrees room c (fs.length + 1) →
    Tracks o room ⟨[], .returning [] :: fs, none⟩ c (returnNode o c)
      fun n => ParseState.add n ⟨[], fs, none⟩

/-- Reading a function behind its keyword. -/
def TracksFunction (c : Cursor) : Prop :=
  ∀ fs : List Frame, Agrees room c (fs.length + 1) →
    Tracks o room (inHeader fs .start) c (functionNode o c)
      fun n => ParseState.add n ⟨[], fs, none⟩

/-- Reading the nodes inside a construct, up to the token that ends it. -/
def TracksNodes (close : Kind) (missing : Expectation) (ns : List Node) (c : Cursor) : Prop :=
  ∀ (f : Frame) (fs : List Frame), f.close = close → f.missing = missing → f.nodes = ns →
    Agrees room c (fs.length + 1) →
    Tracks o room ⟨[], f :: fs, none⟩ c (nodesUntil o close missing ns c)
      fun ns => ⟨[], f.fill ns :: fs, none⟩

end

variable {c : Cursor} {t : Token}

/-- A token that begins a node and no construct. -/
theorem tracks_leaf {s : ParseState} (ht : c.peek = some t) (hd : s.done = [])
    (hstep : s.step o room t = s.nodeStep room t) (hr : t.kind ≠ .keywordReturn)
    (hf : t.kind ≠ .keywordFunction) : Tracks o room s c (c.leaf t ht) fun n => s.add n := by
  unfold leaf
  cases hk : t.kind with
  | operator =>
    simp only [ParseState.nodeStep, hk] at hstep
    dsimp only
    cases hop : Operator.ofText? t.text with
    | none =>
      rw [hop] at hstep
      exact .fail (along_skip c) (pass_refused hd ht hstep)
    | some op =>
      rw [hop] at hstep
      exact .give (along_skip c) (pass_step hd ht hstep)
  | number | string | name | colon | comma | semicolon =>
    simp only [ParseState.nodeStep, hk] at hstep
    exact .give (along_skip c) (pass_step hd ht hstep)
  | parenOpen | parenClose | braceOpen | braceClose =>
    simp only [ParseState.nodeStep, hk] at hstep
    exact .fail (Along.refl c) (pass_refused hd ht hstep)
  | keywordReturn => exact absurd hk hr
  | keywordFunction => exact absurd hk hf

/-- Entering a construct is refused where a pass has no room for one more. -/
theorem Tracks.inside {s s' : ParseState} {n : Nat} {α : Type} {body : Unit → Reading n α}
    {next : α → ParseState} (ht : c.peek = some t) (hd : s.done = [])
    (hc : Agrees room c s.opened.length)
    (hstep : s.step o room t =
      if room ≤ s.opened.length then .error (.unexpected .shallowerNesting) else .ok s')
    (hbody : Tracks o room s' c.deeper.skip (body ()) next) :
    Tracks o room s c (c.inside body) next := by
  unfold Agrees at hc
  unfold Cursor.inside descend
  by_cases hroom : room ≤ s.opened.length
  · rw [if_pos hroom] at hstep
    rw [if_pos (by omega), ht]
    exact .fail (Along.refl c) (pass_refused hd ht hstep)
  · rw [if_neg hroom] at hstep
    rw [if_neg (by omega)]
    have hskip : pass o room s c.deeper = pass o room s' c.deeper.skip :=
      pass_step hd ht hstep
    exact (hbody.of_pass (along_skip c.deeper) hskip).ascend

theorem tracks_node
    (hr : ∀ t, c.peek = some t → t.kind = .keywordReturn → TracksReturn o room c.deeper.skip)
    (hf : ∀ t, c.peek = some t → t.kind = .keywordFunction → TracksFunction o room c.deeper.skip) :
    TracksNode o room c := by
  intro s hh hd hc hclose hend
  obtain ⟨done, fs, header⟩ := s
  cases hh
  cases hd
  have hdeeper : Agrees room c.deeper.skip (fs.length + 1) := by
    unfold Agrees at hc ⊢
    show c.limit - (c.depth + 1) = _
    dsimp only at hc
    omega
  unfold node
  split
  · next ht =>
    cases hend ht
    refine .fail (Along.refl c) ?_
    unfold pass
    rw [rest_of_peek_eq_none ht]
    rfl
  · next t ht =>
    have hstep : ParseState.step o room ⟨[], fs, none⟩ t =
        ParseState.nodeStep room ⟨[], fs, none⟩ t :=
      ParseState.step_of_not_close rfl (hclose t ht)
    split
    · next hk =>
      unfold ParseState.nodeStep at hstep
      rw [hk] at hstep
      exact Tracks.inside ht rfl hc hstep ((hr t ht hk fs hdeeper).weaken _)
    · next hk =>
      unfold ParseState.nodeStep at hstep
      rw [hk] at hstep
      exact Tracks.inside ht rfl hc hstep ((hf t ht hk fs hdeeper).weaken _)
    · next hnr hnf => exact tracks_leaf ht rfl hstep hnr hnf

/-- The nodes of a construct end in front of the token that ends it; there is one at least, unless
that token comes at once. -/
theorem nodesUntil_eq_ok {close : Kind} {missing : Expectation} {ns ns' : List Node} {c' : Cursor}
    (h : (nodesUntil o close missing ns c).outcome = (.ok ns', c')) :
    c'.check close = true ∧ ns.length ≤ ns'.length ∧
      (¬ c.check close = true → ns.length < ns'.length) := by
  induction hleft : c.left using Nat.strong_induction_on generalizing ns c with
  | _ left ih =>
    unfold nodesUntil at h
    split at h
    · next hclose =>
      cases h
      exact ⟨hclose, Nat.le_refl _, fun hn => absurd hclose hn⟩
    · split at h
      · cases h
      · obtain ⟨n, c₁, hlt, -, hrest⟩ := Reading.andThen_eq_ok h
        have hmore : (nodesUntil o close missing (n :: ns) c₁).outcome = (.ok ns', c') := hrest
        obtain ⟨hclose, hle, -⟩ := ih c₁.left (by omega) hmore rfl
        rw [List.length_cons] at hle
        exact ⟨hclose, by omega, fun _ => by omega⟩

theorem tracks_return
    (hn : TracksNodes o room .semicolon .semicolonAfterReturn [] c) : TracksReturn o room c := by
  intro fs hc
  have hvalues := hn (.returning []) fs rfl rfl rfl hc
  unfold returnNode
  split
  · next hsemi =>
    obtain ⟨t, ht, hk⟩ := exists_of_check hsemi
    have hstep : ParseState.step o room ⟨[], .returning [] :: fs, none⟩ t =
        .error (.unexpected .returnValue) := if_pos hk
    rw [ht]
    exact .fail (Along.refl c) (pass_refused rfl ht hstep)
  · next hsemi =>
    refine hvalues.andThen fun vs c' hlt hvs _ => ?_
    obtain ⟨hlast, -, hlength⟩ := nodesUntil_eq_ok hvs
    obtain ⟨t, ht, hk⟩ := exists_of_check hlast
    have hne : vs ≠ [] := List.ne_nil_of_length_pos (hlength hsemi)
    exact .give (along_skip c') (pass_step rfl ht (ParseState.step_semicolon hk hne))

theorem tracks_function
    (hn : ∀ c', c'.left < c.left → TracksNodes o room .braceClose .braceClose [] c') :
    TracksFunction o room c := by
  intro fs hc
  unfold functionNode
  refine (tracks_heading fs).andThen fun hd c' hlt _ hc' => ?_
  have hbody := hn c' hlt (.body hd.name hd.params hd.returnType []) fs rfl rfl rfl (hc'.agrees hc)
  refine hbody.andThen fun ns c'' hlt' hns _ => ?_
  obtain ⟨t, ht, hk⟩ := exists_of_check (nodesUntil_eq_ok hns).1
  cases hname : Name.ofText? hd.name with
  | none =>
    have hstep : ParseState.step o room
        ⟨[], .body hd.name hd.params hd.returnType ns :: fs, none⟩ t =
        .error (.flawed .functionName true) := by
      show (if t.kind = .braceClose then _ else _) = _
      rw [if_pos hk, hname]
    exact .fail (along_skip c'') (pass_refused rfl ht hstep)
  | some name =>
    rw [Name.ofText?_eq_some_iff.mp hname]
    exact .give (along_skip c'') (pass_step rfl ht (ParseState.step_braceClose hk))

theorem tracks_nodes {close : Kind} {missing : Expectation} {ns : List Node}
    (hnode : TracksNode o room c)
    (hnodes : ∀ n c', c'.left < c.left → TracksNodes o room close missing (n :: ns) c') :
    TracksNodes o room close missing ns c := by
  rintro f fs rfl rfl rfl hc
  unfold nodesUntil
  split
  · refine .give (Along.refl c) ?_
    rw [f.fill_nodes]
  · next hclose =>
    split
    · next hend =>
      have ht : c.peek = none := List.getElem?_eq_none_iff.mpr (of_decide_eq_true hend)
      exact .fail (Along.refl c) (pass_end rfl ht (ParseState.finish_opened [] f fs))
    · next hend =>
      have hfirst : Tracks o room ⟨[], f :: fs, none⟩ c (node o c)
          fun n => ⟨[], f.add n :: fs, none⟩ := by
        refine hnode ⟨[], f :: fs, none⟩ rfl rfl hc ?_ ?_
        · rintro t ht _ ⟨⟩
          exact kind_ne_of_check hclose ht
        · intro ht
          exact absurd (decide_eq_true (List.getElem?_eq_none_iff.mp ht)) hend
      refine hfirst.andThen fun n c' hlt _ hc' => ?_
      have hrest := hnodes n c' hlt (f.add n) fs (f.close_add n) (f.missing_add n) (f.nodes_add n)
        (hc'.agrees hc)
      simp only [Frame.fill_add] at hrest
      exact hrest.weaken _

/-- Everything the descent reads from `c` on. -/
structure TracksAll (o : Options) (room : Int) (c : Cursor) : Prop where
  node : TracksNode o room c
  nodes : ∀ close missing ns, TracksNodes o room close missing ns c
  returns : TracksReturn o room c
  function : TracksFunction o room c

/-- The parts of what is read from a cursor on are read where fewer tokens are left. -/
theorem tracks_all (c : Cursor) : TracksAll o room c := by
  induction hleft : c.left using Nat.strong_induction_on generalizing c with
  | _ left ih =>
    have hless : ∀ c' : Cursor, c'.left < c.left → TracksAll o room c' :=
      fun c' hlt => ih c'.left (by omega) c' rfl
    have hnode : TracksNode o room c :=
      tracks_node (fun t ht _ => (hless c.deeper.skip (left_skip_lt ht)).returns)
        fun t ht _ => (hless c.deeper.skip (left_skip_lt ht)).function
    have hnodes : ∀ close missing ns, TracksNodes o room close missing ns c :=
      fun close missing ns => tracks_nodes hnode fun n c' hlt => (hless c' hlt).nodes _ _ _
    exact ⟨hnode, hnodes, tracks_return (hnodes _ _ _),
      tracks_function fun c' hlt => (hless c' hlt).nodes _ _ _⟩

/-- **A walk is a pass up to the first node.**  It leaves its cursor as it was, but for the place:
every construct that was entered has been left again, also where the walk fails. -/
theorem walk_eq (c : Cursor) (o : Options) : c.walk o =
    match walkFrom o (c.limit - c.depth) .start c.position c.rest with
    | .ok (n, position) => (.ok n, { c with position := position })
    | .error e => (.error e.fault, { c with position := e.position }) := by
  have htrack : Tracks o (c.limit - c.depth) .start c (node o c)
      fun n => ParseState.start.add n :=
    (tracks_all c).node .start rfl rfl (by simp [Agrees, ParseState.start]) nofun fun _ => rfl
  obtain ⟨halong, hok, herror⟩ := htrack
  have hpass : pass o (c.limit - c.depth) .start c = _ := pass_of_done rfl
  unfold walk
  rcases hout : (node o c).outcome with ⟨e | n, c'⟩
  · rw [hout] at halong
    rw [herror e c' hout] at hpass
    split at hpass
    · cases hpass
    · next stop hstop =>
      obtain ⟨rfl, hposition⟩ := Prod.mk.inj (Except.error.inj hpass)
      rw [hstop]
      dsimp only
      rw [← hposition]
      exact Prod.ext rfl halong
  · rw [hout] at halong
    have hdone : pass o (c.limit - c.depth) (ParseState.start.add n) c' = .ok (n, c'.position) :=
      rfl
    rw [hok n c' hout, hdone] at hpass
    split at hpass
    · next r hr =>
      cases hpass
      rw [hr]
      exact Prod.ext rfl halong
    · cases hpass

end Cursor

end TypeStrip
