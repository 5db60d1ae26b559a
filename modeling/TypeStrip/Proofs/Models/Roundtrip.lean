import TypeStrip.Proofs.Models.Acceptance
import TypeStrip.Proofs.Parsing

/-!
# Trees that survive as JSON

A tree is read back from its JSON form exactly if it has no more levels than the checkers admit.
Whatever is read, its own JSON form completes what it was read from.  A parse never returns a tree
with too many levels.

* `Checker.cost`, `Checker.next`, `Node.enter`   one step of a checker down into a list of nodes;
* `Node.levels`               the levels below a node, with those for handing over;
* `Node.cost_add_levels_le`   two levels for each construct are enough;
* `Node.checkWithin_toJson`   a node is read back if there are enough levels left;
* `Node.of_checkWithin`       what is read has the right shape, fits and completes the value;
* `json_roundtrip`            all this for whole trees, tokens and options.
-/

namespace TypeStrip
open Checked

variable {left : Nat} {c : Checker} {fields : List (String × Json)}

/-! ### Levels -/

namespace Checker

/-- The levels that a node of a shape takes for itself. -/
def cost (c : Checker) (k : Shape) : Nat := if c.handsOver k then 2 else 1

/-- The checker that sees to a node of a shape. -/
def next (c : Checker) (k : Shape) : Checker := if c.handsOver k then .ofShape k else c

theorem cost_pos (c : Checker) (k : Shape) : 0 < c.cost k := by
  unfold cost
  split <;> decide

theorem cost_le_two (c : Checker) (k : Shape) : c.cost k ≤ 2 := by
  unfold cost
  split <;> decide

end Checker

mutual

/-- The levels below a node which the checker `c` sees to. -/
def Node.levels (c : Checker) : Node → Nat
  | .returns values => Node.levelsList c values
  | .function _ _ _ body => Node.levelsList c body
  | .number _ | .string _ | .identifier _ | .operator _ | .punctuation _ _ => 0

/-- The levels of nodes that `c` meets, their own included. -/
def Node.levelsList (c : Checker) : List Node → Nat
  | [] => 0
  | n :: ns => max (c.cost n.shape + n.levels (c.next n.shape)) (Node.levelsList c ns)

end

def Program.levels (p : Program) : Nat := Node.levelsList .program p.statements

theorem Node.levelsList_le_iff {ns : List Node} : Node.levelsList c ns ≤ left ↔
    ∀ n ∈ ns, c.cost n.shape + n.levels (c.next n.shape) ≤ left := by
  induction ns with
  | nil => simp [Node.levelsList]
  | cons n ns ih => rw [Node.levelsList, Nat.max_le, ih, List.forall_mem_cons]

mutual

/-- Two levels for each construct around a node are enough, and one for a leaf in the innermost. -/
theorem Node.cost_add_levels_le : ∀ (n : Node) (c d : Checker),
    c.cost n.shape + n.levels d ≤ 2 * n.nesting + 1
  | .returns values, c, d => by
    have hcost := c.cost_le_two .returns
    have hvalues := Node.levelsList_le values d
    rw [Node.levels, Node.nesting, Node.shape]
    omega
  | .function name params type body, c, d => by
    have hcost := c.cost_le_two .function
    have hbody := Node.levelsList_le body d
    rw [Node.levels, Node.nesting, Node.shape]
    omega
  | .number _, c, _ | .string _, c, _ | .identifier _, c, _ | .operator _, c, _
  | .punctuation _ _, c, _ => by
    cases c <;> exact Nat.le_refl 1

theorem Node.levelsList_le : ∀ (ns : List Node) (c : Checker),
    Node.levelsList c ns ≤ 2 * Node.nestingList ns + 1
  | [], _ => Nat.zero_le _
  | n :: ns, c => by
    have hn := Node.cost_add_levels_le n c (c.next n.shape)
    have hns := Node.levelsList_le ns c
    rw [Node.levelsList, Node.nestingList]
    omega

end

/-! ### One step down -/

/-- A node that the checker `c` meets with `left` levels left. -/
def Node.enter (left : Nat) (c : Checker) (k : Shape) (v : Json) : Checked Node :=
  if c.cost k ≤ left then Node.checkWithin (left - c.cost k) (c.next k) k v
  else fail .tooDeep

namespace Node

theorem enter_eq_valid {k : Shape} {v : Json} {n : Node} : enter left c k v = .valid n ↔
    c.cost k ≤ left ∧ Node.checkWithin (left - c.cost k) (c.next k) k v = .valid n := by
  unfold enter
  split <;> simp_all [fail]

theorem enter_zero (c : Checker) : enter 0 c = fun _ _ => fail .tooDeep := by
  funext k v
  unfold enter Checker.cost
  cases c.handsOver k <;> rfl

theorem enter_one (c : Checker) : enter 1 c =
    fun k v => if c.handsOver k then fail .tooDeep else Node.checkWithin 0 c k v := by
  funext k v
  unfold enter Checker.cost Checker.next
  cases c.handsOver k <;> rfl

theorem enter_add_two (n : Nat) (c : Checker) : enter (n + 2) c =
    fun k v => if c.handsOver k then Node.checkWithin n (.ofShape k) k v
      else Node.checkWithin (n + 1) c k v := by
  funext k v
  unfold enter Checker.cost Checker.next
  cases c.handsOver k <;> simp

/-- A node of the shape `k` that is nothing but a text. -/
def checkText (k : Shape) (node : Text → Node) (fields : List (String × Json)) : Checked Node :=
  (fun _ s _ => node s) <$> kindField fields k.label
    <*> field fields "text" text (required "text")
    <*> noOthers fields ["kind", "text"]

theorem checkWithin_number :
    Node.checkWithin left c .number (.obj fields) = checkText .number .number fields := by
  rw [Node.checkWithin, checkText]

theorem checkWithin_string :
    Node.checkWithin left c .string (.obj fields) = checkText .string .string fields := by
  rw [Node.checkWithin, checkText]

theorem checkWithin_identifier : Node.checkWithin left c .identifier (.obj fields) =
    checkText .identifier .identifier fields := by
  rw [Node.checkWithin, checkText]

theorem checkWithin_operator : Node.checkWithin left c .operator (.obj fields) =
    (fun _ op _ => .operator op) <$> kindField fields Shape.operator.label
      <*> field fields "symbol" Operator.check (required "symbol")
      <*> noOthers fields ["kind", "symbol"] := by
  rw [Node.checkWithin]

theorem checkWithin_punctuation : Node.checkWithin left c .punctuation (.obj fields) =
    (fun _ k s _ => .punctuation k s) <$> kindField fields Shape.punctuation.label
      <*> field fields "token_kind" Kind.check (required "token_kind")
      <*> field fields "text" text (required "text")
      <*> noOthers fields ["kind", "token_kind", "text"] := by
  rw [Node.checkWithin]

theorem checkWithin_returns : Node.checkWithin left c .returns (.obj fields) =
    (fun _ values _ => .returns values) <$> kindField fields Shape.returns.label
      <*> field fields "values" (Checked.list (Node.checkTagged (enter left c))) (valid [])
      <*> noOthers fields ["kind", "values"] := by
  rcases left with _ | _ | n
  · rw [enter_zero]; rfl
  · rw [enter_one]; rfl
  · rw [enter_add_two]; rfl

theorem checkWithin_function : Node.checkWithin left c .function (.obj fields) =
    (fun _ name params type body _ => .function name params type body)
      <$> kindField fields Shape.function.label
      <*> field fields "name" Name.check (required "name")
      <*> field fields "params" (Checked.list Param.check) (valid [])
      <*> field fields "return_type" optionalText (valid none)
      <*> field fields "body" (Checked.list (Node.checkTagged (enter left c))) (valid [])
      <*> noOthers fields ["kind", "name", "params", "return_type", "body"] := by
  rcases left with _ | _ | n
  · rw [enter_zero]; rfl
  · rw [enter_one]; rfl
  · rw [enter_add_two]; rfl

end Node

/-! ### Reading back -/

/-- A node is written as an object that says which shape it has. -/
theorem Node.exists_toJson (n : Node) : ∃ fields, n.toJson = .obj fields ∧
    fields.lookup "kind" = some (.str n.shape.label.toList) := by
  cases n <;> exact ⟨_, rfl, rfl⟩

theorem Param.check_toJson (p : Param) : Param.check p.toJson = .valid p := by
  rw [Param.toJson, Param.check,
    field_given rfl (Name.check_eq_valid.mpr rfl),
    field_given rfl (optionalText_eq_valid.mpr rfl)]
  rfl

theorem Param.list_toJson (ps : List Param) :
    Checked.list Param.check (.arr (ps.map Param.toJson)) = .valid ps := by
  refine list_eq_valid.mpr ⟨_, rfl, List.forall₂_map_left_iff.mpr ?_⟩
  exact List.forall₂_same.mpr fun p _ => p.check_toJson

theorem Node.checkText_field (k : Shape) (node : Text → Node) (s : Text) :
    Node.checkText k node [k.field, ("text", .str s)] = .valid (node s) := by
  have hkind : kindField [k.field, ("text", .str s)] k.label = .valid () :=
    kindField_eq_valid.mpr fun v hv => (Option.some.inj hv).symm
  rw [Node.checkText, hkind, field_given rfl (text_eq_valid.mpr rfl)]
  rfl

mutual

theorem Node.checkWithin_toJson : ∀ (n : Node) (left : Nat) (c : Checker), n.levels c ≤ left →
    Node.checkWithin left c n.shape n.toJson = .valid n
  | .number _, _, _, _ => by
    rw [Node.toJson, Node.shape, Node.checkWithin_number, Node.checkText_field]
  | .string _, _, _, _ => by
    rw [Node.toJson, Node.shape, Node.checkWithin_string, Node.checkText_field]
  | .identifier _, _, _, _ => by
    rw [Node.toJson, Node.shape, Node.checkWithin_identifier, Node.checkText_field]
  | .operator _, _, _, _ => by
    rw [Node.toJson, Node.shape, Node.checkWithin_operator,
      field_given rfl (Operator.check_eq_valid.mpr rfl)]
    rfl
  | .punctuation _ _, _, _, _ => by
    rw [Node.toJson, Node.shape, Node.checkWithin_punctuation,
      field_given rfl (Kind.check_eq_valid.mpr rfl),
      field_given rfl (text_eq_valid.mpr rfl)]
    rfl
  | .returns values, left, c, h => by
    have hvalues := list_eq_valid.mpr ⟨_, rfl, Node.forall₂_toJson values left c h⟩
    rw [Node.toJson, Node.shape, Node.checkWithin_returns,
      field_given rfl hvalues]
    rfl
  | .function name params type body, left, c, h => by
    have hbody := list_eq_valid.mpr ⟨_, rfl, Node.forall₂_toJson body left c h⟩
    rw [Node.toJson, Node.shape, Node.checkWithin_function,
      field_given rfl (Name.check_eq_valid.mpr rfl),
      field_given rfl (Param.list_toJson params),
      field_given rfl (optionalText_eq_valid.mpr rfl),
      field_given rfl hbody]
    rfl

theorem Node.forall₂_toJson : ∀ (ns : List Node) (left : Nat) (c : Checker),
    Node.levelsList c ns ≤ left →
      List.Forall₂ (fun v n => Node.checkTagged (Node.enter left c) v = .valid n)
        (Node.listToJson ns) ns
  | [], _, _, _ => .nil
  | n :: ns, left, c, h => by
    rw [Node.levelsList, Nat.max_le] at h
    obtain ⟨fields, hfields, hkind⟩ := n.exists_toJson
    have hcheck := Node.checkWithin_toJson n (left - c.cost n.shape) (c.next n.shape) (by omega)
    refine .cons ?_ (Node.forall₂_toJson ns left c h.2)
    exact Node.checkTagged_eq_valid.mpr
      ⟨fields, n.shape, hfields, hkind, Node.enter_eq_valid.mpr ⟨by omega, hcheck⟩⟩

end

/-! ### Reading anything -/

/-- Every item of a list that was read, or left out, was read from something. -/
theorem Checked.exists_of_field_list {α : Type} {check : Json → Checked α} {as : List α}
    {name : String} (h : field fields name (Checked.list check) (valid []) = valid as) :
    ∀ a ∈ as, ∃ v, check v = valid a := by
  rcases field_eq_valid.mp h with ⟨-, hnil⟩ | ⟨v, -, hv⟩
  · cases hnil
    exact nofun
  · obtain ⟨l, -, hl⟩ := list_eq_valid.mp hv
    clear h hv
    induction hl with
    | nil => exact nofun
    | cons hv _ ih => exact List.forall_mem_cons.mpr ⟨⟨_, hv⟩, ih⟩

open Json in
theorem Node.of_checkText {k : Shape} {node : Text → Node} {n : Node}
    (h : Node.checkText k node fields = .valid n) :
    ∃ s, n = node s ∧ (Json.obj fields).Completes (.obj [k.field, ("text", .str s)]) := by
  simp only [Node.checkText, seq_eq_valid, map_eq_valid] at h
  obtain ⟨_, _, ⟨_, s, ⟨_, hkind, rfl⟩, htext, rfl⟩, hothers, rfl⟩ := h
  refine ⟨s, rfl, .of_answers rfl hothers ?_⟩
  rw [List.forall_mem_cons, List.forall_mem_singleton]
  exact ⟨.kind hkind, .required htext fun v => text_eq_valid.mp⟩

theorem Node.listToJson_eq_map (ns : List Node) : Node.listToJson ns = ns.map Node.toJson := by
  induction ns with
  | nil => rfl
  | cons n ns ih => rw [Node.listToJson, ih, List.map_cons]

/-- The nodes of a list are completed one by one. -/
theorem Json.Answers.nodes {check : Json → Checked Node} {ns : List Node} {label name : String}
    (h : Checked.field fields name (Checked.list check) (valid []) = valid ns)
    (hcheck : ∀ v n, check v = valid n → v.Completes n.toJson)
    (hdefault : default? label name = some (.arr [])) :
    Answers label fields (name, .arr (Node.listToJson ns)) := by
  rw [Node.listToJson_eq_map]
  exact .list h hcheck hdefault

/-- A node that is read with `left` levels left, where the nodes below are read in lists. -/
theorem Node.of_checkWithin_of_inner {k : Shape} {v : Json} {n : Node}
    (hinner : ∀ v m, Node.checkTagged (Node.enter left c) v = .valid m →
      c.cost m.shape + m.levels (c.next m.shape) ≤ left ∧ v.Completes m.toJson)
    (h : Node.checkWithin left c k v = .valid n) :
    n.shape = k ∧ n.levels c ≤ left ∧ v.Completes n.toJson := by
  have hlist : ∀ fields name ns, field fields name (Checked.list (Node.checkTagged
      (Node.enter left c))) (valid []) = valid ns → Node.levelsList c ns ≤ left := by
    intro fields name ns hns
    refine Node.levelsList_le_iff.mpr fun m hm => ?_
    obtain ⟨v, hv⟩ := exists_of_field_list hns m hm
    exact (hinner v m hv).1
  cases v with
  | obj fields =>
    cases k with
    | number =>
      rw [Node.checkWithin_number] at h
      obtain ⟨s, rfl, hcompletes⟩ := Node.of_checkText h
      exact ⟨rfl, Nat.zero_le _, hcompletes⟩
    | string =>
      rw [Node.checkWithin_string] at h
      obtain ⟨s, rfl, hcompletes⟩ := Node.of_checkText h
      exact ⟨rfl, Nat.zero_le _, hcompletes⟩
    | identifier =>
      rw [Node.checkWithin_identifier] at h
      obtain ⟨s, rfl, hcompletes⟩ := Node.of_checkText h
      exact ⟨rfl, Nat.zero_le _, hcompletes⟩
    | operator =>
      simp only [Node.checkWithin_operator, seq_eq_valid, map_eq_valid] at h
      obtain ⟨_, _, ⟨_, op, ⟨_, hkind, rfl⟩, hop, rfl⟩, hothers, rfl⟩ := h
      refine ⟨rfl, Nat.zero_le _, .of_answers rfl hothers ?_⟩
      rw [List.forall_mem_cons, List.forall_mem_singleton]
      exact ⟨.kind hkind, .required hop fun v => Operator.check_eq_valid.mp⟩
    | punctuation =>
      simp only [Node.checkWithin_punctuation, seq_eq_valid, map_eq_valid] at h
      obtain ⟨_, _, ⟨_, s, ⟨_, k, ⟨_, hkind, rfl⟩, hk, rfl⟩, htext, rfl⟩, hothers, rfl⟩ := h
      refine ⟨rfl, Nat.zero_le _, .of_answers rfl hothers ?_⟩
      rw [List.forall_mem_cons, List.forall_mem_cons, List.forall_mem_singleton]
      exact ⟨.kind hkind, .required hk fun v => Kind.check_eq_valid.mp,
        .required htext fun v => text_eq_valid.mp⟩
    | returns =>
      simp only [Node.checkWithin_returns, seq_eq_valid, map_eq_valid] at h
      obtain ⟨_, _, ⟨_, values, ⟨_, hkind, rfl⟩, hvalues, rfl⟩, hothers, rfl⟩ := h
      refine ⟨rfl, hlist _ _ _ hvalues, .of_answers rfl hothers ?_⟩
      rw [List.forall_mem_cons, List.forall_mem_singleton]
      exact ⟨.kind hkind, .nodes hvalues (fun v m hm => (hinner v m hm).2) rfl⟩
    | function =>
      simp only [Node.checkWithin_function, seq_eq_valid, map_eq_valid] at h
      obtain ⟨_, _, ⟨_, body, ⟨_, type, ⟨_, params, ⟨_, name, ⟨_, hkind, rfl⟩, hname, rfl⟩,
        hparams, rfl⟩, htype, rfl⟩, hbody, rfl⟩, hothers, rfl⟩ := h
      refine ⟨rfl, hlist _ _ _ hbody, .of_answers rfl hothers ?_⟩
      rw [List.forall_mem_cons, List.forall_mem_cons, List.forall_mem_cons, List.forall_mem_cons,
        List.forall_mem_singleton]
      exact ⟨.kind hkind, .required hname fun v => Name.check_eq_valid.mp,
        .list hparams (fun v p => Param.completes_of_check) rfl, .optionalText htype rfl,
        .nodes hbody (fun v m hm => (hinner v m hm).2) rfl⟩
  | null | bool | int | float | str | arr =>
    rw [Node.checkWithin] at h
    · cases h
    · exact nofun

theorem Node.of_checkTagged {v : Json} {n : Node}
    (h : Node.checkTagged (Node.enter left c) v = .valid n) :
    c.cost n.shape + n.levels (c.next n.shape) ≤ left ∧ v.Completes n.toJson := by
  -- the levels left get fewer with each step down
  induction left using Nat.strong_induction_on generalizing c v n with
  | _ left ih =>
  obtain ⟨fields, k, rfl, -, hk⟩ := Node.checkTagged_eq_valid.mp h
  obtain ⟨hcost, hcheck⟩ := Node.enter_eq_valid.mp hk
  have hless : left - c.cost k < left := Nat.sub_lt_of_pos_le (c.cost_pos k) hcost
  obtain ⟨rfl, hlevels, hcompletes⟩ := Node.of_checkWithin_of_inner (fun _ _ => ih _ hless) hcheck
  exact ⟨by omega, hcompletes⟩

/-- What is read has the shape that was asked for, has no more levels than there are left, and its
JSON form completes what it was read from. -/
theorem Node.of_checkWithin {k : Shape} {v : Json} {n : Node}
    (h : Node.checkWithin left c k v = .valid n) :
    n.shape = k ∧ n.levels c ≤ left ∧ v.Completes n.toJson :=
  Node.of_checkWithin_of_inner (fun _ _ => Node.of_checkTagged) h

/-! ### Whole trees -/

theorem Program.check_eq : Program.check (.obj fields) =
    (fun _ statements _ => ⟨statements⟩) <$> kindField fields "Program"
      <*> field fields "statements" (Checked.list (Node.checkTagged
        (Node.enter maxLevels .program))) (valid [])
      <*> noOthers fields ["kind", "statements"] := by
  have hinner : Program.check.inner = Node.enter maxLevels .program := by
    funext k v
    -- a leaf is not handed over, but it has nothing below it, so its checker does not matter
    cases k <;> rfl
  rw [Program.check, hinner]

theorem Program.check_toJson {p : Program} (h : p.levels ≤ maxLevels) :
    Program.check p.toJson = .valid p := by
  have hstatements := list_eq_valid.mpr ⟨_, rfl, Node.forall₂_toJson p.statements _ _ h⟩
  rw [Program.toJson, Program.check_eq, field_given rfl hstatements]
  rfl

theorem Program.of_check {v : Json} {p : Program} (h : Program.check v = .valid p) :
    p.levels ≤ maxLevels ∧ v.Completes p.toJson := by
  cases v with
  | obj fields =>
    simp only [Program.check_eq, seq_eq_valid, map_eq_valid] at h
    obtain ⟨_, _, ⟨_, statements, ⟨_, hkind, rfl⟩, hstatements, rfl⟩, hothers, rfl⟩ := h
    constructor
    · refine Node.levelsList_le_iff.mpr fun n hn => ?_
      obtain ⟨v, hv⟩ := exists_of_field_list hstatements n hn
      exact (Node.of_checkTagged hv).1
    · refine .of_answers rfl hothers ?_
      rw [List.forall_mem_cons, List.forall_mem_singleton]
      exact ⟨.kind hkind, .nodes hstatements (fun v n hn => (Node.of_checkTagged hn).2) rfl⟩
  | null | bool | int | float | str | arr => cases h

theorem Node.check_toJson_iff (n : Node) : Node.check n.shape n.toJson = .valid n ↔
    n.levels (.ofShape n.shape) < maxLevels :=
  ⟨fun h => Nat.lt_succ_of_le (Node.of_checkWithin h).2.1,
    fun h => Node.checkWithin_toJson n _ _ (Nat.le_of_lt_succ h)⟩

theorem Program.check_toJson_iff (p : Program) :
    Program.check p.toJson = .valid p ↔ p.levels ≤ maxLevels :=
  ⟨fun h => (Program.of_check h).1, Program.check_toJson⟩

theorem Program.levels_of_parse {o : Options} {ts : List Token} {p : Program}
    (h : parse o ts = .ok p) : p.levels ≤ maxLevels := by
  have hnesting : Node.nestingList p.statements ≤ 100 := (parse_eq_ok_iff.mp h).2
  have hlevels := Node.levelsList_le p.statements .program
  unfold Program.levels maxLevels
  omega

theorem Token.check_toJson (t : Token) : Token.check t.toJson = .valid t := by
  rw [Token.toJson, Token.check,
    field_given rfl (Kind.check_eq_valid.mpr rfl),
    field_given rfl (text_eq_valid.mpr rfl)]
  rfl

theorem Options.check_toJson (o : Options) : Options.check o.toJson = .valid o := rfl

/-- **Trees survive as JSON up to the limit on levels.**  A tree is read back exactly if its levels
fit, and so are all trees that a parse returns.  What is read from any JSON value agrees with it in
all that it says and adds nothing but defaults.  Tokens and options are always read back. -/
theorem json_roundtrip :
    (∀ p : Param, Param.check p.toJson = .valid p) ∧
    (∀ n : Node, Node.check n.shape n.toJson = .valid n ↔
      n.levels (.ofShape n.shape) < maxLevels) ∧
    (∀ p : Program, Program.check p.toJson = .valid p ↔ p.levels ≤ maxLevels) ∧
    (∀ v p, Param.check v = .valid p → v.Completes p.toJson) ∧
    (∀ k v n, Node.check k v = .valid n →
      n.shape = k ∧ v.Completes n.toJson ∧ Node.check k n.toJson = .valid n) ∧
    (∀ v p, Program.check v = .valid p →
      v.Completes p.toJson ∧ Program.check p.toJson = .valid p) ∧
    (∀ o ts p, parse o ts = .ok p → Program.check p.toJson = .valid p) ∧
    (∀ t : Token, Token.check t.toJson = .valid t) ∧
    ∀ o : Options, Options.check o.toJson = .valid o := by
  refine ⟨Param.check_toJson, Node.check_toJson_iff, Program.check_toJson_iff,
    fun _ _ => Param.completes_of_check, ?_, ?_, ?_, Token.check_toJson, Options.check_toJson⟩
  · intro k v n h
    obtain ⟨rfl, hlevels, hcompletes⟩ := Node.of_checkWithin h
    exact ⟨rfl, hcompletes, Node.checkWithin_toJson n _ _ hlevels⟩
  · intro v p h
    obtain ⟨hlevels, hcompletes⟩ := Program.of_check h
    exact ⟨hcompletes, Program.check_toJson hlevels⟩
  · intro o ts p h
    exact Program.check_toJson (Program.levels_of_parse h)

/-- A function without a type, with a parameter that says only its name and a return without
values. -/
theorem json_roundtrip_sparse :
    let v : Json := .obj [("name", .str ['f']), ("params", .arr [.obj [("name", .str ['a'])]]),
      ("body", .arr [.obj [("kind", .str "ReturnStmt".toList)]])]
    let n : Node := .function ⟨['f'], by decide⟩ [⟨⟨['a'], by decide⟩, none⟩] none [.returns []]
    Node.check .function v = .valid n ∧ v.Completes n.toJson ∧
      Node.check .function n.toJson = .valid n := by
  intro v n
  have hcheck : Node.check .function v = .valid n := by decide +kernel
  obtain ⟨-, -, -, -, hread, -⟩ := json_roundtrip
  obtain ⟨-, hcompletes, hback⟩ := hread _ _ _ hcheck
  exact ⟨hcheck, hcompletes, hback⟩

/-- Returns inside each other, `k` of them around the innermost. -/
def Node.tower : Nat → Node
  | 0 => .returns []
  | k + 1 => .returns [Node.tower k]

theorem Node.levels_tower (k : Nat) : (Node.tower k).levels .returns = k := by
  induction k with
  | zero => rfl
  | succ k ih =>
    have hshape : (Node.tower k).shape = .returns := by cases k <;> rfl
    rw [Node.tower, Node.levels, Node.levelsList, Node.levelsList, hshape, Nat.max_zero]
    show 1 + (Node.tower k).levels .returns = k + 1
    rw [ih, Nat.add_comm]

/-- One return too many is not read back. -/
theorem check_tower_refused :
    Node.check .returns (Node.tower 255).toJson ≠ .valid (Node.tower 255) := by
  intro h
  have hlevels : (Node.tower 255).levels .returns ≤ 254 := (Node.of_checkWithin h).2.1
  rw [Node.levels_tower] at hlevels
  exact absurd hlevels (by decide)

end TypeStrip
