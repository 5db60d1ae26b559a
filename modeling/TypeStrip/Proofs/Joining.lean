import TypeStrip.Proofs.Cuts
import TypeStrip.Proofs.Separation

/-!
# Values that become one

Neighbouring numbers are written as one number, and neighbouring names as one name.  A tree in
which they are one already has the same text.

* `Node.joined`              the tree with such neighbours joined;
* `Program.untyped_joined`   it is written like the tree itself;
* `Node.spelled_joined`      its lexemes are valid up to keywords, which joined names may spell;
* `Program.isChain_joined`   no two of its neighbours are one number or one name again.
-/

namespace TypeStrip

/-- A value in front of others, made one with the first of them if they are written as one. -/
def Node.joinTo : Node → List Node → List Node
  | .number s, .number t :: ns => .number (s ++ t) :: ns
  | .identifier s, .identifier t :: ns => .identifier (s ++ t) :: ns
  | n, ns => n :: ns

def joinValues (ns : List Node) : List Node := ns.foldr Node.joinTo []

mutual

def Node.joined : Node → Node
  | .returns values => .returns (joinValues (Node.joinedList values))
  | .function name params type body => .function name params type (Node.joinedList body)
  | .number s => .number s
  | .string s => .string s
  | .identifier s => .identifier s
  | .operator op => .operator op
  | .punctuation k s => .punctuation k s

def Node.joinedList : List Node → List Node
  | [] => []
  | n :: ns => n.joined :: Node.joinedList ns

end

/-- A program in which neighbouring numbers of a `return` are one number, and neighbouring names
one name. -/
def Program.joined (p : Program) : Program := ⟨Node.joinedList p.statements⟩

/-! ### Text and nesting -/

theorem flatten_untypedList_joinTo (n : Node) (ns : List Node) :
    (Node.untypedList (n.joinTo ns)).flatten = n.untyped ++ (Node.untypedList ns).flatten := by
  fun_cases Node.joinTo n ns with
  | case1 s t ms => simp [Node.untypedList, Node.untyped]
  | case2 s t ms => simp [Node.untypedList, Node.untyped]
  | case3 => rfl

theorem flatten_untypedList_joinValues (ns : List Node) :
    (Node.untypedList (joinValues ns)).flatten = (Node.untypedList ns).flatten := by
  induction ns with
  | nil => rfl
  | cons n ns ih =>
    show (Node.untypedList (n.joinTo (joinValues ns))).flatten = _
    rw [flatten_untypedList_joinTo, ih]
    rfl

mutual

theorem Node.untyped_joined : (n : Node) → n.joined.untyped = n.untyped
  | .number _ | .string _ | .identifier _ | .operator _ | .punctuation _ _ => rfl
  | .returns values => by
    rw [Node.joined, Node.untyped, returnText_eq, flatten_untypedList_joinValues,
      Node.untypedList_joinedList values, ← returnText_eq, Node.untyped]
  | .function name params type body => by
    rw [Node.joined, Node.untyped, Node.untypedList_joinedList body, Node.untyped]

theorem Node.untypedList_joinedList : (ns : List Node) →
    Node.untypedList (Node.joinedList ns) = Node.untypedList ns
  | [] => rfl
  | n :: ns => by
    rw [Node.joinedList, Node.untypedList, Node.untyped_joined n, Node.untypedList_joinedList ns,
      Node.untypedList]

end

theorem Program.untyped_joined (p : Program) : p.joined.untyped = p.untyped := by
  show programText (Node.untypedList (Node.joinedList p.statements)) = _
  rw [Node.untypedList_joinedList, Program.untyped]

theorem nestingList_joinTo (n : Node) (ns : List Node) :
    Node.nestingList (n.joinTo ns) = max n.nesting (Node.nestingList ns) := by
  fun_cases Node.joinTo n ns with
  | case1 s t ms => simp [Node.nestingList, Node.nesting]
  | case2 s t ms => simp [Node.nestingList, Node.nesting]
  | case3 => rfl

theorem nestingList_joinValues (ns : List Node) :
    Node.nestingList (joinValues ns) = Node.nestingList ns := by
  induction ns with
  | nil => rfl
  | cons n ns ih =>
    show Node.nestingList (n.joinTo (joinValues ns)) = _
    rw [nestingList_joinTo, ih, Node.nestingList]

mutual

theorem Node.nesting_joined : (n : Node) → n.joined.nesting = n.nesting
  | .number _ | .string _ | .identifier _ | .operator _ | .punctuation _ _ => rfl
  | .returns values => by
    rw [Node.joined, Node.nesting, nestingList_joinValues, Node.nestingList_joinedList values,
      Node.nesting]
  | .function _ _ _ body => by
    rw [Node.joined, Node.nesting, Node.nestingList_joinedList body, Node.nesting]

theorem Node.nestingList_joinedList : (ns : List Node) →
    Node.nestingList (Node.joinedList ns) = Node.nestingList ns
  | [] => rfl
  | n :: ns => by
    rw [Node.joinedList, Node.nestingList, Node.nesting_joined n, Node.nestingList_joinedList ns,
      Node.nestingList]

end

/-! ### Well-made trees -/

theorem joinTo_ne_nil (n : Node) (ns : List Node) : n.joinTo ns ≠ [] := by
  fun_cases Node.joinTo n ns <;> simp

theorem wellMadeList_joinTo {n : Node} {ns : List Node} (h : n.WellMade)
    (hs : Node.WellMadeList ns) : Node.WellMadeList (n.joinTo ns) := by
  fun_cases Node.joinTo n ns with
  | case1 s t ms => exact ⟨True.intro, hs.2⟩
  | case2 s t ms => exact ⟨True.intro, hs.2⟩
  | case3 => exact ⟨h, hs⟩

theorem isSemicolon_joinTo {n : Node} {ns : List Node} (h : n.isSemicolon = false)
    (hs : ∀ m ∈ ns, m.isSemicolon = false) : ∀ m ∈ n.joinTo ns, m.isSemicolon = false := by
  fun_cases Node.joinTo n ns with
  | case1 s t ms =>
    exact List.forall_mem_cons.mpr ⟨rfl, (List.forall_mem_cons.mp hs).2⟩
  | case2 s t ms =>
    exact List.forall_mem_cons.mpr ⟨rfl, (List.forall_mem_cons.mp hs).2⟩
  | case3 => exact List.forall_mem_cons.mpr ⟨h, hs⟩

theorem wellMade_joinValues {ns : List Node} (hne : ns ≠ [])
    (hsemi : ∀ m ∈ ns, m.isSemicolon = false) (h : Node.WellMadeList ns) :
    (Node.returns (joinValues ns)).WellMade := by
  have hne' : joinValues ns ≠ [] := by
    cases ns with
    | nil => exact absurd rfl hne
    | cons n ns => exact joinTo_ne_nil n _
  have hall : (∀ m ∈ joinValues ns, m.isSemicolon = false) ∧
      Node.WellMadeList (joinValues ns) := by
    clear hne hne'
    induction ns with
    | nil => exact ⟨nofun, True.intro⟩
    | cons n ns ih =>
      obtain ⟨hn, hns⟩ := List.forall_mem_cons.mp hsemi
      obtain ⟨ih1, ih2⟩ := ih hns h.2
      exact ⟨isSemicolon_joinTo hn ih1, wellMadeList_joinTo h.1 ih2⟩
  exact ⟨hne', hall⟩

theorem Node.joinedList_eq_map (ns : List Node) : Node.joinedList ns = ns.map Node.joined := by
  induction ns with
  | nil => rfl
  | cons n ns ih => rw [Node.joinedList, ih, List.map_cons]

theorem Node.isSemicolon_joined (n : Node) : n.joined.isSemicolon = n.isSemicolon := by
  cases n <;> rfl

mutual

theorem Node.wellMade_joined : (n : Node) → n.WellMade → n.joined.WellMade
  | .number _, _ | .string _, _ | .identifier _, _ | .operator _, _ => True.intro
  | .punctuation _ _, h => h
  | .returns values, h => by
    refine wellMade_joinValues ?_ ?_ (Node.wellMadeList_joinedList values h.2.2)
    · rw [Node.joinedList_eq_map]
      simpa using h.1
    · intro v hv
      rw [Node.joinedList_eq_map] at hv
      obtain ⟨u, hu, rfl⟩ := List.mem_map.mp hv
      rw [Node.isSemicolon_joined]
      exact h.2.1 u hu
  | .function _ _ _ body, h => Node.wellMadeList_joinedList body h

theorem Node.wellMadeList_joinedList : (ns : List Node) → Node.WellMadeList ns →
    Node.WellMadeList (Node.joinedList ns)
  | [], _ => True.intro
  | n :: ns, h => ⟨Node.wellMade_joined n h.1, Node.wellMadeList_joinedList ns h.2⟩

end

/-! ### Lexemes -/

theorem spelled_joinTo {n : Node} {ns : List Node} (h : ∀ l ∈ n.skeleton, l.Spelled)
    (hs : ∀ l ∈ Node.skeletonList ns, l.Spelled) :
    ∀ l ∈ Node.skeletonList (n.joinTo ns), l.Spelled := by
  fun_cases Node.joinTo n ns with
  | case1 s t ms =>
    obtain ⟨ht, hms⟩ := List.forall_mem_cons.mp hs
    refine List.forall_mem_cons.mpr ⟨?_, hms⟩
    have h1 := h ⟨.number, s⟩ List.mem_cons_self
    exact ⟨by simp [h1.1], List.forall_mem_append.mpr ⟨h1.2, ht.2⟩⟩
  | case2 s t ms =>
    obtain ⟨ht, hms⟩ := List.forall_mem_cons.mp hs
    refine List.forall_mem_cons.mpr ⟨?_, hms⟩
    have h1 := h ⟨.name, s⟩ List.mem_cons_self
    exact ⟨by simp [h1.1], List.forall_mem_append.mpr ⟨h1.2, ht.2⟩⟩
  | case3 => exact List.forall_mem_append.mpr ⟨h, hs⟩

theorem spelled_joinValues {ns : List Node} (h : ∀ l ∈ Node.skeletonList ns, l.Spelled) :
    ∀ l ∈ Node.skeletonList (joinValues ns), l.Spelled := by
  induction ns with
  | nil => exact h
  | cons n ns ih =>
    obtain ⟨hn, hns⟩ := List.forall_mem_append.mp h
    exact spelled_joinTo hn (ih hns)

mutual

theorem Node.spelled_joined : (n : Node) → (∀ l ∈ n.skeleton, l.Spelled) →
    ∀ l ∈ n.joined.skeleton, l.Spelled
  | .number _, h | .string _, h | .identifier _, h | .operator _, h | .punctuation _ _, h => h
  | .returns values, h => by
    rw [Node.skeleton, List.forall_mem_append, List.forall_mem_cons] at h
    rw [Node.joined, Node.skeleton, List.forall_mem_append, List.forall_mem_cons]
    exact ⟨⟨h.1.1, spelled_joinValues (Node.spelled_joinedList values h.1.2)⟩, h.2⟩
  | .function name params type body, h => by
    rw [Node.skeleton, List.forall_mem_append, List.forall_mem_append] at h
    rw [Node.joined, Node.skeleton, List.forall_mem_append, List.forall_mem_append]
    exact ⟨⟨h.1.1, Node.spelled_joinedList body h.1.2⟩, h.2⟩

theorem Node.spelled_joinedList : (ns : List Node) → (∀ l ∈ Node.skeletonList ns, l.Spelled) →
    ∀ l ∈ Node.skeletonList (Node.joinedList ns), l.Spelled
  | [], h => h
  | n :: ns, h => by
    rw [Node.skeletonList, List.forall_mem_append] at h
    rw [Node.joinedList, Node.skeletonList, List.forall_mem_append]
    exact ⟨Node.spelled_joined n h.1, Node.spelled_joinedList ns h.2⟩

end

/-! ### Neighbours -/

/-- Whether two neighbours of these shapes are written as one. -/
def Shape.joins : Shape → Shape → Bool
  | .number, .number | .identifier, .identifier => true
  | _, _ => false

def Kind.joins : Kind → Kind → Bool
  | number, number | name, name => true
  | _, _ => false

theorem clash_joins : Clash Kind.joins Shape.joins where
  left k l hk := by
    cases k with
    | number | name => cases hk
    | _ => rfl
  right k l hl := by
    cases l with
    | number | name => cases hl
    | _ => cases k <;> rfl
  shapes n m hn hm := by
    cases n with
    | punctuation k s => rcases hn with rfl | rfl | rfl <;> rfl
    | number s | identifier s =>
      cases m with
      | punctuation k s => rcases hm with rfl | rfl | rfl <;> rfl
      | number | string | identifier | operator | returns | function => rfl
    | string s | operator s | returns vs | function name params type body => rfl

theorem isChain_joinTo {n : Node} {ns : List Node}
    (h : ns.IsChain fun v w => v.shape.joins w.shape = false) :
    (n.joinTo ns).IsChain fun v w => v.shape.joins w.shape = false := by
  fun_cases Node.joinTo n ns with
  | case1 s t ms => exact List.isChain_cons.mpr (List.isChain_cons.mp h)
  | case2 s t ms => exact List.isChain_cons.mpr (List.isChain_cons.mp h)
  | case3 _ _ hnum hname =>
    refine List.isChain_cons.mpr ⟨?_, h⟩
    intro m hm
    obtain ⟨ms, rfl⟩ := List.head?_eq_some_iff.mp hm
    cases n with
    | number s =>
      cases m with
      | number t => exact (hnum s t ms rfl rfl).elim
      | string | identifier | operator | punctuation | returns | function => rfl
    | identifier s =>
      cases m with
      | identifier t => exact (hname s t ms rfl rfl).elim
      | number | string | operator | punctuation | returns | function => rfl
    | string | operator | punctuation | returns | function => rfl

theorem separateList_joinTo {n : Node} {ns : List Node} (h : n.Separate Shape.joins)
    (hs : Node.SeparateList Shape.joins ns) : Node.SeparateList Shape.joins (n.joinTo ns) := by
  fun_cases Node.joinTo n ns with
  | case1 s t ms => exact ⟨True.intro, hs.2⟩
  | case2 s t ms => exact ⟨True.intro, hs.2⟩
  | case3 => exact ⟨h, hs⟩

/-- No two values that are written as one are left. -/
theorem separate_joinValues {ns : List Node} (h : Node.SeparateList Shape.joins ns) :
    (Node.returns (joinValues ns)).Separate Shape.joins := by
  induction ns with
  | nil => exact ⟨List.isChain_nil, True.intro⟩
  | cons n ns ih =>
    obtain ⟨ih1, ih2⟩ := ih h.2
    exact ⟨isChain_joinTo ih1, separateList_joinTo h.1 ih2⟩

mutual

theorem Node.separate_joined : (n : Node) → n.joined.Separate Shape.joins
  | .number _ | .string _ | .identifier _ | .operator _ | .punctuation _ _ => True.intro
  | .returns values => separate_joinValues (Node.separateList_joinedList values)
  | .function _ _ _ body => Node.separateList_joinedList body

theorem Node.separateList_joinedList : (ns : List Node) →
    Node.SeparateList Shape.joins (Node.joinedList ns)
  | [] => True.intro
  | n :: ns => ⟨Node.separate_joined n, Node.separateList_joinedList ns⟩

end

theorem Program.isChain_joined {p : Program} (h : Node.WellMadeList p.statements) :
    p.joined.pieces.IsChain (Piece.Apart Kind.joins) := by
  refine (clash_joins.isChain_piecesList _ _ _ (Node.wellMadeList_joinedList _ h)).mpr ⟨?_, ?_⟩
  · exact fun hsep => absurd hsep (by simp)
  · exact Node.separateList_joinedList p.statements

end TypeStrip
