import Mathlib.Order.Lattice
import TypeStrip.Options
import TypeStrip.Tree

/-!
# The grammar

Which token lists spell which trees, said without a parser.  In the usual notation

    Program = Node*
    Node    = Number | Operator | String | Name | Colon | Comma | Semicolon
            | KeywordReturn V+ Semicolon              each V a Node other than a Semicolon
            | Head Node* BraceClose
    Head    = KeywordFunction Name ParenOpen Param* ParenClose Type BraceOpen
    Param   = Name Type Comma?
    Type    = (Colon Name)?                           in a Head never empty if it is required

and every node carries the texts of its tokens.

* `SpellsType`, `SpellsParams`, `SpellsHead`   the parts of a function header;
* `SpellsLeaf`                                 a node of one token;
* `Spells`                                     `Node*`;
* `Node.nesting`                               the number of constructs around each other.
-/

namespace TypeStrip

/-- A declared type, or nothing. -/
inductive SpellsType : List Token → Option Text → Prop where
  | none : SpellsType [] none
  | some {c t : Token} (hc : c.kind = .colon) (ht : t.kind = .name) :
      SpellsType [c, t] (some t.text)

/-- A comma, or nothing. -/
inductive SpellsComma : List Token → Prop where
  | absent : SpellsComma []
  | present {c : Token} (hc : c.kind = .comma) : SpellsComma [c]

/-- `Param*` -/
inductive SpellsParams : List Token → List Param → Prop where
  | nil : SpellsParams [] []
  | cons {n : Token} {name : Name} {type : Option Text} {ts us vs : List Token} {ps : List Param}
      (hn : n.kind = .name) (hname : n.text = name.text) (ht : SpellsType ts type)
      (hc : SpellsComma us) (hps : SpellsParams vs ps) :
      SpellsParams (n :: (ts ++ us) ++ vs) (⟨name, type⟩ :: ps)

/-- A function up to the brace that opens its body. -/
inductive SpellsHead (o : Options) : List Token → Text → List Param → Option Text → Prop where
  | mk {f n a b c : Token} {ts us : List Token} {params : List Param} {type : Option Text}
      (hf : f.kind = .keywordFunction) (hn : n.kind = .name) (ha : a.kind = .parenOpen)
      (hps : SpellsParams ts params) (hb : b.kind = .parenClose) (ht : SpellsType us type)
      (hreq : o.requireReturnType = true → type ≠ none) (hc : c.kind = .braceOpen) :
      SpellsHead o ([f, n, a] ++ ts ++ b :: us ++ [c]) n.text params type

/-- A node of one token. -/
inductive SpellsLeaf : Token → Node → Prop where
  | number {t : Token} (h : t.kind = .number) : SpellsLeaf t (.number t.text)
  | string {t : Token} (h : t.kind = .string) : SpellsLeaf t (.string t.text)
  | identifier {t : Token} (h : t.kind = .name) : SpellsLeaf t (.identifier t.text)
  | operator {t : Token} {op : Operator} (h : t.kind = .operator) (ht : t.text = [op.sign]) :
      SpellsLeaf t (.operator op)
  | punctuation {t : Token} (h : t.kind = .colon ∨ t.kind = .comma ∨ t.kind = .semicolon) :
      SpellsLeaf t (.punctuation t.kind t.text)

/-- A semicolon that stands for itself. -/
def Node.isSemicolon : Node → Bool
  | .punctuation .semicolon _ => true
  | _ => false

/-- `Node*`, by the alternatives for its first node. -/
inductive Spells (o : Options) : List Token → List Node → Prop where
  | nil : Spells o [] []
  | leaf {t : Token} {n : Node} {us : List Token} {ns : List Node} (hn : SpellsLeaf t n)
      (hns : Spells o us ns) : Spells o (t :: us) (n :: ns)
  | returns {r e : Token} {ts us : List Token} {values ns : List Node}
      (hr : r.kind = .keywordReturn) (hv : Spells o ts values) (hne : values ≠ [])
      (hs : ∀ v ∈ values, v.isSemicolon = false) (he : e.kind = .semicolon)
      (hns : Spells o us ns) : Spells o (r :: ts ++ e :: us) (.returns values :: ns)
  | function {e : Token} {hs ts us : List Token} {name : Name} {params : List Param}
      {type : Option Text} {body ns : List Node} (hh : SpellsHead o hs name.text params type)
      (hb : Spells o ts body) (he : e.kind = .braceClose) (hns : Spells o us ns) :
      Spells o (hs ++ ts ++ e :: us) (.function name params type body :: ns)

/-! ### Nesting -/

mutual

/-- The greatest number of constructs of a node around each other. -/
def Node.nesting : Node → Nat
  | .returns values => 1 + Node.nestingList values
  | .function _ _ _ body => 1 + Node.nestingList body
  | .number _ | .string _ | .identifier _ | .operator _ | .punctuation _ _ => 0

def Node.nestingList : List Node → Nat
  | [] => 0
  | n :: ns => max n.nesting (Node.nestingList ns)

end

def Program.nesting (p : Program) : Nat := Node.nestingList p.statements

theorem Node.nestingList_append (ns ms : List Node) :
    Node.nestingList (ns ++ ms) = max (Node.nestingList ns) (Node.nestingList ms) := by
  induction ns with
  | nil => exact (Nat.zero_max _).symm
  | cons n ns ih => rw [List.cons_append, Node.nestingList, ih, Node.nestingList, max_assoc]

theorem Node.nestingList_reverse (ns : List Node) :
    Node.nestingList ns.reverse = Node.nestingList ns := by
  induction ns with
  | nil => rfl
  | cons n ns ih =>
    rw [List.reverse_cons, Node.nestingList_append, ih, Node.nestingList, max_comm,
      Node.nestingList, Node.nestingList, Nat.max_zero]

theorem SpellsLeaf.nesting {t : Token} {n : Node} (h : SpellsLeaf t n) : n.nesting = 0 := by
  cases h <;> rfl

/-! ### Spellings side by side -/

variable {o : Options}

theorem Spells.append {ts us : List Token} {ns ms : List Node} (h : Spells o ts ns)
    (h' : Spells o us ms) : Spells o (ts ++ us) (ns ++ ms) := by
  induction h with
  | nil => exact h'
  | leaf hn _ ih => exact .leaf hn ih
  | returns hr hv hne hs he _ _ ih =>
    have h2 := Spells.returns hr hv hne hs he ih
    simpa using h2
  | function hh hb he _ _ ih =>
    have h2 := Spells.function hh hb he ih
    simpa using h2

theorem SpellsParams.append {ts us : List Token} {ps qs : List Param} (h : SpellsParams ts ps)
    (h' : SpellsParams us qs) : SpellsParams (ts ++ us) (ps ++ qs) := by
  induction h with
  | nil => exact h'
  | cons hn hname ht hc _ ih =>
    have h2 := SpellsParams.cons hn hname ht hc ih
    simpa using h2

theorem SpellsParams.snoc {ts us vs : List Token} {ps : List Param} {n : Token} {name : Name}
    {type : Option Text} (h : SpellsParams ts ps) (hn : n.kind = .name)
    (hname : n.text = name.text) (ht : SpellsType us type) (hc : SpellsComma vs) :
    SpellsParams (ts ++ n :: (us ++ vs)) (ps ++ [⟨name, type⟩]) := by
  have h2 := h.append (.cons hn hname ht hc .nil)
  simpa using h2

end TypeStrip
