import TypeStrip.Parse

/-!
# Cursors

A forward-only place in a token list together with a count of the constructs entered there.  An
operation gives its result or its fault, and the cursor it leaves behind in either case.

A walk reads one node by recursive descent: a construct is entered, its parts are read one after
the other, and the construct is left again, however reading it ended.  The descent comes to an end
because every part that was read leaves fewer tokens behind, which is what `Reading` records.

* `Cursor.peek`, `Cursor.check`, `Cursor.describe`      looking at the current token;
* `Cursor.advance`, `Cursor.expect`                     reading it;
* `Cursor.descend`, `Cursor.ascend`                     counting constructs;
* `Cursor.Reading`                                      an outcome that leaves fewer tokens;
* `Cursor.heading`                                      reading a function up to its body;
* `Cursor.walk`                                         reading one node.
-/

namespace TypeStrip

structure Cursor where
  tokens : List Token
  /-- the number of tokens read -/
  position : Nat := 0
  depth : Int := 0
  limit : Int := maxDepth
  deriving DecidableEq, Repr

namespace Cursor

abbrev Outcome (α : Type) := Except ParseFault α × Cursor

def rest (c : Cursor) : List Token := c.tokens.drop c.position

def atEnd (c : Cursor) : Bool := c.tokens.length ≤ c.position

def peek (c : Cursor) : Option Token := c.tokens[c.position]?

def check (c : Cursor) (k : Kind) : Bool :=
  match c.peek with
  | none => false
  | some t => t.kind = k

def describe (c : Cursor) : Text := describeFound c.peek

def skip (c : Cursor) : Cursor := { c with position := c.position + 1 }

def advance (c : Cursor) : Outcome Token :=
  match c.peek with
  | none => (.error (.unexpected .moreInput none), c)
  | some t => (.ok t, c.skip)

/-- Reads one token of kind `k`; the fault names `expected` otherwise. -/
def require (c : Cursor) (k : Kind) (expected : Expectation) : Outcome Token :=
  if c.check k then c.advance else (.error (.unexpected expected c.peek), c)

def expect (c : Cursor) (k : Kind) (expected : Text) : Outcome Token :=
  c.require k (.custom expected)

def deeper (c : Cursor) : Cursor := { c with depth := c.depth + 1 }

/-- Enters a construct, unless as many as the limit allows are entered already. -/
def descend (c : Cursor) : Outcome Unit :=
  if c.limit ≤ c.depth then (.error (.unexpected .shallowerNesting c.peek), c)
  else (.ok (), c.deeper)

def ascend (c : Cursor) : Cursor := { c with depth := c.depth - 1 }

/-! ### Tokens left -/

/-- The number of tokens that are still to be read. -/
def left (c : Cursor) : Nat := c.tokens.length - c.position

theorem left_skip_le (c : Cursor) : c.skip.left ≤ c.left := by
  show c.tokens.length - (c.position + 1) ≤ c.tokens.length - c.position
  omega

theorem left_skip_lt {c : Cursor} {t : Token} (h : c.peek = some t) : c.skip.left < c.left := by
  have hlt : c.position < c.tokens.length := (List.getElem?_eq_some_iff.mp h).1
  show c.tokens.length - (c.position + 1) < c.tokens.length - c.position
  omega

theorem exists_of_check {c : Cursor} {k : Kind} (h : c.check k = true) :
    ∃ t, c.peek = some t ∧ t.kind = k := by
  unfold check at h
  split at h
  · cases h
  · next t ht => exact ⟨t, ht, of_decide_eq_true h⟩

theorem require_left {c c' : Cursor} {k : Kind} {e : Expectation} {t : Token}
    (h : c.require k e = (.ok t, c')) : c'.left < c.left := by
  unfold require advance at h
  split at h
  · next hk =>
    obtain ⟨u, hu, -⟩ := exists_of_check hk
    rw [hu] at h
    cases h
    exact left_skip_lt hu
  · cases h

/-- An outcome whose result, if there is one, leaves fewer than `n` tokens to be read. -/
structure Reading (n : Nat) (α : Type) where
  outcome : Outcome α
  left_lt : ∀ a c, outcome = (.ok a, c) → c.left < n

namespace Reading
variable {n m : Nat} {α β : Type}

def fail (e : ParseFault) (c : Cursor) : Reading n α := ⟨(.error e, c), nofun⟩

def give (a : α) (c : Cursor) (h : c.left < n) : Reading n α :=
  ⟨(.ok a, c), fun _ _ heq => by cases heq; exact h⟩

/-- One reading after another, which starts where the first one ended. -/
def andThen (r : Reading n α) (f : α → (c : Cursor) → c.left < n → Reading m β) : Reading m β :=
  match r with
  | ⟨(.error e, c), _⟩ => fail e c
  | ⟨(.ok a, c), h⟩ => f a c (h a c rfl)

def weaken (h : n ≤ m) (r : Reading n α) : Reading m α :=
  ⟨r.outcome, fun a c heq => Nat.lt_of_lt_of_le (r.left_lt a c heq) h⟩

/-- The same reading, one level further out behind it. -/
def ascend (r : Reading n α) : Reading n α :=
  ⟨(r.outcome.1, r.outcome.2.ascend), fun a c heq => by
    obtain ⟨ha, rfl⟩ := Prod.mk.inj heq
    exact r.left_lt a r.outcome.2 (Prod.ext ha rfl)⟩

end Reading

def token (c : Cursor) (k : Kind) (expected : Expectation) : Reading c.left Token :=
  ⟨c.require k expected, fun _ _ h => require_left h⟩

/-! ### Headers of functions -/

/-- The end of a parameter: a comma belongs to it, and it is built behind the comma. -/
def settle {n : Nat} (name : Text) (type : Option Text) (c : Cursor) (h : c.left < n) :
    Reading n Param :=
  if c.check .comma then build c.skip (Nat.lt_of_le_of_lt c.left_skip_le h) else build c h
where
  build (c : Cursor) (h : c.left < n) : Reading n Param :=
    match Name.ofText? name with
    | none => .fail (.flawed .paramName) c
    | some p => .give ⟨p, type⟩ c h

def param (c : Cursor) : Reading c.left Param :=
  (c.token .name .paramOrParenClose).andThen fun name c' h =>
    if c'.check .colon then
      (c'.skip.token .name .paramType).andThen fun type c'' h' =>
        settle name.text (some type.text) c'' (by have := c'.left_skip_le; omega)
    else settle name.text none c' h

/-- The parameters up to the closing parenthesis, which is read too; `ps` are those read so far,
latest first. -/
def params (ps : List Param) (c : Cursor) : Reading c.left (List Param) :=
  if h : c.check .parenClose then
    .give ps.reverse c.skip (by obtain ⟨t, ht, -⟩ := exists_of_check h; exact left_skip_lt ht)
  else c.param.andThen fun p c' _ => (params (p :: ps) c').weaken (by omega)
termination_by c.left

structure Heading where
  name : Text
  params : List Param
  returnType : Option Text
  deriving DecidableEq, Repr

def heading (o : Options) (c : Cursor) : Reading c.left Heading :=
  (c.token .name .functionName).andThen fun name c _ =>
  (c.token .parenOpen .parenOpen).andThen fun _ c _ =>
  (c.params []).andThen fun ps c _ =>
  if o.requireReturnType || !c.check .braceOpen then
    (c.token .colon .colonAfterParams).andThen fun _ c _ =>
    (c.token .name .returnType).andThen fun type c _ =>
    (c.token .braceOpen .braceOpen).andThen fun _ c _ =>
    .give ⟨name.text, ps, some type.text⟩ c (by omega)
  else
    (c.token .braceOpen .braceOpen).andThen fun _ c _ =>
    .give ⟨name.text, ps, none⟩ c (by omega)

/-! ### Nodes -/

def leaf (c : Cursor) (t : Token) (h : c.peek = some t) : Reading c.left Node :=
  match t.kind with
  | .number => .give (.number t.text) c.skip (left_skip_lt h)
  | .operator =>
    match Operator.ofText? t.text with
    | none => .fail (.flawed (.operatorSign t.text)) c.skip
    | some op => .give (.operator op) c.skip (left_skip_lt h)
  | .string => .give (.string t.text) c.skip (left_skip_lt h)
  | .name => .give (.identifier t.text) c.skip (left_skip_lt h)
  | .colon | .comma | .semicolon => .give (.punctuation t.kind t.text) c.skip (left_skip_lt h)
  | _ => .fail (.unexpected .knownToken (some t)) c

/-- A construct is read one level further in, and that level is left however the reading ends. -/
def inside {n : Nat} {α : Type} (c : Cursor) (body : Unit → Reading n α) : Reading n α :=
  match c.descend with
  | (.error e, c) => .fail e c
  | (.ok (), _) => (body ()).ascend

mutual

def node (o : Options) (c : Cursor) : Reading c.left Node :=
  match h : c.peek with
  | none => .fail (.unexpected .statement none) c
  | some t =>
    match t.kind with
    | .keywordReturn => c.inside fun _ => (returnNode o c.deeper.skip).weaken (left_skip_lt h)
    | .keywordFunction => c.inside fun _ => (functionNode o c.deeper.skip).weaken (left_skip_lt h)
    | _ => c.leaf t h
termination_by (c.left, 0)
decreasing_by all_goals exact Prod.Lex.left _ _ (left_skip_lt h)

def returnNode (o : Options) (c : Cursor) : Reading (c.left + 1) Node :=
  if c.check .semicolon then .fail (.unexpected .returnValue c.peek) c
  else
    (nodesUntil o .semicolon .semicolonAfterReturn [] c).andThen fun values c' h =>
    .give (.returns values.reverse) c'.skip (Nat.lt_of_le_of_lt c'.left_skip_le h)
termination_by (c.left, 2)

/-- A function behind its keyword.  Its name is looked at when the whole function is read. -/
def functionNode (o : Options) (c : Cursor) : Reading (c.left + 1) Node :=
  (c.heading o).andThen fun hd c' _ =>
  (nodesUntil o .braceClose .braceClose [] c').andThen fun body c'' _ =>
  match Name.ofText? hd.name with
  | none => .fail (.flawed .functionName) c''.skip
  | some name =>
    .give (.function name hd.params hd.returnType body.reverse) c''.skip
      (by have := c''.left_skip_le; omega)
termination_by (c.left, 2)

/-- The nodes in front of a token of kind `close`; `ns` are those read so far, latest first. -/
def nodesUntil (o : Options) (close : Kind) (missing : Expectation) (ns : List Node)
    (c : Cursor) : Reading (c.left + 1) (List Node) :=
  if c.check close then .give ns c (Nat.lt_succ_self _)
  else if c.atEnd then .fail (.unexpected missing none) c
  else (node o c).andThen fun n c' _ => (nodesUntil o close missing (n :: ns) c').weaken (by omega)
termination_by (c.left, 1)

end

/-- Reads one node.  A failing walk keeps the tokens it has read. -/
def walk (c : Cursor) (o : Options) : Outcome Node := (node o c).outcome

end Cursor

end TypeStrip
