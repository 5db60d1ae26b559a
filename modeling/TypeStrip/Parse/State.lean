import TypeStrip.Tree

/-!
# Open constructs

Between two tokens a parse is described by what is open: the function bodies and `return`s around
the present place, the nodes that each of them holds so far, and the header of a function whose
body has not begun.  Lists of finished nodes are kept latest first.

* `Header`        the stages of a function header;
* `Frame`         a `return` or a function body that is still open;
* `ParseState`    the whole description;
* `ParseState.add`   one more finished node at the present place.
-/

namespace TypeStrip

/-- How far a function header has been read.  Parameters are kept latest first. -/
inductive Header where
  /-- behind `function` -/
  | start
  /-- behind the name -/
  | named (name : Text)
  /-- inside the parentheses, where a parameter may begin -/
  | params (name : Text) (params : List Param)
  /-- behind the name of a parameter -/
  | param (name : Text) (params : List Param) (param : Text)
  /-- behind the colon of a parameter -/
  | paramColon (name : Text) (params : List Param) (param : Text)
  /-- behind the type of a parameter -/
  | paramTyped (name : Text) (params : List Param) (param type : Text)
  /-- behind the closing parenthesis -/
  | closed (name : Text) (params : List Param)
  /-- behind the colon of the return type -/
  | returnColon (name : Text) (params : List Param)
  /-- behind the return type -/
  | typed (name : Text) (params : List Param) (type : Text)
  deriving DecidableEq, Repr, Inhabited

inductive Frame where
  | returning (values : List Node)
  | body (name : Text) (params : List Param) (returnType : Option Text) (nodes : List Node)
  deriving DecidableEq, Repr

def Frame.nodes : Frame → List Node
  | .returning values => values
  | .body _ _ _ nodes => nodes

def Frame.add (n : Node) : Frame → Frame
  | .returning values => .returning (n :: values)
  | .body name params type nodes => .body name params type (n :: nodes)

structure ParseState where
  /-- the finished nodes outside of every open construct -/
  done : List Node
  /-- the open constructs, innermost first -/
  opened : List Frame
  header : Option Header
  deriving DecidableEq, Repr

namespace ParseState

def start : ParseState := ⟨[], [], none⟩

/-- One more finished node: it belongs to the innermost open construct. -/
def add (n : Node) (s : ParseState) : ParseState :=
  match s.opened with
  | [] => { s with done := n :: s.done }
  | f :: rest => { s with opened := f.add n :: rest }

end ParseState

/-! ### Functions read so far -/

mutual

/-- The functions inside a node with their numbers of parameters, in the order in which they end. -/
def Node.functions : Node → List (Name × Nat)
  | .returns values => Node.listFunctions values
  | .function name params _ body => Node.listFunctions body ++ [(name, params.length)]
  | .number _ | .string _ | .identifier _ | .operator _ | .punctuation _ _ => []

def Node.listFunctions : List Node → List (Name × Nat)
  | [] => []
  | n :: rest => n.functions ++ Node.listFunctions rest

end

/-- The functions that have ended so far: a node of an outer construct ended before any node of an
inner one began. -/
def ParseState.functions (s : ParseState) : List (Name × Nat) :=
  Node.listFunctions (s.done.reverse ++ s.opened.reverse.flatMap fun f => f.nodes.reverse)

end TypeStrip
