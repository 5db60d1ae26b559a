import TypeStrip.Diagnostic
import TypeStrip.Log
import TypeStrip.Model

/-!
# Compilation

A source is scanned, parsed and written again without its types.  The first stage that fails
decides the outcome.

* `Compilation`     tokens, tree and output of one run;
* `CompileFault`    the failure of one of the stages;
* `compile`         the outcome for a source;
* `compileChain`    the outcomes of compiling an output again and again;
* `compileLog`      the log records that such a run writes.
-/

namespace TypeStrip

structure Compilation where
  tokens : List Token
  tree : Program
  output : Text
  deriving DecidableEq, Repr

inductive CompileFault where
  | scan (fault : ScanFault)
  | parse (stop : ParseStop)
  | emit (fault : EmitFault)
  deriving DecidableEq, Repr

/-- Why a run is over: a report on the source, a value that breaks the rules of its model, or a
tree that is not made as trees are. -/
inductive Verdict where
  | diagnostic (d : Diagnostic)
  | rejection (r : Rejection)
  | malformed (fault : EmitFault)
  deriving DecidableEq, Repr, Inhabited

def EmitFault.verdict : EmitFault → Verdict
  | .foreign kind => .diagnostic (.emit (.str kind))
  | fault => .malformed fault

def ParseFault.verdict : ParseFault → Verdict
  | .unexpected e found => .diagnostic (e.diagnostic found)
  | .flawed f => .rejection f.rejection

def CompileFault.verdict : CompileFault → Verdict
  | .scan f => .diagnostic f.diagnostic
  | .parse stop => stop.fault.verdict
  | .emit f => f.verdict

def read (o : Options) (s : Text) : Except CompileFault (List Token × Program) :=
  match scan o s with
  | .error e => .error (.scan e)
  | .ok tokens =>
    match parse o tokens with
    | .error e => .error (.parse e)
    | .ok tree => .ok (tokens, tree)

def compile (o : Options) (s : Text) : Except CompileFault Compilation :=
  match read o s with
  | .error e => .error e
  | .ok (tokens, tree) =>
    match tree.sketch.emit with
    | .error e => .error (.emit e)
    | .ok output => .ok ⟨tokens, tree, output.display⟩

/-- The outputs of a source, of its output, and so on, each compiled with the next options; the
first failure ends the list. -/
def compileChain : List Options → Text → List (Except CompileFault Text)
  | [], _ => []
  | o :: rest, s =>
    match compile o s with
    | .error e => [.error e]
    | .ok c => .ok c.output :: compileChain rest c.output

/-! ### The log of a run -/

def countMessage (parts : List (Nat × String)) : Text :=
  parts.flatMap fun p => Text.decimal p.1 ++ p.2.toList

def functionRecord (f : Name × Nat) : LogRecord :=
  ⟨.debug, .parser, "Parsed function '".toList ++ f.1.text ++ "' with ".toList ++
    countMessage [(f.2, " parameter(s).")]⟩

def scanLog (o : Options) (s : Text) : List LogRecord :=
  match scan o s with
  | .error _ => []
  | .ok tokens =>
    [⟨.debug, .scanner, "Lexed ".toList ++
      countMessage [(tokens.length, " tokens from "), (s.length, " characters.")]⟩]

/-- A parse reports each function when it ends, and the whole program if it gets that far. -/
def parseLog (o : Options) (tokens : List Token) : List LogRecord :=
  match parseFrom o maxDepth .start 0 tokens with
  | .error stop => stop.state.functions.map functionRecord
  | .ok state =>
    state.functions.map functionRecord ++
      [⟨.debug, .parser, "Parsed ".toList ++
        countMessage [(state.done.length, " top-level statement(s) from "),
          (tokens.length, " tokens.")]⟩]

def outcomeLog : Except CompileFault Compilation → List LogRecord
  | .ok c =>
    [⟨.info, .compiler, "Compilation complete: ".toList ++
      countMessage [(c.tokens.length, " tokens, "), (c.tree.statements.length, " statement(s), "),
        (c.output.length, " output characters.")]⟩]
  | .error e =>
    match e.verdict with
    | .diagnostic d =>
      [⟨.info, .compiler, d.kind.toList ++ " during ".toList ++ d.stage.toList ++
        " stage: ".toList ++ d.message⟩]
    | .rejection _ | .malformed _ => []

def compileLog (o : Options) (s : Text) : List LogRecord :=
  [⟨.info, .compiler, "Compiling ".toList ++ countMessage [(s.length, " characters of source.")]⟩]
    ++ scanLog o s
    ++ (match scan o s with
      | .error _ => []
      | .ok tokens => parseLog o tokens)
    ++ outcomeLog (compile o s)

end TypeStrip
