import TypeStrip.CommandLine.Arguments
import TypeStrip.CommandLine.Files
import TypeStrip.Compile
import TypeStrip.Json.Layout
import TypeStrip.Text.Utf8

/-!
# The command line

The program reads one source, from a file or from its standard input, and prints its tokens and
its tree, if asked to, and its untyped form.

* `CommandLine.Outcome`      exit code and output, or the failure that ends the program;
* `CommandLine.readSource`   the text that the arguments name;
* `CommandLine.respond`      the outcome for given arguments and what reading gave;
* `CommandLine.run`          the outcome for a command line, among given files.
-/

namespace TypeStrip
namespace CommandLine

inductive Outcome where
  | exit (code : Nat) (stdout stderr : Text)
  /-- a failure that is not the input's -/
  | crash (message : Text)
  deriving DecidableEq, Repr, Inhabited

/-! ### Usage -/

def usage : List Text :=
  ["usage: tinyts [-h] [--tokens] [--tree] [--legacy-keywords] [--allow-untyped]".toList,
   "              [-v]".toList,
   "              [file]".toList]

def help : List Text :=
  usage ++
  ["".toList,
   "Strip type annotations from a tiny TypeScript-like function.".toList,
   "".toList,
   "positional arguments:".toList,
   "  file               source file, or '-' for stdin (default)".toList,
   "".toList,
   "options:".toList,
   "  -h, --help         show this help message and exit".toList,
   "  --tokens           print the token stream before the output".toList,
   "  --tree             print the syntax tree as JSON before the output".toList,
   "  --legacy-keywords  match 'return'/'function' as plain prefixes, without a".toList,
   "                     word-boundary check".toList,
   "  --allow-untyped    accept functions that declare no return type".toList,
   "  -v, --verbose      log pipeline progress to stderr".toList]

def decline : Arguments.Stop → Outcome
  | .help => .exit 0 (Text.lines help) []
  | .fault f => .exit 2 [] (Text.lines (usage ++ ["tinyts: error: ".toList ++ f.message]))

/-! ### Runs -/

def options (a : Arguments) : Options := ⟨!a.legacyKeywords, !a.allowUntyped⟩

def unreadable (a : Arguments) (reason : Text) : Outcome :=
  .exit 2 [] (Text.lines ["Cannot read ".toList ++ a.file ++ ": ".toList ++ reason])

def report (a : Arguments) (c : Compilation) : Text :=
  (if a.tokens then Text.lines (c.tokens.map Token.render ++ [[]]) else []) ++
    (if a.tree then Text.lines [c.tree.toJson.layout, []] else []) ++ Text.lines [c.output]

def logLines (a : Arguments) (stamp source : Text) : Text :=
  if a.verbose then Text.lines ((compileLog (options a) source).map (LogRecord.line stamp)) else []

def compileText (a : Arguments) (stamp source : Text) : Outcome :=
  let log := logLines a stamp source
  match compile (options a) source with
  | .ok c => .exit 0 (report a c) log
  | .error e =>
    match e.verdict with
    | .diagnostic d =>
      .exit 1 [] (log ++ Text.lines [d.kind.toList ++ ": ".toList ++ d.message])
    | .rejection r => .crash r.message
    | .malformed f => .crash f.message

/-! ### Inputs -/

inductive InputFault where
  | path (f : PathFault)
  | encoding (f : Utf8.Fault)
  deriving DecidableEq, Repr, Inhabited

def decode (bytes : Bytes) : Except InputFault Text :=
  (Utf8.decode bytes).mapError .encoding

/-- The text of a file.  Only here are line ends unified: standard input is read as it stands. -/
def fileText : Except PathFault Bytes → Except InputFault Text
  | .error f => .error (.path f)
  | .ok bytes => (decode bytes).map unifyNewlines

def readSource (a : Arguments) (d : Files) (stdin : Bytes) : Except InputFault Text :=
  if a.file = ['-'] then decode stdin else fileText (d.read a.file)

/-! ### Command lines -/

/-- The outcome for what reading gave.  No file can have a path with a NUL character in it: such a
path ends the program. -/
def respond (a : Arguments) (stamp : Text) : Except InputFault Text → Outcome
  | .error (.path .nulCharacter) => .crash (PathFault.nulCharacter.message a.file)
  | .error (.path f) => unreadable a (f.message a.file)
  | .error (.encoding f) => unreadable a f.message
  | .ok source => compileText a stamp source

def run (argv : List Text) (d : Files) (stdin : Bytes) (stamp : Text) : Outcome :=
  match Arguments.parse argv with
  | .error s => decline s
  | .ok a => respond a stamp (readSource a d stdin)

end CommandLine
end TypeStrip
