import TypeStrip.Text.Digit
import TypeStrip.Text.Quoted

/-!
# Arguments

A command line has flags and at most one file.  A flag with a long spelling may be cut down to any
beginning that fits no other spelling; flags of one letter may stand together behind one dash.
Two dashes end the flags.

* `Flag.spellings`       all spellings, in order;
* `Argument.classify`    what one word of a command line is;
* `Arguments.parse`      the arguments, or what ends the program instead of running it.
-/

namespace TypeStrip

inductive Flag where
  | help
  | tokens
  | tree
  | legacyKeywords
  | allowUntyped
  | verbose
  deriving DecidableEq, Repr, Inhabited

namespace Flag

/-- Every spelling of every flag, in the order in which they are listed in messages. -/
def spellings : List (Text × Flag) :=
  [("-h".toList, help), ("--help".toList, help), ("--tokens".toList, tokens),
   ("--tree".toList, tree), ("--legacy-keywords".toList, legacyKeywords),
   ("--allow-untyped".toList, allowUntyped), ("-v".toList, verbose),
   ("--verbose".toList, verbose)]

def ofSpelling? (s : Text) : Option Flag := spellings.lookup s

def title (f : Flag) : Text :=
  List.intercalate ['/'] ((spellings.filter fun p => p.2 = f).map Prod.fst)

end Flag

inductive UsageFault where
  | ambiguous (arg : Text) (candidates : List Text)
  | ignoredValue (flag : Flag) (value : Text)
  | unrecognized (args : List Text)
  deriving DecidableEq, Repr, Inhabited

def UsageFault.message : UsageFault → Text
  | ambiguous arg candidates =>
    "ambiguous option: ".toList ++ arg ++ " could match ".toList ++
      List.intercalate ", ".toList candidates
  | ignoredValue flag value =>
    "argument ".toList ++ flag.title ++ ": ignored explicit argument ".toList ++ Text.quoted value
  | unrecognized args => "unrecognized arguments: ".toList ++ List.intercalate [' '] args

inductive Argument where
  | positional (s : Text)
  /-- a flag, by a spelling with one or two dashes, and the text attached to it -/
  | flag (f : Flag) (short : Bool) (value : Option Text)
  /-- looks like a flag, and is none -/
  | unknown (s : Text)
  | terminator
  deriving DecidableEq, Repr, Inhabited

def isShort (spelling : Text) : Bool :=
  match spelling with
  | '-' :: '-' :: _ => false
  | _ => true

/-- Digits, perhaps with a point before the last run of them; a line feed may end the word. -/
def isNumeral (s : Text) : Bool :=
  let s := if s.getLast? = some '\n' then s.dropLast else s
  let whole := s.takeWhile isDecimalDigit
  match s.dropWhile isDecimalDigit with
  | [] => !whole.isEmpty
  | '.' :: fraction => !fraction.isEmpty && fraction.all isDecimalDigit
  | _ => false

def isNegativeNumeral (s : Text) : Bool :=
  match s with
  | '-' :: digits => isNumeral digits
  | _ => false

namespace Argument

/-- The part of a word before its first equals sign, and the part behind it if there is one. -/
def splitValue (s : Text) : Text × Option Text :=
  match s.dropWhile (· ≠ '=') with
  | [] => (s, none)
  | _ :: value => (s.takeWhile (· ≠ '='), some value)

/-- The spellings that a word may abbreviate, with the flag and the attached text in each case. -/
def candidates (s : Text) : List (Text × Argument) :=
  if isShort s then
    Flag.spellings.filterMap fun p =>
      if p.1 = s.take 2 then some (p.1, .flag p.2 true (some (s.drop 2))) else none
  else
    let (name, value) := splitValue s
    Flag.spellings.filterMap fun p =>
      if name.isPrefixOf p.1 then some (p.1, .flag p.2 false value) else none

def classifyOther (s : Text) : Except UsageFault Argument :=
  match candidates s with
  | [(_, a)] => .ok a
  | [] =>
    if isNegativeNumeral s || s.contains ' ' then .ok (.positional s) else .ok (.unknown s)
  | several => .error (.ambiguous s (several.map Prod.fst))

def classify (s : Text) : Except UsageFault Argument :=
  match s with
  | '-' :: _ :: _ =>
    match Flag.ofSpelling? s with
    | some f => .ok (.flag f (isShort s) none)
    | none =>
      let (name, value) := splitValue s
      match Flag.ofSpelling? name, value with
      | some f, some v => .ok (.flag f (isShort name) (some v))
      | _, _ => classifyOther s
  | _ => .ok (.positional s)

/-- The words of a whole command line; behind two dashes all of them are positional. -/
def classifyAll : List Text → Except UsageFault (List Argument)
  | [] => .ok []
  | s :: rest =>
    if s = ['-', '-'] then .ok (.terminator :: rest.map .positional)
    else
      match classify s with
      | .error e => .error e
      | .ok a => (classifyAll rest).map (a :: ·)

end Argument

structure Arguments where
  file : Text := ['-']
  tokens : Bool := false
  tree : Bool := false
  legacyKeywords : Bool := false
  allowUntyped : Bool := false
  verbose : Bool := false
  deriving DecidableEq, Repr, Inhabited

namespace Arguments

/-- What a command line may ask for instead of a run. -/
inductive Stop where
  | help
  | fault (f : UsageFault)
  deriving DecidableEq, Repr, Inhabited

def set (a : Arguments) : Flag → Except Stop Arguments
  | .help => .error .help
  | .tokens => .ok { a with tokens := true }
  | .tree => .ok { a with tree := true }
  | .legacyKeywords => .ok { a with legacyKeywords := true }
  | .allowUntyped => .ok { a with allowUntyped := true }
  | .verbose => .ok { a with verbose := true }

/-- The flags in one word: the text attached to a flag of one letter holds further such flags. -/
def cluster (f : Flag) (short : Bool) (value : Option Text) : Except UsageFault (List Flag) :=
  match value with
  | none => .ok [f]
  | some v => if short then letters f v else .error (.ignoredValue f v)
where
  letters (f : Flag) : Text → Except UsageFault (List Flag)
    | [] => .error (.ignoredValue f [])
    | c :: rest =>
      match Flag.ofSpelling? ['-', c] with
      | none => .error (.ignoredValue f (c :: rest))
      | some g => if rest.isEmpty then .ok [f, g] else (letters g rest).map (f :: ·)

structure Progress where
  arguments : Arguments := {}
  hasFile : Bool := false
  /-- the word just read is the file -/
  atFile : Bool := false
  extras : List Text := []
  deriving DecidableEq, Repr, Inhabited

/-- One more word.  The first positional word is the file; two dashes are dropped where the file
may still come or has just come, and are one word too many elsewhere. -/
def step (p : Progress) : Argument → Except Stop Progress
  | .positional s =>
    if p.hasFile then .ok { p with atFile := false, extras := p.extras ++ [s] }
    else .ok { p with arguments := { p.arguments with file := s }, hasFile := true, atFile := true }
  | .terminator =>
    if p.hasFile && !p.atFile then .ok { p with extras := p.extras ++ [['-', '-']] }
    else .ok { p with atFile := false }
  | .unknown s => .ok { p with atFile := false, extras := p.extras ++ [s] }
  | .flag f short value =>
    match cluster f short value with
    | .error e => .error (.fault e)
    | .ok flags =>
      match flags.foldlM set p.arguments with
      | .error e => .error e
      | .ok a => .ok { p with arguments := a, atFile := false }

def parse (argv : List Text) : Except Stop Arguments :=
  match Argument.classifyAll argv with
  | .error e => .error (.fault e)
  | .ok words =>
    match words.foldlM step {} with
    | .error e => .error e
    | .ok p =>
      if p.extras.isEmpty then .ok p.arguments else .error (.fault (.unrecognized p.extras))

end Arguments

end TypeStrip
