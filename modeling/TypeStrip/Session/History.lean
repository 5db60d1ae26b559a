import TypeStrip.Rounding
import TypeStrip.Text.Blank

/-!
# The history of a session

Each compile request leaves one entry; only the latest ones are kept.

* `Failure`          kind and message of a request that failed;
* `Entry`            one request;
* `preview`          the beginning of a source on one line;
* `record`           an entry added to a history, of which the latest `historyLimit` stay;
* `historyText`      a history for display.
-/

namespace TypeStrip

structure Failure where
  kind : Text
  message : Text
  deriving DecidableEq, Repr, Inhabited

/-- One compile request; its duration is counted in 1024ths of a second. -/
structure Entry where
  preview : Text
  failure : Option Failure
  ticks : Nat
  deriving DecidableEq, Repr, Inhabited

def Entry.success (e : Entry) : Bool := e.failure.isNone

def previewLength : Nat := 60

/-- The words of a source with single spaces between them, cut off behind the first
`previewLength` characters. -/
def preview (source : Text) : Text :=
  let line := List.intercalate [' '] (Text.words source)
  if previewLength < line.length then line.take previewLength ++ ['…'] else line

def historyLimit : Nat := 50

/-- An entry added to a history, without the entries that are now too old. -/
def record (history : List Entry) (e : Entry) : List Entry :=
  let all := history ++ [e]
  all.drop (all.length - historyLimit)

theorem getLast?_record (history : List Entry) (e : Entry) :
    (record history e).getLast? = some e := by
  have h : ¬ (history ++ [e]).length ≤ (history ++ [e]).length - historyLimit := by
    rw [List.length_append, List.length_singleton, historyLimit]
    omega
  rw [record, List.getLast?_drop, if_neg h, List.getLast?_append]
  rfl

/-! ### Display -/

/-- A duration in milliseconds with one decimal place. -/
def durationText (ticks : Nat) : Text :=
  let tenths := roundDiv (ticks * 10000) 1024
  Text.decimal (tenths / 10) ++ '.' :: Text.decimal (tenths % 10)

example : durationText 32 = "31.2".toList := by decide +kernel
example : durationText 1025 = "1001.0".toList := by decide +kernel

def Entry.status (e : Entry) : Text :=
  match e.failure with
  | none => "✅ OK".toList
  | some f => "❌ ".toList ++ f.kind ++ ": ".toList ++ f.message

def ruler : Text := List.replicate 72 '='

def entryLines (i : Nat) (e : Entry) : List Text :=
  ["\n[".toList ++ Text.padLeft 2 '0' (Text.decimal i) ++ "] Source : ".toList ++ e.preview,
    "     Result : ".toList ++ e.status ++ "  |  ".toList ++ durationText e.ticks ++ "ms".toList]

def entriesLines (i : Nat) : List Entry → List Text
  | [] => []
  | e :: rest => entryLines i e ++ entriesLines (i + 1) rest

def historyText (history : List Entry) : Text :=
  if history.isEmpty then "No compilations recorded yet.".toList
  else
    List.intercalate ['\n']
      ([ruler, "  tinyts Compile History".toList, ruler] ++ entriesLines 1 history ++
        ['\n' :: ruler])

end TypeStrip
