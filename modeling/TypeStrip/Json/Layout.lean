import TypeStrip.Json

/-!
# The layout of JSON texts

Each item of a list and each field of an object stands on a line of its own, two blanks further
in than the bracket around it; an empty list or object is written without a line break.  Only the
characters from the space to the tilde stand for themselves: the others are written by their
UTF-16 code units.

* `Json.escape`    one character of a JSON string;
* `Json.layout`    a value on as many lines as it needs.
-/

namespace TypeStrip
namespace Json

def unit (n : Nat) : Text := '\\' :: 'u' :: Text.hex 4 n

/-- One character inside a JSON string; a code point above U+FFFF takes a pair of surrogates. -/
def escape (c : Char) : Text :=
  if c = '"' || c = '\\' then ['\\', c]
  else if c = '\n' then ['\\', 'n']
  else if c = '\r' then ['\\', 'r']
  else if c = '\t' then ['\\', 't']
  else if c = '\x08' then ['\\', 'b']
  else if c = '\x0c' then ['\\', 'f']
  else if ' ' ≤ c && c ≤ '~' then [c]
  else if c.toNat < 0x10000 then unit c.toNat
  else
    let n := c.toNat - 0x10000
    unit (0xd800 + n / 0x400) ++ unit (0xdc00 + n % 0x400)

def quotedString (s : Text) : Text := '"' :: s.flatMap escape ++ ['"']

def floatText : Binary64 → Text
  | .finite x => x.text
  | .infinite negative => (if negative then "-Infinity" else "Infinity").toList
  | .notANumber => "NaN".toList

def newline (level : Nat) : Text := '\n' :: List.replicate (2 * level) ' '

/-- Items between two brackets, each on a line of its own at level `level + 1`. -/
def block (level : Nat) (opening closing : Char) : List Text → Text
  | [] => [opening, closing]
  | items =>
    opening :: newline (level + 1) ++
      List.intercalate (',' :: newline (level + 1)) items ++ newline level ++ [closing]

mutual

def layoutAt (level : Nat) : Json → Text
  | null => "null".toList
  | bool b => (if b then "true" else "false").toList
  | int n => Text.decimalInt n
  | float x => floatText x
  | str s => quotedString s
  | arr items => block level '[' ']' (layoutItems (level + 1) items)
  | obj fields => block level '{' '}' (layoutFields (level + 1) fields)

def layoutItems (level : Nat) : List Json → List Text
  | [] => []
  | v :: rest => layoutAt level v :: layoutItems level rest

def layoutFields (level : Nat) : List (String × Json) → List Text
  | [] => []
  | (k, v) :: rest =>
    (quotedString k.toList ++ ": ".toList ++ layoutAt level v) :: layoutFields level rest

end

def layout (v : Json) : Text := layoutAt 0 v

example : layout (.arr [.int 1, .arr [], .str "é😀".toList]) =
    "[\n  1,\n  [],\n  \"\\u00e9\\ud83d\\ude00\"\n]".toList := by decide +kernel

end Json
end TypeStrip
