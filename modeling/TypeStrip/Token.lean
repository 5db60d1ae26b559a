import TypeStrip.Text.Quoted

/-!
# Tokens

A token is a kind, the piece of source it covers, and the offset of that piece.

* `Kind.label`, `Kind.ofLabel?`   the fixed name of a kind, and back;
* `Token.render`                  a token on a line of its own: kind and quoted text;
* `Token.describe`                a token inside a message: kind, quoted text and offset.
-/

namespace TypeStrip

inductive Kind where
  | parenOpen
  | parenClose
  | braceOpen
  | braceClose
  | colon
  | comma
  | semicolon
  | keywordReturn
  | keywordFunction
  | number
  | name
  | string
  | operator
  deriving DecidableEq, Repr, Inhabited

namespace Kind

/-- Every kind, in the order in which kinds are listed in messages. -/
def all : List Kind :=
  [parenOpen, parenClose, braceOpen, braceClose, colon, comma, semicolon, keywordReturn,
   keywordFunction, number, name, string, operator]

def label : Kind → String
  | parenOpen => "ParenOpen"
  | parenClose => "ParenClose"
  | braceOpen => "BraceOpen"
  | braceClose => "BraceClose"
  | colon => "Colon"
  | comma => "Comma"
  | semicolon => "Semicolon"
  | keywordReturn => "KeywordReturn"
  | keywordFunction => "KeywordFunction"
  | number => "Number"
  | name => "Name"
  | string => "String"
  | operator => "Operator"

def ofLabel? (s : Text) : Option Kind := all.find? fun k => k.label.toList == s

theorem ofLabel?_label (k : Kind) : ofLabel? k.label.toList = some k := by
  cases k <;> decide

theorem label_injective {k l : Kind} (h : k.label = l.label) : k = l := by
  have hk := ofLabel?_label k
  rw [h, ofLabel?_label l] at hk
  exact (Option.some.inj hk).symm

end Kind

/-- A lexical unit: a kind, the source text it covers and the offset of its first character. -/
structure Token where
  kind : Kind
  text : Text
  position : Nat
  deriving DecidableEq, Repr, Inhabited

namespace Token

/-- A token on a line of its own, as `Name('add')`. -/
def render (t : Token) : Text :=
  t.kind.label.toList ++ '(' :: Text.quoted t.text ++ [')']

/-- A token inside a message, as `Name 'add' at offset 9`. -/
def describe (t : Token) : Text :=
  t.kind.label.toList ++ ' ' :: Text.quoted t.text ++ " at offset ".toList ++
    Text.decimal t.position

end Token

end TypeStrip
