import TypeStrip.Text.Printable

/-!
# Quoted texts

The one-line form in which a piece of source is shown inside a message.  The quote is `'`, unless
the text holds a `'` and no `"`: then it is `"`.  A backslash and the quote in use are escaped by a
backslash; tab, line feed and carriage return have letters of their own; every other character
that is not printable is written by its number in two, four or eight hexadecimal digits, whichever
is the first that fits.

* `quoteMark`       the quote a text is put in;
* `Text.escape`     one character between such quotes;
* `Text.Escapes`    the ways in which it can be written there;
* `Text.quoted`     the whole form.
-/

namespace TypeStrip

/-- The quote around a text: `"` if the text holds `'` and no `"`, and `'` otherwise. -/
def quoteMark (s : Text) : Char :=
  if s.contains '\'' && !s.contains '"' then '"' else '\''

def Text.escape (q c : Char) : Text :=
  if c = '\\' || c = q then ['\\', c]
  else if c = '\t' then ['\\', 't']
  else if c = '\n' then ['\\', 'n']
  else if c = '\r' then ['\\', 'r']
  else if isPrintable c then [c]
  else if c.toNat < 0x100 then '\\' :: 'x' :: Text.hex 2 c.toNat
  else if c.toNat < 0x10000 then '\\' :: 'u' :: Text.hex 4 c.toNat
  else '\\' :: 'U' :: Text.hex 8 c.toNat

/-- The escapes by number: their letter, how many digits they have and the first number with more. -/
def Text.escapeWidths : List (Char × Nat × Nat) :=
  [('x', 2, 0x100), ('u', 4, 0x10000), ('U', 8, 0x100000000)]

/-- The forms of a character between the quotes `q`, with what each of them says about it. -/
inductive Text.Escapes (q c : Char) : Text → Prop where
  | marked (h : c = '\\' ∨ c = q) : Escapes q c ['\\', c]
  | tab (h : c = '\t') : Escapes q c ['\\', 't']
  | newline (h : c = '\n') : Escapes q c ['\\', 'n']
  | carriageReturn (h : c = '\r') : Escapes q c ['\\', 'r']
  | plain (h : isPrintable c = true) (hmark : c ≠ '\\' ∧ c ≠ q) : Escapes q c [c]
  | numbered {k : Char} {w bound : Nat} (hw : (k, w, bound) ∈ Text.escapeWidths)
      (h : c.toNat < bound) : Escapes q c ('\\' :: k :: Text.hex w c.toNat)

theorem Text.escapes_escape (q c : Char) : Escapes q c (escape q c) := by
  have hvalid : c.toNat < 0xd800 ∨ 0xdfff < c.toNat ∧ c.toNat < 0x110000 := c.valid
  unfold escape
  split
  · next h => exact .marked (by simpa using h)
  · next hmark =>
    split
    · next h => exact .tab h
    split
    · next h => exact .newline h
    split
    · next h => exact .carriageReturn h
    split
    · next h => exact .plain h (by simpa using hmark)
    split
    · next h => exact .numbered (.head _) h
    split
    · next h => exact .numbered (.tail _ (.head _)) h
    · exact .numbered (.tail _ (.tail _ (.head _))) (by omega)

def Text.quoted (s : Text) : Text :=
  quoteMark s :: s.flatMap (Text.escape (quoteMark s)) ++ [quoteMark s]

example : Text.quoted "it's".toList = "\"it's\"".toList := by decide +kernel
example : Text.quoted "'\"".toList = "'\\'\"'".toList := by decide +kernel
example : Text.quoted "\t\x7f\u2028".toList = "'\\t\\x7f\\u2028'".toList := by decide +kernel

end TypeStrip
