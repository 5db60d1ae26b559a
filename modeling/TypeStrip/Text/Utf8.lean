import TypeStrip.Text

/-!
# Reading bytes as text

Bytes are read as strict UTF-8, one byte at a time.  A sequence that goes wrong is reported from
its first byte on, as far as it was still right.

* `Utf8.lead`       what the first byte of a sequence promises;
* `Utf8.decode`     the text that bytes spell, or the place where they stop doing so;
* `unifyNewlines`   every line end as a single line feed.
-/

namespace TypeStrip
namespace Utf8

inductive Reason where
  | invalidStart
  | invalidContinuation
  | unexpectedEnd
  deriving DecidableEq, Repr, Inhabited

def Reason.message : Reason → String
  | .invalidStart => "invalid start byte"
  | .invalidContinuation => "invalid continuation byte"
  | .unexpectedEnd => "unexpected end of data"

/-- Bytes that spell no character: `length` of them from `start` on, the first being `byte`. -/
structure Fault where
  reason : Reason
  start : Nat
  length : Nat
  byte : UInt8
  deriving DecidableEq, Repr, Inhabited

def Fault.message (f : Fault) : Text :=
  "'utf-8' codec can't decode ".toList ++
    (if f.length = 1 then
      "byte 0x".toList ++ Text.hex 2 f.byte.toNat ++ " in position ".toList ++ Text.decimal f.start
    else
      "bytes in position ".toList ++ Text.decimal f.start ++ '-' ::
        Text.decimal (f.start + f.length - 1)) ++
    ": ".toList ++ f.reason.message.toList

/-- A sequence that has begun: how many bytes it still needs, the range of the next one, and the
number that the bytes so far spell. -/
structure Pending where
  owed : Nat
  low : Nat
  high : Nat
  value : Nat
  deriving DecidableEq, Repr, Inhabited

/-- What the first byte of a sequence of more than one byte promises.  The range of the second
byte excludes forms that are too long, surrogates, and numbers above U+10FFFF. -/
def lead (b : Nat) : Option Pending :=
  if 0xc2 ≤ b ∧ b ≤ 0xdf then some ⟨1, 0x80, 0xbf, b - 0xc0⟩
  else if b = 0xe0 then some ⟨2, 0xa0, 0xbf, 0⟩
  else if b = 0xed then some ⟨2, 0x80, 0x9f, 0xd⟩
  else if 0xe1 ≤ b ∧ b ≤ 0xef then some ⟨2, 0x80, 0xbf, b - 0xe0⟩
  else if b = 0xf0 then some ⟨3, 0x90, 0xbf, 0⟩
  else if 0xf1 ≤ b ∧ b ≤ 0xf3 then some ⟨3, 0x80, 0xbf, b - 0xf0⟩
  else if b = 0xf4 then some ⟨3, 0x80, 0x8f, 4⟩
  else none

/-- The text of bytes at offset `pos`, inside the sequence `pending` if there is one, which began
with the given byte and has the given length so far. -/
def decodeFrom (pos : Nat) (pending : Option (UInt8 × Nat × Pending)) :
    List UInt8 → Except Fault Text
  | [] =>
    match pending with
    | none => .ok []
    | some (first, length, _) => .error ⟨.unexpectedEnd, pos - length, length, first⟩
  | b :: rest =>
    match pending with
    | none =>
      if b.toNat < 0x80 then (decodeFrom (pos + 1) none rest).map (Char.ofNat b.toNat :: ·)
      else
        match lead b.toNat with
        | none => .error ⟨.invalidStart, pos, 1, b⟩
        | some p => decodeFrom (pos + 1) (some (b, 1, p)) rest
    | some (first, length, p) =>
      if p.low ≤ b.toNat ∧ b.toNat ≤ p.high then
        let value := p.value * 0x40 + (b.toNat - 0x80)
        if p.owed ≤ 1 then (decodeFrom (pos + 1) none rest).map (Char.ofNat value :: ·)
        else decodeFrom (pos + 1) (some (first, length + 1, ⟨p.owed - 1, 0x80, 0xbf, value⟩)) rest
      else .error ⟨.invalidContinuation, pos - length, length, first⟩

def decode (bytes : List UInt8) : Except Fault Text := decodeFrom 0 none bytes

end Utf8

/-- A carriage return, alone or with a line feed behind it, becomes a line feed. -/
def unifyNewlines : Text → Text
  | [] => []
  | '\r' :: '\n' :: s => '\n' :: unifyNewlines s
  | '\r' :: s => '\n' :: unifyNewlines s
  | c :: s => c :: unifyNewlines s

end TypeStrip
