import TypeStrip.Token.Lexeme

/-!
# Scanning

A source is read item by item from its front; blanks leave no token.

* `scanFrom`   the tokens of a text that starts at a given offset;
* `scan`       the tokens of a whole source, or the place where reading stops.
-/

namespace TypeStrip

structure ScanFault where
  fault : ReadFault
  position : Nat
  deriving DecidableEq, Repr, Inhabited

namespace ScanFault

def char (f : ScanFault) : Char :=
  match f.fault with
  | .unknown c => c
  | .unterminated => '"'

def message (f : ScanFault) : Text :=
  match f.fault with
  | .unknown c =>
    "Unknown character ".toList ++ Text.quoted [c] ++ " at offset ".toList ++
      Text.decimal f.position
  | .unterminated => "Unterminated string starting at offset ".toList ++ Text.decimal f.position

end ScanFault

def scanFrom (boundary : Bool) (pos : Nat) (s : Text) : Except ScanFault (List Token) :=
  match s with
  | [] => .ok []
  | c :: s =>
    match h : Item.read boundary c s with
    | .error e => .error ⟨e, pos⟩
    | .ok (.blank r) => scanFrom boundary (pos + 1) r
    | .ok (.lexeme k w r) =>
      match scanFrom boundary (pos + w.length) r with
      | .error e => .error e
      | .ok ts => .ok (⟨k, w, pos⟩ :: ts)
termination_by s.length
decreasing_by all_goals exact Item.length_rest_read h

theorem scanFrom_nil (boundary : Bool) (pos : Nat) : scanFrom boundary pos [] = .ok [] := by
  rw [scanFrom]

theorem scanFrom_blank {boundary : Bool} {c : Char} {s r : Text} (pos : Nat)
    (h : Item.read boundary c s = .ok (.blank r)) :
    scanFrom boundary pos (c :: s) = scanFrom boundary (pos + 1) r := by
  rw [scanFrom]
  split <;> simp_all

theorem scanFrom_lexeme {boundary : Bool} {c : Char} {s w r : Text} {k : Kind} (pos : Nat)
    (h : Item.read boundary c s = .ok (.lexeme k w r)) :
    scanFrom boundary pos (c :: s) =
      (scanFrom boundary (pos + w.length) r).map (⟨k, w, pos⟩ :: ·) := by
  rw [scanFrom]
  split <;> simp_all
  split <;> simp_all [Except.map]

theorem scanFrom_fault {boundary : Bool} {c : Char} {s : Text} {e : ReadFault} (pos : Nat)
    (h : Item.read boundary c s = .error e) :
    scanFrom boundary pos (c :: s) = .error ⟨e, pos⟩ := by
  rw [scanFrom]
  split <;> simp_all

def scan (o : Options) (s : Text) : Except ScanFault (List Token) := scanFrom o.keywordBoundary 0 s

end TypeStrip
