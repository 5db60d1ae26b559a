import TypeStrip.Parse.Step

/-!
# Parsing

A token list is parsed by one pass of `ParseState.step`.

* `ParseStop`    where and why a pass ends early, and what was open there;
* `feed`         a pass over a part of the input, from a given state;
* `feed_append`  a pass over two parts is a pass over the one and then the other;
* `parseFrom`    a pass that ends with the input;
* `parse`        the program that a whole token list spells;
* `walkFrom`     a pass that ends with the first node finished outside of everything else.
-/

namespace TypeStrip

/-- The end of a pass that fails: why, how many tokens were read, and the state behind them. -/
structure ParseStop where
  fault : ParseFault
  position : Nat
  state : ParseState
  deriving DecidableEq, Repr

def ParseStop.ofRefusal (r : Refusal) (found : Option Token) (position : Nat) (s : ParseState) :
    ParseStop :=
  ⟨r.fault found, position + r.length, s⟩

/-- A pass over a part of the input; `position` tokens have been read before. -/
def feed (o : Options) (room : Int) (s : ParseState) (position : Nat) :
    List Token → Except ParseStop ParseState
  | [] => .ok s
  | t :: ts =>
    match s.step o room t with
    | .error r => .error (.ofRefusal r (some t) position s)
    | .ok s => feed o room s (position + 1) ts

theorem feed_append (o : Options) (room : Int) (s : ParseState) (p : Nat) (ts us : List Token) :
    feed o room s p (ts ++ us) =
      match feed o room s p ts with
      | .error e => .error e
      | .ok s' => feed o room s' (p + ts.length) us := by
  induction ts generalizing s p with
  | nil => rfl
  | cons t ts ih =>
    rw [List.cons_append, feed, feed]
    cases s.step o room t with
    | error r => rfl
    | ok s' =>
      rw [show p + (t :: ts).length = p + 1 + ts.length by rw [List.length_cons]; omega]
      exact ih s' (p + 1)

def parseFrom (o : Options) (room : Int) (s : ParseState) (position : Nat) (ts : List Token) :
    Except ParseStop ParseState :=
  match feed o room s position ts with
  | .error e => .error e
  | .ok s =>
    match s.finish with
    | .error r => .error (.ofRefusal r none (position + ts.length) s)
    | .ok () => .ok s

/-- The greatest number of constructs that may be open at once. -/
def maxDepth : Int := 100

def parse (o : Options) (ts : List Token) : Except ParseStop Program :=
  match parseFrom o maxDepth .start 0 ts with
  | .error e => .error e
  | .ok s => .ok ⟨s.done.reverse⟩

/-- A pass up to the first node that is finished outside of every open construct, together with
the number of tokens read so far. -/
def walkFrom (o : Options) (room : Int) (s : ParseState) (position : Nat) :
    List Token → Except ParseStop (Node × Nat)
  | [] =>
    match s.finish with
    | .error r => .error (.ofRefusal r none position s)
    | .ok () => .error ⟨.unexpected .statement none, position, s⟩
  | t :: ts =>
    match s.step o room t with
    | .error r => .error (.ofRefusal r (some t) position s)
    | .ok s =>
      match s.done with
      | n :: _ => .ok (n, position + 1)
      | [] => walkFrom o room s (position + 1) ts

end TypeStrip
