import TypeStrip.Proofs.Cursors.Descent
import TypeStrip.Proofs.Parsing.Walks

/-!
# What a walk reads

* `Cursor.walk_eq_ok_iff`      a walk reads a spelling of one node that keeps within the limit;
* `Cursor.walk_eq_error_iff`   a walk fails as a pass does;
* `Cursor.walk_discipline`     a walk moves its cursor forward over the tokens of its node, does not
                               look at any others, and leaves the count of constructs as it was.
-/

namespace TypeStrip

namespace Cursor

variable {o : Options} {c c' : Cursor}

theorem walk_eq_ok_iff {n : Node} : c.walk o = (.ok n, c') ↔
    ∃ us vs, c.rest = us ++ vs ∧ c' = { c with position := c.position + us.length } ∧
      Spells o us [n] ∧ Fits (c.limit - c.depth) 0 [n] := by
  rw [walk_eq]
  constructor
  · intro h
    split at h
    · next m q hm =>
      cases h
      obtain ⟨us, vs, hrest, rfl, hsp, hfit⟩ := walkFrom_eq_ok_iff.mp hm
      exact ⟨us, vs, hrest, rfl, hsp, hfit⟩
    · cases h
  · rintro ⟨us, vs, hrest, rfl, hsp, hfit⟩
    rw [walkFrom_eq_ok_iff.mpr ⟨us, vs, hrest, rfl, hsp, hfit⟩]

theorem walk_eq_error_iff {e : ParseFault} : c.walk o = (.error e, c') ↔
    ∃ stop, walkFrom o (c.limit - c.depth) .start c.position c.rest = .error stop ∧
      e = stop.fault ∧ c' = { c with position := stop.position } := by
  rw [walk_eq]
  constructor
  · intro h
    split at h
    · cases h
    · next stop hstop =>
      cases h
      exact ⟨stop, hstop, rfl, rfl⟩
  · rintro ⟨stop, hstop, rfl, rfl⟩
    rw [hstop]

theorem length_rest (c : Cursor) : c.rest.length = c.tokens.length - c.position :=
  List.length_drop

/-- A walk changes nothing of its cursor but the place, which moves forward within the tokens. -/
theorem place_of_walk {r : Except ParseFault Node} (hp : c.position ≤ c.tokens.length)
    (h : c.walk o = (r, c')) : c' = { c with position := c'.position } ∧
      c.position ≤ c'.position ∧ c'.position ≤ c.tokens.length := by
  have hlen := c.length_rest
  cases r with
  | error e =>
    obtain ⟨stop, hstop, -, rfl⟩ := walk_eq_error_iff.mp h
    obtain ⟨hle, hle'⟩ := position_of_walkFrom hstop
    exact ⟨rfl, hle, by dsimp only; omega⟩
  | ok n =>
    obtain ⟨us, vs, hrest, rfl, -, -⟩ := walk_eq_ok_iff.mp h
    rw [hrest, List.length_append] at hlen
    exact ⟨rfl, Nat.le_add_right _ _, by dsimp only; omega⟩

theorem position_lt_of_walk {n : Node} (h : c.walk o = (.ok n, c')) :
    c.position < c'.position := by
  obtain ⟨_, vs, -, rfl, hsp, hfit⟩ := walk_eq_ok_iff.mp h
  obtain ⟨us, e, -, rfl, -⟩ := hsp.exists_last hfit
  rw [List.length_append, List.length_singleton]
  dsimp only
  omega

/-- The tokens that a walk has passed decide about it, whatever stands around them. -/
theorem walk_of_same_tokens {n : Node} {ts : List Token} (h : c.walk o = (.ok n, c'))
    (hts : ∀ i, c.position ≤ i → i < c'.position → ts[i]? = c.tokens[i]?) :
    walk { c with tokens := ts } o = (.ok n, { c' with tokens := ts }) := by
  obtain ⟨us, vs, hrest, rfl, hsp, hfit⟩ := walk_eq_ok_iff.mp h
  have hsame : us <+: ts.drop c.position := by
    rw [List.prefix_iff_getElem?]
    intro i hi
    have hrest' : (c.tokens.drop c.position)[i]? = some us[i] := by
      rw [show c.tokens.drop c.position = us ++ vs from hrest, List.getElem?_append_left hi,
        List.getElem?_eq_getElem hi]
    rw [List.getElem?_drop] at hrest' ⊢
    rw [hts (c.position + i) (Nat.le_add_right _ _) (Nat.add_lt_add_left hi _), hrest']
  obtain ⟨vs', hvs'⟩ := hsame
  exact walk_eq_ok_iff.mpr ⟨us, vs', hvs'.symm, rfl, hsp, hfit⟩

/-- **A walk keeps to its node.**  However it ends, the count of constructs, the limit and the
tokens are those from before, and the place has moved forward within the tokens.  If it gives a
node then it has read a token at least, and with other tokens in front of the node or behind it the
walk is the same. -/
theorem walk_discipline (c : Cursor) (o : Options) (hp : c.position ≤ c.tokens.length) :
    ∀ r c', c.walk o = (r, c') →
      c'.depth = c.depth ∧ c'.limit = c.limit ∧ c'.tokens = c.tokens ∧
      c.position ≤ c'.position ∧ c'.position ≤ c.tokens.length ∧
      ∀ n, r = .ok n → c.position < c'.position ∧
        ∀ ts : List Token, (∀ i, c.position ≤ i → i < c'.position → ts[i]? = c.tokens[i]?) →
          walk { c with tokens := ts } o = (.ok n, { c' with tokens := ts }) := by
  intro r c' h
  obtain ⟨hc', hle, hle'⟩ := place_of_walk hp h
  refine ⟨by rw [hc'], by rw [hc'], by rw [hc'], hle, hle', ?_⟩
  rintro n rfl
  exact ⟨position_lt_of_walk h, fun ts hts => walk_of_same_tokens h hts⟩

/-- A `return` between two closing parentheses, three constructs further in, is read in the same
way between two commas. -/
theorem walk_discipline_return :
    walk ⟨[⟨.comma, [','], 0⟩, ⟨.keywordReturn, "return".toList, 1⟩, ⟨.number, ['1'], 8⟩,
        ⟨.semicolon, [';'], 9⟩, ⟨.comma, [','], 10⟩], 1, 3, 4⟩ ⟨true, true⟩ =
      (.ok (.returns [.number ['1']]), ⟨[⟨.comma, [','], 0⟩, ⟨.keywordReturn, "return".toList, 1⟩,
        ⟨.number, ['1'], 8⟩, ⟨.semicolon, [';'], 9⟩, ⟨.comma, [','], 10⟩], 4, 3, 4⟩) := by
  have hwalk : walk ⟨[⟨.parenClose, [')'], 0⟩, ⟨.keywordReturn, "return".toList, 1⟩,
        ⟨.number, ['1'], 8⟩, ⟨.semicolon, [';'], 9⟩, ⟨.parenClose, [')'], 10⟩], 1, 3, 4⟩
        ⟨true, true⟩ =
      (.ok (.returns [.number ['1']]), ⟨[⟨.parenClose, [')'], 0⟩,
        ⟨.keywordReturn, "return".toList, 1⟩, ⟨.number, ['1'], 8⟩, ⟨.semicolon, [';'], 9⟩,
        ⟨.parenClose, [')'], 10⟩], 4, 3, 4⟩) := by
    rw [walk_eq]
    rfl
  refine ((walk_discipline _ _ (by decide) _ _ hwalk).2.2.2.2.2 _ rfl).2 _ ?_
  intro i hle hlt
  have hcases : i = 1 ∨ i = 2 ∨ i = 3 := by
    dsimp only at hle hlt
    omega
  rcases hcases with rfl | rfl | rfl <;> rfl

end Cursor

end TypeStrip
