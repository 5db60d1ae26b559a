import TypeStrip.Compile

/-!
# Foreign values in sketches

A sketch whose texts are texts can be written unless a foreign value stands in it somewhere.  The
parts of a sketch are written one after the other, and the first that cannot be written decides; so
the outcome of several parts is told by their foreign values, one list behind the other.

* `Sketch.plain`                sketches in which every name and every leaf is a text;
* `Sketch.foreigns`             the foreign values of a sketch, in the order in which they are met;
* `Decided`                     an outcome that is decided by the first of some foreign values;
* `Decided.bind`                one such outcome after another;
* `Sketch.emit_decided`         writing a plain sketch is decided by its foreign values;
* `Sketch.emit_first_foreign`   the report names the first of them.
-/

namespace TypeStrip

namespace Sketch

/-! ### Plain sketches -/

mutual

/-- Where a text belongs there is one, and where a list belongs there is a list. -/
def plain : Sketch → Bool
  | program statements => plainList statements
  | function (some (.str _)) params body => plainList params && plainList body
  | function _ _ _ => false
  | returns values => plainList values
  | leaf (.str _) => true
  | leaf _ => false
  | foreign _ => true
  | stray _ => false

def plainList : List Sketch → Bool
  | [] => true
  | t :: rest => t.plain && plainList rest

end

mutual

/-- The foreign values of a sketch from left to right, those among the parameters of a function
before those in its body. -/
def foreigns : Sketch → List Foreign
  | program statements => foreignsList statements
  | function _ params body => foreignsList params ++ foreignsList body
  | returns values => foreignsList values
  | leaf _ => []
  | foreign value => [value]
  | stray _ => []

def foreignsList : List Sketch → List Foreign
  | [] => []
  | t :: rest => t.foreigns ++ foreignsList rest

end

end Sketch

/-! ### Outcomes -/

/-- An outcome as the foreign values `fs` call for: a result as described by `P` if there are none,
and otherwise the fault of the first. -/
def Decided {α : Type} (fs : List Foreign) (P : α → Prop) (x : Except EmitFault α) : Prop :=
  match fs with
  | [] => ∃ a, x = .ok a ∧ P a
  | f :: _ => x = .error (.foreign f.nodeKind)

namespace Decided

variable {α β : Type} {fs gs : List Foreign} {P : α → Prop} {Q : β → Prop}
  {x : Except EmitFault α} {k : α → Except EmitFault β}

theorem bind (h : Decided fs P x) (hk : ∀ a, P a → Decided gs Q (k a)) :
    Decided (fs ++ gs) Q (x.bind k) := by
  cases fs with
  | nil =>
    obtain ⟨a, rfl, ha⟩ := h
    exact hk a ha
  | cons f fs =>
    have hx : x = .error (.foreign f.nodeKind) := h
    rw [hx]
    rfl

theorem bind_ok (h : Decided fs P x) (hk : ∀ a, P a → ∃ b, k a = .ok b ∧ Q b) :
    Decided fs Q (x.bind k) := by
  have hbind : Decided (fs ++ []) Q (x.bind k) := h.bind hk
  rwa [List.append_nil] at hbind

end Decided

/-! ### Writing -/

namespace Sketch

theorem emit_program (l : List Sketch) : (program l).emit =
    ((emitAll l).bind (texts 0)).bind fun ts => .ok (.str (programText ts)) := by
  rw [emit]
  cases (emitAll l).bind (texts 0) <;> rfl

theorem emit_returns (l : List Sketch) : (returns l).emit =
    ((emitAll l).bind (texts 0)).bind fun ts => .ok (.str (returnText ts)) := by
  rw [emit]
  cases (emitAll l).bind (texts 0) <;> rfl

theorem emit_function (name : Json) (params body : List Sketch) :
    (function (some name) params body).emit =
      ((emitAll params).bind (texts 0)).bind fun ps => ((emitAll body).bind (texts 0)).bind
        fun ts => .ok (.str (functionText name.display ps ts)) := by
  rw [emit]
  cases (emitAll params).bind (texts 0) with
  | error e => rfl
  | ok ps => cases (emitAll body).bind (texts 0) <;> rfl

theorem emitAll_cons (t : Sketch) (rest : List Sketch) :
    emitAll (t :: rest) = t.emit.bind fun v => (emitAll rest).bind fun vs => .ok (v :: vs) := by
  rw [emitAll]
  cases t.emit with
  | error e => rfl
  | ok v => cases emitAll rest <;> rfl

def IsText (v : Json) : Prop := ∃ s, v = .str s

def AreTexts (vs : List Json) : Prop := ∃ ss : List Text, vs = ss.map Json.str

theorem decided_texts {fs : List Foreign} {l : List Sketch}
    (h : Decided fs AreTexts (emitAll l)) :
    Decided fs (fun _ => True) ((emitAll l).bind (texts 0)) := by
  refine h.bind_ok ?_
  rintro _ ⟨ss, rfl⟩
  exact ⟨ss, texts_str 0 ss, trivial⟩

mutual

theorem emit_decided : (t : Sketch) → t.plain = true → Decided t.foreigns IsText t.emit
  | program statements, h => by
    rw [emit_program]
    exact (decided_texts (emitAll_decided statements h)).bind_ok fun _ _ => ⟨_, rfl, _, rfl⟩
  | function (some (.str name)) params body, h => by
    obtain ⟨hparams, hbody⟩ := Bool.and_eq_true_iff.mp h
    rw [emit_function]
    refine (decided_texts (emitAll_decided params hparams)).bind fun _ _ => ?_
    exact (decided_texts (emitAll_decided body hbody)).bind_ok fun _ _ => ⟨_, rfl, _, rfl⟩
  | returns values, h => by
    rw [emit_returns]
    exact (decided_texts (emitAll_decided values h)).bind_ok fun _ _ => ⟨_, rfl, _, rfl⟩
  | leaf (.str s), _ => ⟨_, rfl, s, rfl⟩
  | foreign value, _ => rfl

theorem emitAll_decided : (l : List Sketch) → plainList l = true →
    Decided (foreignsList l) AreTexts (emitAll l)
  | [], _ => ⟨[], rfl, [], rfl⟩
  | t :: rest, h => by
    obtain ⟨ht, hrest⟩ := Bool.and_eq_true_iff.mp h
    rw [emitAll_cons]
    refine (emit_decided t ht).bind ?_
    rintro _ ⟨s, rfl⟩
    refine (emitAll_decided rest hrest).bind_ok ?_
    rintro _ ⟨ss, rfl⟩
    exact ⟨_, rfl, s :: ss, rfl⟩

end

/-- **Writing fails exactly at the first foreign value.**  A plain sketch gives a text if no foreign
value stands in it, and otherwise the report names the kind of the first one. -/
theorem emit_first_foreign (t : Sketch) (h : t.plain = true) :
    ((∃ s, t.emit = .ok (.str s)) ↔ t.foreigns = []) ∧
    ∀ f fs, t.foreigns = f :: fs →
      ∃ e, t.emit = .error e ∧ e.verdict = .diagnostic (.emit (.str f.nodeKind)) := by
  have hdecided := emit_decided t h
  cases hfs : t.foreigns with
  | nil =>
    rw [hfs] at hdecided
    obtain ⟨_, hemit, s, rfl⟩ := hdecided
    exact ⟨⟨fun _ => rfl, fun _ => ⟨s, hemit⟩⟩, nofun⟩
  | cons f fs =>
    rw [hfs] at hdecided
    have hemit : t.emit = .error (.foreign f.nodeKind) := hdecided
    refine ⟨⟨?_, nofun⟩, ?_⟩
    · rintro ⟨s, hs⟩
      rw [hemit] at hs
      cases hs
    · rintro _ _ ⟨⟩
      exact ⟨_, hemit, rfl⟩

/-- A model that calls itself a program, inside a `return` among the parameters of a function, comes
before a plain object in the body of the function. -/
theorem emit_first_foreign_params :
    ∃ e, (program [leaf (.str ['1']), function (some (.str ['f']))
        [returns [leaf (.str ['x']), foreign ⟨some (.str "Program".toList), "Foreign".toList⟩]]
        [foreign ⟨none, "object".toList⟩]]).emit = .error e ∧
      e.verdict = .diagnostic (.emit (.str "Program".toList)) :=
  (emit_first_foreign _ rfl).2 ⟨some (.str "Program".toList), "Foreign".toList⟩
    [⟨none, "object".toList⟩] rfl

end Sketch

end TypeStrip
