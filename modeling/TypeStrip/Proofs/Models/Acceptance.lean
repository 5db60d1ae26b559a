import Mathlib.Data.List.Forall2
import TypeStrip.Model
import TypeStrip.Proofs.Parsing.Runs

/-!
# What the models accept

A check that succeeds says what the value looked like.  Texts, names, operators and kinds are read
exactly as they are written, so all that an accepted value is free to do is to leave out fields that
have a default.

* `Checked.field_eq_valid`, `Checked.noOthers_eq_valid`, `Checked.list_eq_valid`   when the parts
                          of a check succeed;
* `Name.check_eq_valid`, `Operator.check_eq_valid`, `Kind.check_eq_valid`   the scalars;
* `Json.default?`         the value of a field that is left out;
* `Json.Completes`        a value with all that another leaves out;
* `Json.Answers`          one field of such a value, with a lemma for each kind of field;
* `Json.Completes.of_answers`   field by field;
* `Param.completes_of_check`    a parameter completes what it was read from.
-/

namespace TypeStrip

/-! ### Checks that succeed -/

namespace Checked
variable {α β : Type}

theorem seq_eq_valid {f : Checked (α → β)} {x : Checked α} {b : β} :
    f <*> x = valid b ↔ ∃ g a, f = valid g ∧ x = valid a ∧ g a = b := by
  show apply f x = valid b ↔ _
  cases f <;> cases x <;> simp [apply]

theorem map_eq_valid {f : α → β} {x : Checked α} {b : β} :
    f <$> x = valid b ↔ ∃ a, x = valid a ∧ f a = b := by
  cases x <;> simp

theorem under_eq_valid {x : Checked α} {step : PathStep} {a : α} :
    x.under step = valid a ↔ x = valid a := by
  cases x <;> simp [under]

theorem field_eq_valid {fields : List (String × Json)} {name : String} {check : Json → Checked α}
    {absent : Checked α} {a : α} : field fields name check absent = valid a ↔
      (fields.lookup name = none ∧ absent = valid a) ∨
      ∃ v, fields.lookup name = some v ∧ check v = valid a := by
  unfold field
  cases fields.lookup name with
  | none => simp
  | some v => simp [under_eq_valid]

theorem field_given {fields : List (String × Json)} {name : String} {check : Json → Checked α}
    {absent : Checked α} {v : Json} {a : α} (hv : fields.lookup name = some v)
    (ha : check v = valid a) : field fields name check absent = valid a :=
  field_eq_valid.mpr (.inr ⟨v, hv, ha⟩)

theorem noOthers_eq_valid {fields : List (String × Json)} {known : List String} {u : Unit} :
    noOthers fields known = valid u ↔ ∀ f ∈ fields, f.1 ∈ known := by
  have hnil : (fields.filter fun f => !known.contains f.1) = [] ↔ ∀ f ∈ fields, f.1 ∈ known := by
    simp
  rw [← hnil]
  unfold noOthers
  cases fields.filter fun f => !known.contains f.1 <;> simp

theorem kindField_eq_valid {fields : List (String × Json)} {label : String} {u : Unit} :
    kindField fields label = valid u ↔
      ∀ v, fields.lookup "kind" = some v → v = .str label.toList := by
  unfold kindField field
  cases fields.lookup "kind" with
  | none => simp
  | some v =>
    rw [under_eq_valid]
    cases v with
    | str s => by_cases h : s = label.toList <;> simp [h, fail]
    | null | bool | int | float | arr | obj => simp [fail]

theorem items_eq_valid {check : Json → Checked α} {l : List Json} {as : List α} {i : Nat} :
    items check i l = valid as ↔ List.Forall₂ (fun v a => check v = valid a) l as := by
  induction l generalizing as i with
  | nil => cases as <;> simp [items]
  | cons v l ih => cases as <;> simp [items, seq_eq_valid, map_eq_valid, under_eq_valid, ih]

theorem list_eq_valid {check : Json → Checked α} {v : Json} {as : List α} :
    list check v = valid as ↔
      ∃ l, v = .arr l ∧ List.Forall₂ (fun v a => check v = valid a) l as := by
  cases v with
  | arr l => simp [list, items_eq_valid]
  | null | bool | int | float | str | obj => simp [list, fail]

theorem text_eq_valid {v : Json} {s : Text} : text v = valid s ↔ v = .str s := by
  cases v <;> simp [text, fail]

theorem optionalText_eq_valid {v : Json} {t : Option Text} :
    optionalText v = valid t ↔ v = .ofOption t := by
  cases v <;> cases t <;> simp [optionalText, Json.ofOption, fail]

end Checked

open Checked

/-! ### Scalars -/

theorem Name.check_eq_valid {v : Json} {n : Name} : Name.check v = .valid n ↔ v = .str n.text := by
  cases v with
  | str s =>
    rw [Json.str.injEq, ← Name.ofText?_eq_some_iff, Name.check]
    cases Name.ofText? s <;> simp [fail]
  | null | bool | int | float | arr | obj => simp [Name.check, fail]

theorem Operator.check_eq_valid {v : Json} {op : Operator} :
    Operator.check v = .valid op ↔ v = .str [op.sign] := by
  cases v with
  | str s =>
    rw [Json.str.injEq, ← Operator.ofText?_eq_some_iff, Operator.check]
    cases Operator.ofText? s <;> simp [fail]
  | null | bool | int | float | arr | obj => simp [Operator.check, fail]

theorem Kind.ofLabel?_eq_some_iff {s : Text} {k : Kind} :
    Kind.ofLabel? s = some k ↔ s = k.label.toList := by
  constructor
  · intro h
    have hs := List.find?_some h
    exact (beq_iff_eq.mp hs).symm
  · rintro rfl
    exact Kind.ofLabel?_label k

theorem Kind.check_eq_valid {v : Json} {k : Kind} :
    Kind.check v = .valid k ↔ v = .str k.label.toList := by
  cases v with
  | str s =>
    rw [Json.str.injEq, ← Kind.ofLabel?_eq_some_iff, Kind.check]
    cases Kind.ofLabel? s <;> simp [fail]
  | null | bool | int | float | arr | obj => simp [Kind.check, fail]

theorem Shape.ofLabel?_eq_some_iff {s : Text} {k : Shape} :
    Shape.ofLabel? s = some k ↔ s = k.label.toList := by
  constructor
  · intro h
    have hs := List.find?_some h
    exact (beq_iff_eq.mp hs).symm
  · rintro rfl
    exact Shape.ofLabel?_label k

/-- In a list of nodes of any shape, a node must say which shape it has. -/
theorem Node.checkTagged_eq_valid {check : Shape → Json → Checked Node} {v : Json} {n : Node} :
    Node.checkTagged check v = .valid n ↔ ∃ fields shape, v = .obj fields ∧
      fields.lookup "kind" = some (.str shape.label.toList) ∧ check shape v = .valid n := by
  cases v with
  | obj fields =>
    rw [Node.checkTagged]
    cases hkind : fields.lookup "kind" with
    | none => simp [hkind, fail]
    | some tag =>
      cases tag with
      | str s =>
        dsimp only
        cases hshape : Shape.ofLabel? s with
        | none =>
          have hne : ∀ shape : Shape, s ≠ shape.label.toList := by
            rintro shape rfl
            rw [Shape.ofLabel?_label] at hshape
            cases hshape
          simp [hkind, hne, fail]
        | some shape =>
          obtain rfl := Shape.ofLabel?_eq_some_iff.mp hshape
          have hshapes : ∀ k : Shape, shape.label.toList = k.label.toList ↔ shape = k := by
            intro k
            rw [← Shape.ofLabel?_eq_some_iff, Shape.ofLabel?_label, Option.some.injEq]
          simp [hkind, hshapes, under_eq_valid]
      | null | bool | int | float | arr | obj => simp [hkind, fail]
  | null | bool | int | float | str | arr => simp [Node.checkTagged, fail]

/-! ### Fields that are left out -/

namespace Json

/-- The fields that an object of a kind may leave out, with what they are then. -/
def defaults : List (String × List (String × Json)) :=
  [("Param", [("param_type", .null)]),
    ("ReturnStmt", [("values", .arr [])]),
    ("FunctionDecl", [("params", .arr []), ("return_type", .null), ("body", .arr [])]),
    ("Program", [("statements", .arr [])])]

/-- The value of a field that is left out; the kind itself may be left out as well. -/
def default? (label name : String) : Option Json :=
  if name = "kind" then some (.str label.toList)
  else (defaults.lookup label).bind (List.lookup name)

/-- The second value agrees with the first wherever that says something, in all of its parts; its
objects have nothing else but defaults for what is left out. -/
inductive Completes : Json → Json → Prop where
  | refl (v : Json) : Completes v v
  | arr {l l' : List Json} (hlength : l.length = l'.length)
      (hitems : ∀ (i : Nat) v w, l[i]? = some v → l'[i]? = some w → Completes v w) :
      Completes (.arr l) (.arr l')
  | obj {fields fields' : List (String × Json)} {label : String}
      (hkind : fields'.lookup "kind" = some (.str label.toList))
      (hkept : ∀ name, (fields.lookup name).isSome → (fields'.lookup name).isSome)
      (hfields : ∀ name v w, fields.lookup name = some v → fields'.lookup name = some w →
        Completes v w)
      (hadded : ∀ name w, fields.lookup name = none → fields'.lookup name = some w →
        default? label name = some w) :
      Completes (.obj fields) (.obj fields')

theorem Completes.of_forall₂ {l l' : List Json} (h : List.Forall₂ Completes l l') :
    Completes (.arr l) (.arr l') := by
  refine .arr h.length_eq fun i v w hv hw => ?_
  obtain ⟨hi, rfl⟩ := List.getElem?_eq_some_iff.mp hv
  obtain ⟨hi', rfl⟩ := List.getElem?_eq_some_iff.mp hw
  exact h.get hi hi'

/-- The field `f` of a dump is as it was given in `fields`, or the default if it was not. -/
def Answers (label : String) (fields : List (String × Json)) (f : String × Json) : Prop :=
  (∀ v, fields.lookup f.1 = some v → v.Completes f.2) ∧
    (fields.lookup f.1 = none → default? label f.1 = some f.2)

theorem Answers.field {α : Type} {check : Json → Checked α} {absent : Checked α} {a : α}
    {label name : String} {fields : List (String × Json)} {w : Json}
    (h : Checked.field fields name check absent = valid a)
    (hcheck : ∀ v, check v = valid a → v.Completes w)
    (habsent : absent = valid a → default? label name = some w) :
    Answers label fields (name, w) := by
  rcases field_eq_valid.mp h with ⟨hnone, ha⟩ | ⟨v, hv, ha⟩
  · refine ⟨fun v hv => ?_, fun _ => habsent ha⟩
    rw [hnone] at hv
    cases hv
  · refine ⟨fun v' hv' => ?_, fun hnone => ?_⟩
    · rw [hv] at hv'
      cases hv'
      exact hcheck v ha
    · rw [hv] at hnone
      cases hnone

theorem Answers.required {α : Type} {check : Json → Checked α} {a : α} {label name : String}
    {fields : List (String × Json)} {w : Json}
    (h : Checked.field fields name check (Checked.required name) = valid a)
    (hcheck : ∀ v, check v = valid a → v = w) : Answers label fields (name, w) := by
  refine .field h (fun v hv => ?_) nofun
  rw [hcheck v hv]
  exact .refl w

theorem Answers.optionalText {label name : String} {fields : List (String × Json)}
    {t : Option Text} (h : Checked.field fields name Checked.optionalText (valid none) = valid t)
    (hdefault : default? label name = some .null) :
    Answers label fields (name, .ofOption t) := by
  refine .field h (fun v hv => ?_) ?_
  · rw [optionalText_eq_valid.mp hv]
    exact .refl _
  · rintro ⟨⟩
    exact hdefault

/-- A list of values each of which is completed by what is written for it. -/
theorem Answers.list {α : Type} {check : Json → Checked α} {dump : α → Json} {as : List α}
    {label name : String} {fields : List (String × Json)}
    (h : Checked.field fields name (Checked.list check) (valid []) = valid as)
    (hcheck : ∀ v a, check v = valid a → v.Completes (dump a))
    (hdefault : default? label name = some (.arr [])) :
    Answers label fields (name, .arr (as.map dump)) := by
  refine .field h (fun v hv => ?_) ?_
  · obtain ⟨l, rfl, hl⟩ := list_eq_valid.mp hv
    exact .of_forall₂ (List.forall₂_map_right_iff.mpr (hl.imp hcheck))
  · rintro ⟨⟩
    exact hdefault

theorem Answers.kind {label : String} {fields : List (String × Json)} {u : Unit}
    (h : kindField fields label = valid u) :
    Answers label fields ("kind", .str label.toList) := by
  refine ⟨fun v hv => ?_, fun _ => rfl⟩
  rw [kindField_eq_valid.mp h v hv]
  exact .refl _

theorem mem_of_lookup {fields : List (String × Json)} {name : String} {v : Json}
    (h : fields.lookup name = some v) : (name, v) ∈ fields := by
  obtain ⟨l₁, l₂, rfl, -⟩ := List.lookup_eq_some_iff.mp h
  simp

theorem Completes.of_answers {label : String} {fields fields' : List (String × Json)} {u : Unit}
    (hkind : fields'.lookup "kind" = some (.str label.toList))
    (hothers : noOthers fields (fields'.map Prod.fst) = valid u)
    (h : ∀ f ∈ fields', Answers label fields f) : Completes (.obj fields) (.obj fields') := by
  refine .obj hkind (fun name hname => ?_) (fun name v w hv hw => ?_) (fun name w hnone hw => ?_)
  · obtain ⟨v, hv⟩ := Option.isSome_iff_exists.mp hname
    have hknown := noOthers_eq_valid.mp hothers _ (mem_of_lookup hv)
    obtain ⟨⟨_, w⟩, hw, rfl⟩ := List.mem_map.mp hknown
    by_contra hnone
    rw [Option.not_isSome_iff_eq_none, List.lookup_eq_none_iff] at hnone
    simpa using hnone _ hw
  · exact (h _ (mem_of_lookup hw)).1 v hv
  · exact (h _ (mem_of_lookup hw)).2 hnone

end Json

open Json in
theorem Param.completes_of_check {v : Json} {p : Param} (h : Param.check v = .valid p) :
    v.Completes p.toJson := by
  cases v with
  | obj fields =>
    simp only [Param.check, seq_eq_valid, map_eq_valid] at h
    obtain ⟨_, _, ⟨_, type, ⟨_, name, ⟨_, hkind, rfl⟩, hname, rfl⟩, htype, rfl⟩, hothers, rfl⟩ := h
    refine .of_answers rfl hothers ?_
    rw [List.forall_mem_cons, List.forall_mem_cons, List.forall_mem_singleton]
    refine ⟨.kind hkind, .required hname fun v => Name.check_eq_valid.mp, .optionalText htype rfl⟩
  | null | bool | int | float | str | arr => cases h

end TypeStrip
