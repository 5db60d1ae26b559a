import TypeStrip.Proofs.Emission

/-!
# Required return types

The strict dialect asks of every function that it declares what it returns.  It is the lenient one
restricted to the trees in which every function does so.

* `Options.strict`, `Options.lenient`   the two dialects;
* `Node.fullyTyped`                     every function of a node declares a return type;
* `spells_strict_iff`                   a strict spelling is a lenient one of fully typed nodes;
* `parse_strict_iff`                    a strict parse is a lenient one of a fully typed program;
* `strict_restricts_lenient`            and so is a strict compilation.
-/

namespace TypeStrip

namespace Options

def strict (o : Options) : Options := { o with requireReturnType := true }

def lenient (o : Options) : Options := { o with requireReturnType := false }

end Options

mutual

/-- Every function of a node, at any depth, declares its return type. -/
def Node.fullyTyped : Node → Bool
  | .returns values => Node.fullyTypedList values
  | .function _ _ type body => type.isSome && Node.fullyTypedList body
  | .number _ | .string _ | .identifier _ | .operator _ | .punctuation _ _ => true

def Node.fullyTypedList : List Node → Bool
  | [] => true
  | n :: ns => n.fullyTyped && Node.fullyTypedList ns

end

def Program.fullyTyped (p : Program) : Bool := Node.fullyTypedList p.statements

theorem Node.fullyTypedList_cons {n : Node} {ns : List Node} :
    Node.fullyTypedList (n :: ns) = true ↔
      n.fullyTyped = true ∧ Node.fullyTypedList ns = true := by
  rw [Node.fullyTypedList, Bool.and_eq_true]

theorem Node.fullyTyped_function {name : Name} {params : List Param} {type : Option Text}
    {body : List Node} : (Node.function name params type body).fullyTyped = true ↔
      type.isSome = true ∧ Node.fullyTypedList body = true := by
  rw [Node.fullyTyped, Bool.and_eq_true]

theorem SpellsLeaf.fullyTyped {t : Token} {n : Node} (h : SpellsLeaf t n) :
    n.fullyTyped = true := by
  cases h <;> rfl

/-! ### Spellings -/

variable {o : Options}

theorem spellsHead_strict_iff {hs : List Token} {name : Text} {params : List Param}
    {type : Option Text} : SpellsHead o.strict hs name params type ↔
      SpellsHead o.lenient hs name params type ∧ type.isSome = true := by
  constructor
  · rintro ⟨hf, hn, ha, hps, hb, ht, hreq, hc⟩
    exact ⟨.mk hf hn ha hps hb ht nofun hc, Option.isSome_iff_ne_none.mpr (hreq rfl)⟩
  · rintro ⟨⟨hf, hn, ha, hps, hb, ht, -, hc⟩, htyped⟩
    exact .mk hf hn ha hps hb ht (fun _ => Option.isSome_iff_ne_none.mp htyped) hc

theorem spells_lenient {ts : List Token} {ns : List Node} (h : Spells o.strict ts ns) :
    Spells o.lenient ts ns ∧ Node.fullyTypedList ns = true := by
  induction h with
  | nil => exact ⟨.nil, rfl⟩
  | leaf hn _ ih => exact ⟨.leaf hn ih.1, Node.fullyTypedList_cons.mpr ⟨hn.fullyTyped, ih.2⟩⟩
  | returns hr _ hne hs he _ ihv ihn =>
    exact ⟨.returns hr ihv.1 hne hs he ihn.1, Node.fullyTypedList_cons.mpr ⟨ihv.2, ihn.2⟩⟩
  | function hh _ he _ ihb ihn =>
    obtain ⟨hh', htype⟩ := spellsHead_strict_iff.mp hh
    exact ⟨.function hh' ihb.1 he ihn.1, Node.fullyTypedList_cons.mpr
      ⟨Node.fullyTyped_function.mpr ⟨htype, ihb.2⟩, ihn.2⟩⟩

theorem spells_strict {ts : List Token} {ns : List Node} (h : Spells o.lenient ts ns)
    (htyped : Node.fullyTypedList ns = true) : Spells o.strict ts ns := by
  induction h with
  | nil => exact .nil
  | leaf hn _ ih => exact .leaf hn (ih (Node.fullyTypedList_cons.mp htyped).2)
  | returns hr _ hne hs he _ ihv ihn =>
    obtain ⟨hvalues, hns⟩ := Node.fullyTypedList_cons.mp htyped
    exact .returns hr (ihv hvalues) hne hs he (ihn hns)
  | function hh _ he _ ihb ihn =>
    obtain ⟨hn, hns⟩ := Node.fullyTypedList_cons.mp htyped
    obtain ⟨htype, hbody⟩ := Node.fullyTyped_function.mp hn
    exact .function (spellsHead_strict_iff.mpr ⟨hh, htype⟩) (ihb hbody) he (ihn hns)

theorem spells_strict_iff {ts : List Token} {ns : List Node} :
    Spells o.strict ts ns ↔ Spells o.lenient ts ns ∧ Node.fullyTypedList ns = true :=
  ⟨spells_lenient, fun h => spells_strict h.1 h.2⟩

/-! ### Parses and compilations -/

theorem parse_strict_iff {ts : List Token} {p : Program} :
    parse o.strict ts = .ok p ↔ parse o.lenient ts = .ok p ∧ p.fullyTyped = true := by
  rw [parse_eq_ok_iff, parse_eq_ok_iff, spells_strict_iff]
  exact and_right_comm

theorem compile_strict_iff {s : Text} {c : Compilation} :
    compile o.strict s = .ok c ↔ compile o.lenient s = .ok c ∧ c.tree.fullyTyped = true := by
  have hscan : scan o.strict s = scan o.lenient s := rfl
  rw [compile_eq_ok_iff, compile_eq_ok_iff, hscan, parse_strict_iff]
  tauto

/-- What is accepted only if something else is, is refused wherever that is. -/
theorem exists_error_of_imp {ε ε' α : Type} {x : Except ε α} {y : Except ε' α} {e : ε'}
    (himp : ∀ a, x = .ok a → y = .ok a) (hy : y = .error e) : ∃ e', x = .error e' := by
  cases x with
  | error e' => exact ⟨e', rfl⟩
  | ok a =>
    rw [himp a rfl] at hy
    cases hy

/-- **The strict dialect is the lenient one restricted to fully typed programs.**  A strict parse
gives a program exactly if a lenient one gives it and each of its functions declares a return type,
and the same holds of compilations, tokens, tree and output.  So the requirement does not change
what is accepted with it, and whatever is refused without it is refused with it. -/
theorem strict_restricts_lenient (o : Options) :
    (∀ (ts : List Token) (p : Program), parse o.strict ts = .ok p ↔
      parse o.lenient ts = .ok p ∧ p.fullyTyped = true) ∧
    (∀ (ts : List Token) (stop : ParseStop), parse o.lenient ts = .error stop →
      ∃ stop', parse o.strict ts = .error stop') ∧
    (∀ (s : Text) (c : Compilation), compile o.strict s = .ok c ↔
      compile o.lenient s = .ok c ∧ c.tree.fullyTyped = true) ∧
    (∀ (s : Text) (e : CompileFault), compile o.lenient s = .error e →
      ∃ e', compile o.strict s = .error e') := by
  refine ⟨fun _ _ => parse_strict_iff, fun ts stop h => ?_, fun _ _ => compile_strict_iff,
    fun s e h => ?_⟩
  · exact exists_error_of_imp (fun p hp => (parse_strict_iff.mp hp).1) h
  · exact exists_error_of_imp (fun c hc => (compile_strict_iff.mp hc).1) h

/-- A function with a declared type around one without is accepted by the lenient dialect only, and
a `return` without values by neither. -/
theorem strict_restricts_lenient_nested :
    (∃ c, compile ⟨true, false⟩
        "function f(): t \x7b return function g() \x7b \x7d; \x7d".toList = .ok c ∧
      c.tree.fullyTyped = false ∧ ∀ c', compile ⟨true, true⟩
        "function f(): t \x7b return function g() \x7b \x7d; \x7d".toList ≠ .ok c') ∧
    (∃ stop, parse ⟨true, true⟩ [⟨.keywordReturn, "return".toList, 0⟩] = .error stop) ∧
    ∃ e, compile ⟨true, true⟩ "return".toList = .error e := by
  obtain ⟨-, hparse, hcompile, hrefused⟩ := strict_restricts_lenient ⟨true, true⟩
  refine ⟨?_, hparse _ _ rfl, ?_⟩
  · obtain ⟨c, hc, htyped, -⟩ : ∃ c, compile ⟨true, false⟩
        "function f(): t \x7b return function g() \x7b \x7d; \x7d".toList = .ok c ∧
        c.tree.fullyTyped = false ∧ True :=
      exists_run (by decide +kernel) fun _ _ _ => trivial
    refine ⟨c, hc, htyped, fun c' hc' => ?_⟩
    obtain ⟨hlenient, htyped'⟩ := (hcompile _ _).mp hc'
    have hsame : c = c' := Except.ok.inj (hc.symm.trans hlenient)
    rw [hsame, htyped'] at htyped
    cases htyped
  · have hlenient : compile ⟨true, false⟩ "return".toList =
        .error (.parse
          ⟨.unexpected .semicolonAfterReturn none, 1, ⟨[], [.returning []], none⟩⟩) := by
      decide +kernel
    exact hrefused _ _ hlenient

end TypeStrip
