import TypeStrip.Json.Layout
import TypeStrip.Proofs.Models.Roundtrip
import TypeStrip.Proofs.Quoting

/-!
# Trees laid out as JSON are unambiguous

A value without numbers shows in its layout where it ends and what it is.  Trees are written
without numbers, so a tree that a parse returns can be told from its layout.

* `Json.unescape_escape`         a character of a JSON string read back;
* `Json.quotedString_tells`      JSON strings;
* `Json.block_tells`             items between brackets;
* `Json.Numberless`              values without numbers;
* `Json.layoutAt_tells`          their layouts;
* `Program.numberless_toJson`    trees have no numbers;
* `Program.layout_tells`         the layouts of trees.
-/

namespace TypeStrip
namespace Json

/-! ### Strings -/

/-- The character that a code unit, or a pair of surrogates, stands for. -/
def unescapeUnits (s : Text) : Char × Text :=
  let (n, r) := unhex 4 s
  if 0xd800 ≤ n ∧ n < 0xdc00 then
    let (m, r) := unhex 4 (r.drop 2)
    (Char.ofNat (0x10000 + (n - 0xd800) * 0x400 + (m - 0xdc00)), r)
  else (Char.ofNat n, r)

/-- The character that the beginning of a JSON string stands for, and what follows. -/
def unescape : Text → Char × Text
  | '\\' :: k :: r =>
    match k with
    | 'n' => ('\n', r)
    | 'r' => ('\r', r)
    | 't' => ('\t', r)
    | 'b' => ('\x08', r)
    | 'f' => ('\x0c', r)
    | 'u' => unescapeUnits r
    | k => (k, r)
  | c :: r => (c, r)
  | [] => default

theorem unescape_cons {c : Char} (h : c ≠ '\\') (r : Text) : unescape (c :: r) = (c, r) := by
  unfold unescape
  split <;> simp_all

theorem unescape_unit (n : Nat) (r : Text) :
    unescape (unit n ++ r) = unescapeUnits (Text.hex 4 n ++ r) := rfl

theorem unescapeUnits_single {c : Char} (h : c.toNat < 0x10000) (r : Text) :
    unescapeUnits (Text.hex 4 c.toNat ++ r) = (c, r) := by
  have hvalid : c.toNat < 0xd800 ∨ 0xdfff < c.toNat ∧ c.toNat < 0x110000 := c.valid
  rw [unescapeUnits, unhex_hex h]
  dsimp only
  rw [if_neg (by omega), Char.ofNat_toNat]

theorem unescapeUnits_pair {c : Char} (h : 0x10000 ≤ c.toNat) (r : Text) :
    unescapeUnits (Text.hex 4 (0xd800 + (c.toNat - 0x10000) / 0x400) ++
      (unit (0xdc00 + (c.toNat - 0x10000) % 0x400) ++ r)) = (c, r) := by
  have hvalid : c.toNat < 0xd800 ∨ 0xdfff < c.toNat ∧ c.toNat < 0x110000 := c.valid
  have hunit : ∀ m, (unit m ++ r).drop 2 = Text.hex 4 m ++ r := fun _ => rfl
  rw [unescapeUnits, unhex_hex (by omega)]
  dsimp only
  rw [if_pos (by omega), hunit, unhex_hex (by omega)]
  dsimp only
  rw [show 0x10000 + (0xd800 + (c.toNat - 0x10000) / 0x400 - 0xd800) * 0x400 +
    (0xdc00 + (c.toNat - 0x10000) % 0x400 - 0xdc00) = c.toNat by omega, Char.ofNat_toNat]

theorem unescape_escape (c : Char) (r : Text) : unescape (escape c ++ r) = (c, r) := by
  unfold escape
  split
  · next h =>
    have hc : c = '"' ∨ c = '\\' := by simpa using h
    rcases hc with rfl | rfl <;> rfl
  · next h =>
    split
    · next hn => subst hn; rfl
    split
    · next hr => subst hr; rfl
    split
    · next ht => subst ht; rfl
    split
    · next hb => subst hb; rfl
    split
    · next hf => subst hf; rfl
    split
    · exact unescape_cons (by simp_all) r
    split
    · next hlt => rw [unescape_unit, unescapeUnits_single hlt]
    · next hge =>
      dsimp only
      rw [List.append_assoc, unescape_unit, unescapeUnits_pair (by omega)]

/-- No escape begins with a quote. -/
theorem exists_escape (c : Char) : ∃ d t, escape c = d :: t ∧ d ≠ '"' := by
  unfold escape
  split_ifs <;> simp_all [unit]

theorem quotedString_tells (s t : Text) : Tells quotedString id s t := by
  have hchars : ∀ c ∈ s, ∀ d ∈ t, Tells escape id c d := fun c _ d _ =>
    .of_decoder (unescape_escape c) (unescape_escape d)
  intro r r' h
  simpa using Tells.flatMap hchars exists_escape r r' (List.cons.inj h).2

/-! ### Lists and objects -/

theorem intercalate_cons (sep t : Text) (ts : List Text) :
    sep.intercalate (t :: ts) = t ++ ts.flatMap (sep ++ ·) := by
  induction ts generalizing t with
  | nil => simp
  | cons u ts ih =>
    rw [List.intercalate_cons_cons, ih, List.flatMap_cons, List.append_assoc, List.append_assoc]

/-- Items in front of which a comma stands, and the line break behind them. -/
def moreItems (level : Nat) (ts : List Text) : Text :=
  ts.flatMap (',' :: newline (level + 1) ++ ·) ++ ['\n']

theorem block_cons (level : Nat) (opening closing : Char) (t : Text) (ts : List Text) :
    block level opening closing (t :: ts) = opening :: newline (level + 1) ++ (t ++
      (moreItems level ts ++ (List.replicate (2 * level) ' ' ++ [closing]))) := by
  simp [block, intercalate_cons, moreItems, newline]

section Block

variable {α : Type} {code : α → Text} {as bs : List α}

theorem moreItems_tells (level : Nat) (h : ∀ a ∈ as, ∀ b ∈ bs, Tells code id a b) :
    Tells (fun as => moreItems level (as.map code)) id as bs := by
  have hitems : ∀ a ∈ as, ∀ b ∈ bs, Tells (',' :: newline (level + 1) ++ code ·) id a b :=
    fun a ha b hb => (h a ha b hb).append_left _
  intro r r' heq
  simp only [moreItems, List.flatMap_map] at heq
  simpa using Tells.flatMap hitems (fun a => ⟨_, _, rfl, by decide⟩) r r' heq

theorem block_tells (level : Nat) (opening : Char) {closing : Char} (hclosing : closing ≠ '\n')
    (h : ∀ a ∈ as, ∀ b ∈ bs, Tells code id a b) :
    Tells (fun as => block level opening closing (as.map code)) id as bs := by
  intro r r' heq
  cases as with
  | nil =>
    cases bs with
    | nil => exact ⟨rfl, List.append_cancel_left heq⟩
    | cons b bs => simp [block, newline, hclosing] at heq
  | cons a as =>
    cases bs with
    | nil => simp [block, newline, hclosing.symm] at heq
    | cons b bs =>
      -- A comma or a line break follows the first item, and tells whether there are more.
      simp only [List.map_cons, block_cons, List.append_assoc] at heq
      obtain ⟨hab, hrest⟩ := h a List.mem_cons_self b List.mem_cons_self _ _
        (List.append_cancel_left heq)
      have htail := fun x hx y hy =>
        h x (List.mem_cons_of_mem a hx) y (List.mem_cons_of_mem b hy)
      obtain ⟨hmore, hclose⟩ := moreItems_tells level htail _ _ hrest
      refine ⟨congrArg₂ List.cons hab hmore, ?_⟩
      exact (List.cons.inj (List.append_cancel_left hclose)).2

end Block

/-! ### Values -/

/-- No part of the value is a number. -/
inductive Numberless : Json → Prop where
  | null : Numberless null
  | bool (b : Bool) : Numberless (bool b)
  | str (s : Text) : Numberless (str s)
  | arr {items : List Json} (h : ∀ v ∈ items, Numberless v) : Numberless (arr items)
  | obj {fields : List (String × Json)} (h : ∀ f ∈ fields, Numberless f.2) :
    Numberless (obj fields)

/-- One field of an object on its line. -/
def layoutField (level : Nat) (f : String × Json) : Text :=
  quotedString f.1.toList ++ (": ".toList ++ layoutAt level f.2)

theorem layoutItems_eq_map (level : Nat) (items : List Json) :
    layoutItems level items = items.map (layoutAt level) := by
  induction items with
  | nil => rfl
  | cons v items ih => rw [layoutItems, ih, List.map_cons]

theorem layoutFields_eq_map (level : Nat) (fields : List (String × Json)) :
    layoutFields level fields = fields.map (layoutField level) := by
  induction fields with
  | nil => rfl
  | cons f fields ih => rw [layoutFields, ih, List.map_cons, layoutField, List.append_assoc]

theorem layoutField_tells {level : Nat} {f g : String × Json}
    (h : Tells (layoutAt level) id f.2 g.2) : Tells (layoutField level) id f g := by
  intro r r' heq
  simp only [layoutField, List.append_assoc] at heq
  obtain ⟨hname, hrest⟩ := quotedString_tells _ _ _ _ heq
  obtain ⟨hvalue, hr⟩ := h _ _ (List.append_cancel_left hrest)
  exact ⟨Prod.ext (String.toList_injective hname) hvalue, hr⟩

/-- The character that the layout of a value without numbers begins with. -/
def mark : Json → Char
  | null => 'n'
  | bool b => if b then 't' else 'f'
  | str _ => '"'
  | arr _ => '['
  | obj _ => '{'
  | int _ | float _ => '0'

theorem head?_layoutAt {v : Json} (h : v.Numberless) (level : Nat) :
    (layoutAt level v).head? = some v.mark := by
  cases h with
  | null | str => rfl
  | bool b => cases b <;> rfl
  | arr => rw [layoutAt, block.eq_def]; split <;> rfl
  | obj => rw [layoutAt, block.eq_def]; split <;> rfl

/-- Where two layouts begin with the same text, the values begin in the same way. -/
theorem mark_eq {v w : Json} {level : Nat} {r r' : Text} (hv : v.Numberless) (hw : w.Numberless)
    (h : layoutAt level v ++ r = layoutAt level w ++ r') : v.mark = w.mark := by
  have hhead := congrArg List.head? h
  rw [List.head?_append, List.head?_append, head?_layoutAt hv, head?_layoutAt hw] at hhead
  exact Option.some.inj hhead

theorem layoutAt_tells {v w : Json} (hv : v.Numberless) (hw : w.Numberless) (level : Nat) :
    Tells (layoutAt level) id v w := by
  -- The first character decides between the constructors, so only equal ones are left to compare.
  induction hv generalizing w level with
  | null =>
    intro r r' h
    have hmark := mark_eq .null hw h
    cases hw with
    | null => exact ⟨rfl, List.append_cancel_left h⟩
    | _ => grind [mark]
  | bool b =>
    intro r r' h
    have hmark := mark_eq (.bool b) hw h
    cases hw with
    | bool c =>
      obtain rfl : b = c := by grind [mark]
      exact ⟨rfl, List.append_cancel_left h⟩
    | _ => grind [mark]
  | str s =>
    intro r r' h
    have hmark := mark_eq (.str s) hw h
    cases hw with
    | str t =>
      obtain ⟨hst, hr⟩ := quotedString_tells s t r r' h
      exact ⟨congrArg str hst, hr⟩
    | _ => grind [mark]
  | arr hitems ih =>
    intro r r' h
    have hmark := mark_eq (.arr hitems) hw h
    cases hw with
    | arr hitems' =>
      simp only [layoutAt, layoutItems_eq_map] at h
      have htells := fun v hv w hw => ih v hv (hitems' w hw) (level + 1)
      obtain ⟨heq, hr⟩ := block_tells level '[' (by decide) htells r r' h
      exact ⟨congrArg arr heq, hr⟩
    | _ => grind [mark]
  | obj hfields ih =>
    intro r r' h
    have hmark := mark_eq (.obj hfields) hw h
    cases hw with
    | obj hfields' =>
      simp only [layoutAt, layoutFields_eq_map] at h
      have htells := fun f hf g hg => layoutField_tells (ih f hf (hfields' g hg) (level + 1))
      obtain ⟨heq, hr⟩ := block_tells level '{' (by decide) htells r r' h
      exact ⟨congrArg obj heq, hr⟩
    | _ => grind [mark]

end Json

/-! ### Trees -/

namespace Json.Numberless

theorem ofOption (t : Option Text) : (Json.ofOption t).Numberless := by
  cases t with
  | none => exact .null
  | some s => exact .str s

theorem obj_nil : (Json.obj []).Numberless := .obj nofun

theorem obj_cons {name : String} {v : Json} {fields : List (String × Json)} (hv : v.Numberless)
    (h : (Json.obj fields).Numberless) : (Json.obj ((name, v) :: fields)).Numberless := by
  cases h with
  | obj h => exact .obj (List.forall_mem_cons.mpr ⟨hv, h⟩)

end Json.Numberless

section Trees

open Json.Numberless

theorem Param.numberless_toJson (p : Param) : p.toJson.Numberless :=
  obj_cons (.str _) (obj_cons (.str _) (obj_cons (.ofOption _) obj_nil))

mutual

theorem Node.numberless_toJson : ∀ n : Node, n.toJson.Numberless
  | .number _ | .string _ | .identifier _ | .operator _ =>
    obj_cons (.str _) (obj_cons (.str _) obj_nil)
  | .punctuation _ _ => obj_cons (.str _) (obj_cons (.str _) (obj_cons (.str _) obj_nil))
  | .returns values =>
    obj_cons (.str _) (obj_cons (.arr (Node.numberless_listToJson values)) obj_nil)
  | .function _ params _ body => by
    have hparams : ∀ v ∈ params.map Param.toJson, v.Numberless :=
      List.forall_mem_map.mpr fun p _ => p.numberless_toJson
    exact obj_cons (.str _) (obj_cons (.str _) (obj_cons (.arr hparams) (obj_cons (.ofOption _)
      (obj_cons (.arr (Node.numberless_listToJson body)) obj_nil))))

theorem Node.numberless_listToJson : ∀ ns : List Node, ∀ v ∈ Node.listToJson ns, v.Numberless
  | [] => nofun
  | n :: ns => List.forall_mem_cons.mpr ⟨n.numberless_toJson, Node.numberless_listToJson ns⟩

end

theorem Program.numberless_toJson (p : Program) : p.toJson.Numberless :=
  obj_cons (.str _) (obj_cons (.arr (Node.numberless_listToJson p.statements)) obj_nil)

end Trees

/-- The layout of a tree shows which tree a parse has returned. -/
theorem Program.layout_tells {o o' : Options} {ts ts' : List Token} {p p' : Program}
    (h : parse o ts = .ok p) (h' : parse o' ts' = .ok p') :
    Tells (fun p => p.toJson.layout) id p p' := by
  intro r r' heq
  obtain ⟨hjson, hr⟩ :=
    Json.layoutAt_tells p.numberless_toJson p'.numberless_toJson 0 r r' heq
  have hread := Program.check_toJson (Program.levels_of_parse h)
  rw [show p.toJson = p'.toJson from hjson,
    Program.check_toJson (Program.levels_of_parse h')] at hread
  exact ⟨(Checked.valid.inj hread).symm, hr⟩

end TypeStrip
