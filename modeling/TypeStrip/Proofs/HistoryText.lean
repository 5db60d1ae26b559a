import TypeStrip.Proofs.Messages

/-!
# The text of a history

A history is shown as lines: three on top, three for each of its entries and two at the end.  An
entry cannot break out of its lines, since its preview is made of words and its messages are
printable.

* `Text.words_eq_filter`       words as what stands between blanks;
* `newline_not_mem_preview`    a preview is a single line;
* `Entry.OneLine`              entries that break no lines;
* `Entry.sourceLine`, `Entry.resultLine`   what is shown of an entry;
* `historyLines`               the lines of a history;
* `splitOn_historyText`        which are those of its text;
* `getElem?_historyLines`      where the lines of an entry stand.
-/

namespace TypeStrip

/-! ### Previews -/

namespace Text

/-- A text begins with a blank exactly if nothing stands in front of its first blank. -/
theorem startsBlank_of_splitOnP {s w : Text} {ws : List Text}
    (h : s.splitOnP isBlank = w :: ws) : startsBlank s = w.isEmpty := by
  cases s with
  | nil =>
    rw [List.splitOnP_nil] at h
    rw [← (List.cons.inj h).1]
    rfl
  | cons c s =>
    rw [List.splitOnP_cons_eq_if_modifyHead] at h
    split at h
    · next hc =>
      rw [← (List.cons.inj h).1]
      exact hc
    · next hc =>
      obtain ⟨v, vs, hv⟩ := List.exists_cons_of_ne_nil (List.splitOnP_ne_nil isBlank s)
      rw [hv, List.modifyHead_cons] at h
      rw [← (List.cons.inj h).1]
      exact Bool.eq_false_iff.mpr hc

/-- Words are what stands between blanks, where something does. -/
theorem words_eq_filter (s : Text) : words s = (s.splitOnP isBlank).filter (· ≠ []) := by
  induction s with
  | nil => rfl
  | cons c s ih =>
    obtain ⟨v, vs, hv⟩ := List.exists_cons_of_ne_nil (List.splitOnP_ne_nil isBlank s)
    have hstart := startsBlank_of_splitOnP hv
    rw [words, List.splitOnP_cons_eq_if_modifyHead]
    by_cases hc : isBlank c = true
    · rw [if_pos hc, if_pos hc, ih]
      rfl
    · rw [if_neg hc, if_neg hc, ih, hstart, hv]
      cases v with
      | nil => rfl
      | cons d v => rfl

end Text

theorem mem_intercalate_singleton {x c : Char} {ls : List Text}
    (h : c ∈ List.intercalate [x] ls) : c = x ∨ ∃ l ∈ ls, c ∈ l := by
  induction ls with
  | nil => cases h
  | cons l ls ih =>
    cases ls with
    | nil =>
      rw [List.intercalate_singleton] at h
      exact .inr ⟨l, List.mem_cons_self, h⟩
    | cons l' ls =>
      rw [List.intercalate_cons_cons] at h
      rcases List.mem_append.mp h with h | h
      · rcases List.mem_append.mp h with h | h
        · exact .inr ⟨l, List.mem_cons_self, h⟩
        · exact .inl (List.mem_singleton.mp h)
      · rcases ih h with hx | ⟨l, hl, hc⟩
        · exact .inl hx
        · exact .inr ⟨l, List.mem_cons_of_mem _ hl, hc⟩

/-- A preview is a single line, since line feeds are blanks and only words are left. -/
theorem newline_not_mem_preview (source : Text) : '\n' ∉ preview source := by
  have hline : '\n' ∉ List.intercalate [' '] (Text.words source) := by
    intro h
    rcases mem_intercalate_singleton h with h | ⟨w, hw, h⟩
    · cases h
    · have hblank := (Text.mem_words hw).2 '\n' h
      cases hblank
  unfold preview
  dsimp only
  split
  · intro h
    rcases List.mem_append.mp h with h | h
    · exact hline (List.mem_of_mem_take h)
    · cases List.mem_singleton.mp h
  · exact hline

/-! ### Entries -/

theorem Text.Printable.newline_not_mem {s : Text} (h : s.Printable) : '\n' ∉ s := by
  intro hmem
  have hprintable := h '\n' hmem
  have hnewline : isPrintable '\n' = false := by decide
  rw [hnewline] at hprintable
  cases hprintable

theorem durationText_printable (ticks : Nat) : (durationText ticks).Printable :=
  .append (Text.decimal_printable _) (.cons (by decide) (Text.decimal_printable _))

namespace Entry

/-- The entry breaks no lines. -/
structure OneLine (e : Entry) : Prop where
  preview : '\n' ∉ e.preview
  failure : ∀ f, e.failure = some f → '\n' ∉ f.kind ∧ '\n' ∉ f.message

/-- The first line of entry number `i`. -/
def sourceLine (i : Nat) (e : Entry) : Text :=
  "[".toList ++ Text.padLeft 2 '0' (Text.decimal i) ++ "] Source : ".toList ++ e.preview

/-- Its second line. -/
def resultLine (e : Entry) : Text :=
  "     Result : ".toList ++ e.status ++ "  |  ".toList ++ durationText e.ticks ++ "ms".toList

theorem newline_not_mem_sourceLine {e : Entry} (h : e.OneLine) (i : Nat) :
    '\n' ∉ e.sourceLine i := by
  have hnumber : '\n' ∉ Text.padLeft 2 '0' (Text.decimal i) := by
    rw [Text.padLeft, List.mem_append, not_or]
    refine ⟨fun hmem => ?_, (Text.decimal_printable i).newline_not_mem⟩
    cases List.eq_of_mem_replicate hmem
  unfold sourceLine
  simp only [List.mem_append, not_or]
  exact ⟨⟨⟨by decide, hnumber⟩, by decide⟩, h.preview⟩

theorem newline_not_mem_status {e : Entry} (h : e.OneLine) : '\n' ∉ e.status := by
  unfold status
  split
  · decide
  · next f hf =>
    obtain ⟨hkind, hmessage⟩ := h.failure f hf
    simp only [List.mem_append, not_or]
    exact ⟨⟨⟨by decide, hkind⟩, by decide⟩, hmessage⟩

theorem newline_not_mem_resultLine {e : Entry} (h : e.OneLine) : '\n' ∉ e.resultLine := by
  have hduration := (durationText_printable e.ticks).newline_not_mem
  unfold resultLine
  simp only [List.mem_append, not_or]
  exact ⟨⟨⟨⟨by decide, newline_not_mem_status h⟩, by decide⟩, hduration⟩, by decide⟩

end Entry

/-! ### Lines -/

/-- The lines of some entries, of which the first one has number `i`. -/
def numberedLines (i : Nat) : List Entry → List Text
  | [] => []
  | e :: rest => [] :: e.sourceLine i :: e.resultLine :: numberedLines (i + 1) rest

/-- The lines of a history. -/
def historyLines (history : List Entry) : List Text :=
  [ruler, "  tinyts Compile History".toList, ruler] ++ numberedLines 1 history ++ [[], ruler]

theorem length_numberedLines (i : Nat) (history : List Entry) :
    (numberedLines i history).length = 3 * history.length := by
  induction history generalizing i with
  | nil => rfl
  | cons e rest ih =>
    rw [numberedLines, List.length_cons, List.length_cons, List.length_cons, ih, List.length_cons]
    omega

theorem length_historyLines (history : List Entry) :
    (historyLines history).length = 3 * history.length + 5 := by
  rw [historyLines, List.length_append, List.length_append, length_numberedLines]
  show 3 + 3 * history.length + 2 = _
  omega

theorem getElem?_numberedLines {history : List Entry} {j : Nat} {e : Entry}
    (h : history[j]? = some e) (i : Nat) :
    (numberedLines i history)[3 * j + 1]? = some (e.sourceLine (i + j)) ∧
      (numberedLines i history)[3 * j + 2]? = some e.resultLine := by
  induction history generalizing i j with
  | nil => cases h
  | cons e' rest ih =>
    cases j with
    | zero =>
      cases h
      exact ⟨rfl, rfl⟩
    | succ j =>
      have hrest := ih h (i + 1)
      rw [Nat.add_right_comm i 1 j] at hrest
      exact hrest

/-- The lines of entry number `j + 1`. -/
theorem getElem?_historyLines {history : List Entry} {j : Nat} {e : Entry}
    (h : history[j]? = some e) :
    (historyLines history)[3 * (j + 1) + 1]? = some (e.sourceLine (j + 1)) ∧
      (historyLines history)[3 * (j + 1) + 2]? = some e.resultLine := by
  obtain ⟨hsource, hresult⟩ := getElem?_numberedLines h 1
  have hend : ∀ n l, (numberedLines 1 history)[n]? = some l →
      (historyLines history)[n + 3]? = some l := by
    intro n l hl
    have hlt : n < (numberedLines 1 history).length := (List.getElem?_eq_some_iff.mp hl).1
    exact (List.getElem?_append_left hlt).trans hl
  rw [Nat.add_comm 1 j] at hsource
  exact ⟨hend _ _ hsource, hend _ _ hresult⟩

theorem newline_not_mem_numberedLines {history : List Entry} (h : ∀ e ∈ history, e.OneLine)
    (i : Nat) : ∀ l ∈ numberedLines i history, '\n' ∉ l := by
  induction history generalizing i with
  | nil => exact nofun
  | cons e rest ih =>
    obtain ⟨he, hrest⟩ := List.forall_mem_cons.mp h
    rw [numberedLines]
    simp only [List.forall_mem_cons]
    exact ⟨List.not_mem_nil, e.newline_not_mem_sourceLine he i, e.newline_not_mem_resultLine he,
      ih hrest (i + 1)⟩

theorem newline_not_mem_historyLines {history : List Entry} (h : ∀ e ∈ history, e.OneLine) :
    ∀ l ∈ historyLines history, '\n' ∉ l := by
  rw [historyLines, List.forall_mem_append, List.forall_mem_append]
  exact ⟨⟨by decide, newline_not_mem_numberedLines h 1⟩, by decide⟩

/-- Lines with a line feed behind each of them, where `List.intercalate` has one between them. -/
theorem intercalate_append_newline {ls : List Text} (h : ls ≠ []) :
    List.intercalate ['\n'] ls ++ ['\n'] = ls.flatMap (· ++ ['\n']) := by
  induction ls with
  | nil => exact absurd rfl h
  | cons l ls ih =>
    cases ls with
    | nil =>
      rw [List.intercalate_singleton]
      exact (List.append_nil _).symm
    | cons l' ls =>
      rw [List.intercalate_cons_cons, List.append_assoc, ih (List.cons_ne_nil _ _)]
      rfl

theorem entryLines_eq (i : Nat) (e : Entry) :
    entryLines i e = ['\n' :: e.sourceLine i, e.resultLine] := rfl

theorem flatMap_entriesLines (i : Nat) (history : List Entry) :
    (entriesLines i history).flatMap (· ++ ['\n']) =
      (numberedLines i history).flatMap (· ++ ['\n']) := by
  induction history generalizing i with
  | nil => rfl
  | cons e rest ih =>
    rw [entriesLines, List.flatMap_append, ih, entryLines_eq, numberedLines]
    simp only [List.flatMap_cons, List.flatMap_nil, List.append_assoc, List.nil_append]
    rfl

theorem historyText_eq {history : List Entry} (h : history ≠ []) :
    historyText history = List.intercalate ['\n'] (historyLines history) := by
  have hne : history.isEmpty = false := List.isEmpty_eq_false_iff.mpr h
  -- With a line feed behind the last line, too, both sides are made part by part.
  refine List.append_cancel_right (?_ : historyText history ++ ['\n'] = _ ++ ['\n'])
  rw [historyText, hne, if_neg Bool.false_ne_true, intercalate_append_newline (by simp),
    intercalate_append_newline (by simp [historyLines]), historyLines]
  simp only [List.flatMap_append, flatMap_entriesLines]
  rfl

/-- The lines of a text of a history, whatever its entries say. -/
theorem splitOn_historyText {history : List Entry} (hne : history ≠ [])
    (h : ∀ e ∈ history, e.OneLine) : (historyText history).splitOn '\n' = historyLines history := by
  rw [historyText_eq hne]
  exact List.splitOn_intercalate '\n' (newline_not_mem_historyLines h) (by simp [historyLines])

end TypeStrip
