import TypeStrip.CommandLine
import TypeStrip.Proofs.Layouts
import TypeStrip.Proofs.Messages

/-!
# What the command line promises

Every run ends with an exit code that tells how far it got: the input could not be read, or it
could not be compiled, or it was compiled.  A run that fails prints nothing on standard output, and
what a successful run prints there can be taken apart again.

* `Arguments.parse_words`      every combination of arguments can be asked for;
* `Files.read_ne_nul`          a path without a NUL character is looked up;
* `CommandLine.Call`           a command line with all that its run depends on;
* `CommandLine.Call.Ends`      the ways in which a run ends, and `CommandLine.Call.ends` that
  there are no others;
* `CommandLine.report_tells`   what is printed shows its parts;
* `CommandLine.Call.Contract`  exit code and output of a run;
* `CommandLine.run_contract`   every run keeps it.
-/

namespace TypeStrip

/-! ### Arguments and files -/

def Flag.word : Flag → Text
  | help => "--help".toList
  | tokens => "--tokens".toList
  | tree => "--tree".toList
  | legacyKeywords => "--legacy-keywords".toList
  | allowUntyped => "--allow-untyped".toList
  | verbose => "--verbose".toList

theorem Flag.classify_word (f : Flag) :
    f.word ≠ ['-', '-'] ∧ Argument.classify f.word = .ok (.flag f false none) := by
  cases f <;> decide

theorem Argument.classifyAll_words (fs : List Flag) (s : Text) :
    Argument.classifyAll (fs.map Flag.word ++ [['-', '-'], s]) =
      .ok (fs.map (Argument.flag · false none) ++ [.terminator, .positional s]) := by
  induction fs with
  | nil => rfl
  | cons f fs ih =>
    obtain ⟨hne, hclass⟩ := f.classify_word
    rw [List.map_cons, List.cons_append, classifyAll, if_neg hne, hclass, ih]
    rfl

namespace Arguments

def flags (a : Arguments) : List Flag :=
  (if a.tokens then [.tokens] else []) ++ (if a.tree then [.tree] else []) ++
    (if a.legacyKeywords then [.legacyKeywords] else []) ++
    (if a.allowUntyped then [.allowUntyped] else []) ++ (if a.verbose then [.verbose] else [])

/-- A command line for given arguments: the flags, and the file behind two dashes. -/
def words (a : Arguments) : List Text := a.flags.map Flag.word ++ [['-', '-'], a.file]

theorem foldlM_step_flags (fs : List Flag) (a : Arguments) :
    (fs.map (Argument.flag · false none)).foldlM step { arguments := a } =
      (fs.foldlM set a).map fun b => { arguments := b } := by
  induction fs generalizing a with
  | nil => rfl
  | cons f fs ih =>
    have hstep : step { arguments := a } (.flag f false none) =
        (set a f).map fun b => { arguments := b } := by
      cases f <;> rfl
    rw [List.map_cons, List.foldlM_cons, List.foldlM_cons, hstep]
    cases set a f with
    | error e => rfl
    | ok b => exact ih b

theorem foldlM_set_flags (a : Arguments) :
    a.flags.foldlM set {} = .ok { a with file := ['-'] } := by
  obtain ⟨file, tokens, tree, legacyKeywords, allowUntyped, verbose⟩ := a
  cases tokens <;> cases tree <;> cases legacyKeywords <;> cases allowUntyped <;>
    cases verbose <;> rfl

theorem parse_words (a : Arguments) : parse a.words = .ok a := by
  rw [parse, words, Argument.classifyAll_words]
  dsimp only
  rw [List.foldlM_append, foldlM_step_flags, foldlM_set_flags]
  rfl

end Arguments

namespace Files

theorem walk_ne_nul (d : Files) (here : Option (List Text)) (parts : List Text) :
    d.walk here parts ≠ .error .nulCharacter := by
  fun_induction Files.walk d here parts <;> simp_all

theorem read_ne_nul (d : Files) {path : Text} (h : '\x00' ∉ path) :
    d.read path ≠ .error .nulCharacter := by
  unfold Files.read
  rw [if_neg (by simpa using h)]
  split
  · intro hread
    cases hread
  · split
    · intro hread
      cases hread
    · exact d.walk_ne_nul _ _

end Files

namespace CommandLine

/-! ### Runs -/

/-- A command line that asks for a run, and all that the run depends on. -/
structure Call where
  argv : List Text
  arguments : Arguments
  files : Files
  stdin : Bytes
  stamp : Text
  parsed : Arguments.parse argv = .ok arguments
  noNul : '\x00' ∉ arguments.file

namespace Call

def outcome (x : Call) : Outcome := run x.argv x.files x.stdin x.stamp

/-- The text that is read; there is none if the input cannot be read or decoded.  A file has its
line ends unified, standard input is taken as it stands. -/
def source? (x : Call) : Option Text :=
  if x.arguments.file = ['-'] then (Utf8.decode x.stdin).toOption
  else ((x.files.read x.arguments.file).toOption.bind fun bytes =>
    (Utf8.decode bytes).toOption).map unifyNewlines

/-- What compiling the text gives under the options that the flags stand for. -/
def result? (x : Call) : Option (Except CompileFault Compilation) :=
  x.source?.map (compile ⟨!x.arguments.legacyKeywords, !x.arguments.allowUntyped⟩)

/-- The outcomes that a run can have. -/
inductive Ends (x : Call) : Outcome → Prop where
  | unread (err : Text) (h : x.source? = none) : Ends x (.exit 2 [] err)
  | failed {e : CompileFault} {d : Diagnostic} {log : Text} (h : x.result? = some (.error e))
    (hd : e.verdict = .diagnostic d) (hlog : x.arguments.verbose = false → log = []) :
    Ends x (.exit 1 [] (log ++ (d.kind.toList ++ ": ".toList ++ d.message ++ ['\n'])))
  | done {c : Compilation} (err : Text) (h : x.result? = some (.ok c)) :
    Ends x (.exit 0 (report x.arguments c) err)

end Call

theorem toOption_decode (bytes : Bytes) :
    (decode bytes).toOption = (Utf8.decode bytes).toOption := by
  unfold decode
  cases Utf8.decode bytes <;> rfl

theorem toOption_fileText (content : Except PathFault Bytes) : (fileText content).toOption =
    (content.toOption.bind fun bytes => (Utf8.decode bytes).toOption).map unifyNewlines := by
  cases content with
  | error f => rfl
  | ok bytes =>
    show ((decode bytes).map unifyNewlines).toOption = (Utf8.decode bytes).toOption.map unifyNewlines
    rw [← toOption_decode]
    cases decode bytes <;> rfl

theorem decode_ne_path (bytes : Bytes) (f : PathFault) : decode bytes ≠ .error (.path f) := by
  unfold decode
  cases Utf8.decode bytes <;> nofun

theorem fileText_ne_path {content : Except PathFault Bytes} {f : PathFault}
    (h : content ≠ .error f) : fileText content ≠ .error (.path f) := by
  cases content with
  | error g =>
    intro hpath
    cases hpath
    exact h rfl
  | ok bytes =>
    rw [fileText, decode]
    cases Utf8.decode bytes <;> nofun

theorem respond_unreadable (a : Arguments) (stamp : Text) {f : InputFault}
    (h : f ≠ .path .nulCharacter) :
    ∃ reason, respond a stamp (.error f) = unreadable a reason := by
  obtain (_ | _ | _ | _ | _) | f := f
  case path.nulCharacter => exact absurd rfl h
  all_goals exact ⟨_, rfl⟩

theorem logLines_quiet {a : Arguments} (h : a.verbose = false) (stamp source : Text) :
    logLines a stamp source = [] := by
  rw [logLines, h, if_neg Bool.false_ne_true]

theorem Call.source?_eq (x : Call) :
    x.source? = (readSource x.arguments x.files x.stdin).toOption := by
  unfold source? readSource
  split
  · exact (toOption_decode _).symm
  · exact (toOption_fileText _).symm

theorem Call.readSource_ne_nul (x : Call) :
    readSource x.arguments x.files x.stdin ≠ .error (.path .nulCharacter) := by
  unfold readSource
  split
  · exact decode_ne_path _ _
  · exact fileText_ne_path (x.files.read_ne_nul x.noNul)

theorem Call.ends_compileText {x : Call} {s : Text} (h : x.source? = some s) :
    x.Ends (compileText x.arguments x.stamp s) := by
  have hresult : x.result? = some (compile (options x.arguments) s) := by
    rw [result?, h]
    rfl
  unfold compileText
  cases hc : compile (options x.arguments) s with
  | ok c => exact .done _ (hresult.trans (congrArg some hc))
  | error e =>
    obtain ⟨d, hd⟩ := compile_reports hc
    simp only [hd]
    rw [Text.lines_cons, Text.lines_nil]
    exact .failed (hresult.trans (congrArg some hc)) hd fun hquiet => logLines_quiet hquiet _ _

theorem Call.ends (x : Call) : x.Ends x.outcome := by
  have hsource := x.source?_eq
  have hnul := x.readSource_ne_nul
  rw [outcome, run, x.parsed]
  dsimp only
  cases hread : readSource x.arguments x.files x.stdin with
  | error f =>
    rw [hread] at hsource hnul
    obtain ⟨reason, hrespond⟩ :=
      respond_unreadable x.arguments x.stamp fun h => hnul (congrArg _ h)
    rw [hrespond]
    exact .unread _ hsource
  | ok s =>
    rw [hread] at hsource
    exact Call.ends_compileText hsource

/-! ### Exit codes -/

/-- What a run promises about its exit code, its output and its messages. -/
structure Call.Contract (x : Call) (code : Nat) (out err : Text) : Prop where
  unread : code = 2 ↔ x.source? = none
  failed : code = 1 ↔ ∃ e, x.result? = some (.error e)
  done : code = 0 ↔ ∃ c, x.result? = some (.ok c)
  silent : code ≠ 0 → out = []
  oneLine : code = 1 → x.arguments.verbose = false →
    ∃ e d line, x.result? = some (.error e) ∧ e.verdict = .diagnostic d ∧
      line = d.kind.toList ++ ": ".toList ++ d.message ∧ err = line ++ ['\n'] ∧
      Text.Printable line

theorem Call.line_printable {x : Call} {e : CompileFault} {d : Diagnostic}
    (h : x.result? = some (.error e)) (hd : e.verdict = .diagnostic d) :
    Text.Printable (d.kind.toList ++ ": ".toList ++ d.message) := by
  obtain ⟨s, -, hc⟩ := Option.map_eq_some_iff.mp h
  have hmessage := compile_message_printable hc hd
  exact .append (.append d.kind_printable (by decide)) hmessage

theorem Call.source_ne_none {x : Call} {r : Except CompileFault Compilation}
    (h : x.result? = some r) : x.source? ≠ none := by
  obtain ⟨s, hs, -⟩ := Option.map_eq_some_iff.mp h
  rw [hs]
  nofun

theorem Call.exists_contract (x : Call) :
    ∃ code out err, x.outcome = .exit code out err ∧ x.Contract code out err := by
  have hends := x.ends
  generalize x.outcome = outcome at hends
  cases hends with
  | unread err h =>
    have hresult : x.result? = none := by rw [result?, h]; rfl
    exact ⟨2, [], err, rfl, by simp [h], by simp [hresult], by simp [hresult], fun _ => rfl, nofun⟩
  | failed h hd hlog =>
    have hsource := source_ne_none h
    refine ⟨1, [], _, rfl, by simp [hsource], by simp [h], by simp [h], fun _ => rfl, ?_⟩
    intro _ hquiet
    refine ⟨_, _, _, h, hd, rfl, ?_, line_printable h hd⟩
    rw [hlog hquiet, List.nil_append]
  | done err h =>
    have hsource := source_ne_none h
    exact ⟨0, _, err, rfl, by simp [hsource], by simp [h], by simp [h], by simp, nofun⟩

/-! ### Output -/

def Outcome.stdout : Outcome → Text
  | .exit _ out _ => out
  | .crash _ => []

/-- Only a run that succeeds prints something. -/
theorem Call.stdout_eq (x : Call) : x.outcome.stdout =
    match x.result? with
    | some (.ok c) => report x.arguments c
    | _ => [] := by
  have hends := x.ends
  generalize x.outcome = outcome at hends
  cases hends with
  | unread err h =>
    rw [result?, h]
    rfl
  | failed h hd hlog => rw [h]; rfl
  | done err h => rw [h]; rfl

-- The log goes to standard error, and nothing else in a run looks at the flag.
theorem Call.stdout_verbose {x y : Call} {v : Bool}
    (hargs : y.arguments = { x.arguments with verbose := v }) (hfiles : y.files = x.files)
    (hstdin : y.stdin = x.stdin) : y.outcome.stdout = x.outcome.stdout := by
  have hsource : y.source? = x.source? := by simp [source?, hargs, hfiles, hstdin]
  have hresult : y.result? = x.result? := by simp [result?, hargs, hsource]
  have hreport : report y.arguments = report x.arguments := by
    funext c
    simp [report, hargs]
  rw [x.stdout_eq, y.stdout_eq, hresult, hreport]

theorem exists_tokenLine (t : Token) : ∃ c r, t.render ++ ['\n'] = c :: r ∧ c ≠ '\n' := by
  have hlabel : ∀ k : Kind, k.label.toList ≠ [] ∧ '\n' ∉ k.label.toList := by
    intro k
    cases k <;> decide
  obtain ⟨hne, hline⟩ := hlabel t.kind
  obtain ⟨c, s, hc⟩ := List.exists_cons_of_ne_nil hne
  rw [hc, List.mem_cons, not_or] at hline
  exact ⟨c, _, by rw [Token.render, hc]; rfl, Ne.symm hline.1⟩

/-- So the first empty line is the one behind the tokens, whatever their texts hold. -/
theorem tokenLines_tells (ts us : List Token) :
    Tells (fun ts => Text.lines (ts.map Token.render ++ [[]])) (List.map Token.lexeme) ts us := by
  have hlines : ∀ t ∈ ts, ∀ u ∈ us, Tells (Token.render · ++ ['\n']) Token.lexeme t u :=
    fun t _ u _ => (Token.render_tells t u).append_right _
  intro r r' h
  simp only [Text.lines_append, Text.lines_cons, Text.lines_nil, List.nil_append] at h
  rw [Text.lines, Text.lines, List.flatMap_map, List.flatMap_map] at h
  exact Tells.flatMap hlines exists_tokenLine r r' h

theorem treeLines_tells {o o' : Options} {ts ts' : List Token} {p p' : Program}
    (h : parse o ts = .ok p) (h' : parse o' ts' = .ok p') :
    Tells (fun p => Text.lines [p.toJson.layout, []]) id p p' := by
  intro r r' heq
  simp only [Text.lines_cons, Text.lines_nil] at heq
  exact (Program.layout_tells h h').append_right ['\n', '\n'] r r' (by simpa using heq)

/-- A part of the output that a flag asks for. -/
theorem optional_tells {α β : Type} {code : α → Text} {view : α → β} {a b : α} (flag : Bool)
    (h : Tells code view a b) {r r' : Text}
    (heq : (if flag then code a else []) ++ r = (if flag then code b else []) ++ r') :
    (flag = true → view a = view b) ∧ r = r' := by
  cases flag with
  | false => exact ⟨nofun, heq⟩
  | true =>
    obtain ⟨hview, hr⟩ := h r r' heq
    exact ⟨fun _ => hview, hr⟩

/-- What is printed is taken apart from its front: the tokens, then the tree, then the output. -/
theorem report_tells {a a' : Arguments} {o o' : Options} {s s' : Text} {c c' : Compilation}
    (htokens : a.tokens = a'.tokens) (htree : a.tree = a'.tree) (hc : compile o s = .ok c)
    (hc' : compile o' s' = .ok c') (h : report a c = report a' c') :
    (a.tokens = true → c.tokens.map Token.lexeme = c'.tokens.map Token.lexeme) ∧
      (a.tree = true → c.tree = c'.tree) ∧ c.output = c'.output := by
  obtain ⟨-, hparse, -⟩ := compile_eq_ok_iff.mp hc
  obtain ⟨-, hparse', -⟩ := compile_eq_ok_iff.mp hc'
  rw [report, report, ← htokens, ← htree, List.append_assoc, List.append_assoc] at h
  obtain ⟨hlexemes, h⟩ := optional_tells a.tokens (tokenLines_tells c.tokens c'.tokens) h
  obtain ⟨htrees, h⟩ := optional_tells a.tree (treeLines_tells hparse hparse') h
  refine ⟨hlexemes, htrees, ?_⟩
  rw [Text.lines_cons, Text.lines_cons] at h
  exact List.append_cancel_right h

theorem Call.exists_result {x : Call} {out err : Text} (h : x.outcome = .exit 0 out err) :
    ∃ c, x.result? = some (.ok c) ∧ out = report x.arguments c := by
  have hends := x.ends
  rw [h] at hends
  cases hends with
  | done _ hresult => exact ⟨_, hresult, rfl⟩

/-- Two runs that print the same have compiled the same, as far as they were asked to print it. -/
theorem Call.results_eq {x y : Call} {out err err' : Text}
    (htokens : x.arguments.tokens = y.arguments.tokens)
    (htree : x.arguments.tree = y.arguments.tree) (hx : x.outcome = .exit 0 out err)
    (hy : y.outcome = .exit 0 out err') :
    ∃ c c', x.result? = some (.ok c) ∧ y.result? = some (.ok c') ∧
      (x.arguments.tokens = true → c.tokens.map Token.lexeme = c'.tokens.map Token.lexeme) ∧
      (x.arguments.tree = true → c.tree = c'.tree) ∧ c.output = c'.output := by
  obtain ⟨c, hresult, hout⟩ := x.exists_result hx
  obtain ⟨c', hresult', hout'⟩ := y.exists_result hy
  obtain ⟨s, -, hc⟩ := Option.map_eq_some_iff.mp hresult
  obtain ⟨s', -, hc'⟩ := Option.map_eq_some_iff.mp hresult'
  exact ⟨c, c', hresult, hresult', report_tells htokens htree hc hc' (hout ▸ hout')⟩

/-- **The contract of the command line.**  Every combination of arguments can be asked for.  A run
ends with the code 2, 1 or 0 if its input cannot be read, cannot be compiled, or can; it prints
something only in the last case, and one line about the second.  What it prints does not depend on
the log, and shows the tokens up to their places, the tree and the output. -/
theorem run_contract :
    (∀ (a : Arguments) (files : Files) (stdin : Bytes) (stamp : Text), '\x00' ∉ a.file →
      ∃ x : Call, x.arguments = a ∧ x.files = files ∧ x.stdin = stdin ∧ x.stamp = stamp) ∧
    (∀ x : Call, ∃ code out err, x.outcome = .exit code out err ∧ x.Contract code out err) ∧
    (∀ (x y : Call) (v : Bool), y.arguments = { x.arguments with verbose := v } →
      y.files = x.files → y.stdin = x.stdin → y.outcome.stdout = x.outcome.stdout) ∧
    ∀ (x y : Call) (out err err' : Text), x.arguments.tokens = y.arguments.tokens →
      x.arguments.tree = y.arguments.tree → x.outcome = .exit 0 out err →
      y.outcome = .exit 0 out err' →
        ∃ c c', x.result? = some (.ok c) ∧ y.result? = some (.ok c') ∧
          (x.arguments.tokens = true →
            c.tokens.map Token.lexeme = c'.tokens.map Token.lexeme) ∧
          (x.arguments.tree = true → c.tree = c'.tree) ∧ c.output = c'.output := by
  refine ⟨?_, Call.exists_contract, fun x y v => Call.stdout_verbose,
    fun x y out err err' => Call.results_eq⟩
  intro a files stdin stamp hfile
  exact ⟨⟨a.words, a, files, stdin, stamp, a.parse_words, hfile⟩, rfl, rfl, rfl, rfl⟩

/-- A string that goes over an empty line, with and without the log; an unknown character; and a
string with a carriage return, which is kept from standard input and not from a file. -/
theorem run_contract_multiline :
    let bytes := [0x22, 0x0a, 0x0a, 0x22]
    let quiet : Call := ⟨["--tokens".toList, "--tree".toList], { tokens := true, tree := true }, {},
      bytes, [], rfl, by decide⟩
    let loud : Call := ⟨["--tokens".toList, "--tree".toList, "-v".toList],
      { tokens := true, tree := true, verbose := true }, {}, bytes, [], rfl, by decide⟩
    let broken : Call := ⟨["--tree".toList], { tree := true }, {}, [0x23], [], rfl, by decide⟩
    let typed : Call := ⟨[], {}, {}, [0x22, 0x0d, 0x0a, 0x22], [], rfl, by decide⟩
    let stored : Call := ⟨["a".toList], { file := "a".toList },
      { files := [(["a".toList], [0x22, 0x0d, 0x0a, 0x22])] }, [], [], rfl, by decide⟩
    (∃ out err err' c c', quiet.outcome = .exit 0 out err ∧ loud.outcome = .exit 0 out err' ∧
      quiet.result? = some (.ok c) ∧ loud.result? = some (.ok c') ∧ c.tree = c'.tree) ∧
    (∃ err, broken.outcome = .exit 1 [] err ∧ ∃ line, err = line ++ ['\n'] ∧
      Text.Printable line ∧ line = "LexError: Unknown character '#' at offset 0".toList) ∧
    ∃ out err out' err', typed.outcome = .exit 0 out err ∧ stored.outcome = .exit 0 out' err' ∧
      typed.source? = some "\"\r\n\"".toList ∧ stored.source? = some "\"\n\"".toList ∧
      out ≠ out' := by
  intro bytes quiet loud broken typed stored
  obtain ⟨-, hcontract, hverbose, htells⟩ := run_contract
  refine ⟨?_, ?_, ?_⟩
  · have hdone : ∃ c, quiet.result? = some (.ok c) := by
      let s : Text := "\"\n\n\"".toList
      exact ⟨⟨[⟨.string, s, 0⟩], ⟨[.string s]⟩, s⟩, by decide +kernel⟩
    obtain ⟨code, out, err, hquiet, hx⟩ := hcontract quiet
    obtain ⟨code', out', err', hloud, hy⟩ := hcontract loud
    have hout := hverbose quiet loud true rfl rfl rfl
    rw [hquiet, hloud] at hout
    obtain rfl : out' = out := hout
    rw [hx.done.mpr hdone] at hquiet
    rw [hy.done.mpr hdone] at hloud
    obtain ⟨c, c', hc, hc', -, htree, -⟩ := htells quiet loud out' err err' rfl rfl hquiet hloud
    exact ⟨out', err, err', c, c', hquiet, hloud, hc, hc', htree rfl⟩
  · obtain ⟨code, out, err, hout, hx⟩ := hcontract broken
    have hresult : broken.result? = some (.error (.scan ⟨.unknown '#', 0⟩)) := by decide +kernel
    have hcode : code = 1 := hx.failed.mpr ⟨_, hresult⟩
    obtain ⟨e, d, line, he, hd, hline, herr, hprintable⟩ := hx.oneLine hcode rfl
    rw [hcode, hx.silent (by rw [hcode]; decide)] at hout
    rw [hresult] at he
    cases he
    cases hd
    exact ⟨err, hout, line, herr, hprintable, hline.trans (by decide +kernel)⟩
  · let kept : Text := "\"\r\n\"".toList
    let unified : Text := "\"\n\"".toList
    have htyped : typed.result? = some (.ok ⟨[⟨.string, kept, 0⟩], ⟨[.string kept]⟩, kept⟩) := by
      decide +kernel
    have hstored : stored.result? =
        some (.ok ⟨[⟨.string, unified, 0⟩], ⟨[.string unified]⟩, unified⟩) := by
      decide +kernel
    obtain ⟨code, out, err, hout, hx⟩ := hcontract typed
    obtain ⟨code', out', err', hout', hy⟩ := hcontract stored
    rw [hx.done.mpr ⟨_, htyped⟩] at hout
    rw [hy.done.mpr ⟨_, hstored⟩] at hout'
    refine ⟨out, err, out', err', hout, hout', by decide +kernel, by decide +kernel, ?_⟩
    rintro rfl
    obtain ⟨c, c', hc, hc', -, -, houtput⟩ := htells typed stored out err err' rfl rfl hout hout'
    rw [htyped] at hc
    rw [hstored] at hc'
    cases hc
    cases hc'
    exact absurd houtput (by decide)

end CommandLine

end TypeStrip
