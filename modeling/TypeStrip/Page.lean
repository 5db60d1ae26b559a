import TypeStrip.Session

/-!
# The viewer page

One run of the page draws the workflow of the session, takes over what its widgets return, and
acts on the first button that is pressed.  A run that acts ends with a request to run the page
again.

* `Element`       one drawing call, with the containers around it;
* `PageInput`     what the widgets of one run return;
* `Page.run`      the session behind the run, what was drawn, and how the run ended.
-/

namespace TypeStrip

/-- A drawing call: where it is made, its name, and its arguments by position and by name. -/
structure Element where
  place : List String := []
  call : String
  args : List Json := []
  named : List (String × Json) := []
  deriving Repr, Inhabited

/-- What the widgets of one run return; `none` is the value that a widget was drawn with. -/
structure PageInput where
  keywordBoundary : Option Bool := none
  requireReturnType : Option Bool := none
  source : Option Text := none
  resetPressed : Bool := false
  compilePressed : Bool := false
  samplePressed : Bool := false
  /-- how long a compile request of this run takes -/
  ticks : Nat := 0
  deriving Repr, Inhabited

inductive PageEnd where
  | done
  | rerun
  | fault (f : ActionFault)
  deriving DecidableEq, Repr, Inhabited

structure PageRun where
  session : Session
  elements : List Element
  ending : PageEnd
  deriving Repr, Inhabited

namespace Page

def lit (s : String) : Json := .str s.toList

def inside (container : String) (l : List Element) : List Element :=
  l.map fun e => { e with place := container :: e.place }

def markdown (s : Text) : Element := { call := "markdown", args := [.str s] }

def divider : Element := { call := "divider" }

def subheader (s : String) : Element := { call := "subheader", args := [lit s] }

def info (s : String) : Element := { call := "info", args := [lit s] }

def rerun : Element := { call := "rerun" }

def setup : Element :=
  { call := "set_page_config",
    named := [("page_title", lit "tinyts — TypeScript → JavaScript"), ("page_icon", lit "🧩"),
      ("layout", lit "wide"), ("initial_sidebar_state", lit "expanded")] }

def phaseColor : Phase → String
  | .idle => "gray"
  | .compiling => "blue"
  | .compiled => "green"
  | .error => "red"

def failureText (separator : String) (f : Failure) : Text :=
  "**".toList ++ f.kind ++ "**".toList ++ separator.toList ++ f.message

/-! ### The sidebar -/

def failureBox (w : Workflow) : List Element :=
  match w.failure with
  | none => []
  | some f =>
    if f.message.isEmpty then []
    else [{ call := "error", args := [.str (failureText " — " f)], named := [("icon", lit "🚨")] }]

def status (w : Workflow) : List Element :=
  [markdown "## 🧩 tinyts".toList, divider,
    markdown ("**Status:** :".toList ++ (phaseColor w.phase).toList ++ '[' ::
      w.phase.label.toList ++ [']'])] ++
    failureBox w ++ [divider]

def toggles (o : Options) : List Element :=
  [subheader "⚙️ Compiler Options",
    { call := "toggle", args := [lit "Keyword word boundary"],
      named := [("value", .bool o.keywordBoundary),
        ("help", lit "Off: `returnValue` scans as `return` + `Value`.")] },
    { call := "toggle", args := [lit "Require return type"],
      named := [("value", .bool o.requireReturnType),
        ("help", lit "Off: `function f(a) \x7b … \x7d` is accepted.")] }]

def resetButton (w : Workflow) : Element :=
  { call := "button", args := [lit "🔄 Reset Session"],
    named := [("use_container_width", .bool true), ("disabled", .bool w.isBusy)] }

def sidebar (w : Workflow) : List Element :=
  inside "sidebar" (status w ++ toggles w.options ++ [divider, resetButton w])

/-- The options that the toggles of a run show. -/
def chosen (i : PageInput) (o : Options) : Options :=
  ⟨i.keywordBoundary.getD o.keywordBoundary, i.requireReturnType.getD o.requireReturnType⟩

def takeOptions (i : PageInput) (a : Nat) (s : Session) : Except ActionFault Session :=
  let old := (s.workflow (s.workflowOf a)).options
  let new := chosen i old
  if new = old then .ok s
  else s.configure a (.bool new.keywordBoundary) (.bool new.requireReturnType)

/-! ### The editor -/

def editor (w : Workflow) : List Element :=
  [subheader "Source",
    { call := "text_area", args := [lit "Typed source"],
      named := [("value", .str w.source), ("height", .int 160),
        ("label_visibility", lit "collapsed"), ("disabled", .bool w.isBusy)] },
    { call := "columns", args := [.arr [.int 1, .int 1, .int 2]] }]

def compileButton (w : Workflow) : Element :=
  { call := "button", args := [lit "▶️ Compile"],
    named := [("type", lit "primary"), ("use_container_width", .bool true),
      ("disabled", .bool w.isBusy)] }

def sampleButton (w : Workflow) : Element :=
  { call := "button", args := [lit "📄 Load Sample"],
    named := [("use_container_width", .bool true), ("disabled", .bool w.isBusy)] }

def spinner : Element := { call := "spinner", args := [lit "Compiling…"] }

/-! ### The tabs -/

def errorBox (w : Workflow) : List Element :=
  if w.phase = .error then
    let f := w.failure.getD ⟨"None".toList, "None".toList⟩
    [{ call := "error", args := [.str (failureText ": " f)] }]
  else []

def tabs : Element :=
  { call := "tabs",
    args := [.arr [lit "🔤 Tokens", lit "🌳 Syntax Tree", lit "💻 Output", lit "📋 History"]] }

/-- A tab that needs a result, and what it says without one. -/
def resultTab (w : Workflow) (absent : String) (f : Compilation → List Element) : List Element :=
  match w.result with
  | some c => if w.hasResult then f c else [info absent]
  | none => [info absent]

def tokensTab (w : Workflow) : List Element :=
  resultTab w "Compile a program to see its token stream." fun c =>
    [{ call := "metric", args := [lit "Tokens", .int c.tokens.length] },
      { call := "dataframe", args := [w.tokenRows],
        named := [("use_container_width", .bool true), ("hide_index", .bool true)] }]

def treeTab (w : Workflow) : List Element :=
  resultTab w "Compile a program to see its syntax tree." fun _ =>
    [{ call := "json", args := [w.treeJson], named := [("expanded", .bool true)] }]

def functionList (c : Compilation) : Text :=
  let names := List.intercalate ", ".toList c.tree.functionNames
  if names.isEmpty then "none".toList else names

def outputTab (w : Workflow) : List Element :=
  resultTab w "Compile a program to see the generated code." fun c =>
    [{ call := "success",
        args := [.str ("✅ Compilation successful — functions: ".toList ++ functionList c)] },
      { call := "code", args := [.str c.output],
        named := [("language", lit "javascript"), ("line_numbers", .bool true)] },
      { call := "download_button", args := [lit "⬇️ Download .js"],
        named := [("data", .str c.output), ("file_name", lit "output.js"),
          ("mime", lit "text/javascript")] }]

def historyTab (w : Workflow) : List Element :=
  subheader "Compile History" ::
    if w.history.isEmpty then [info "No compilations have been run yet."]
    else
      [{ call := "columns", args := [.int 2] },
        { place := ["col0"], call := "metric", args := [lit "Total", .int w.history.length] },
        { place := ["col1"], call := "metric",
          args := [lit "Succeeded", .int (w.history.filter Entry.success).length] },
        { call := "code", args := [.str (historyText w.history)],
          named := [("language", lit "text")] }]

def results (w : Workflow) : List Element :=
  errorBox w ++ [tabs] ++ inside "tab0" (tokensTab w) ++ inside "tab1" (treeTab w) ++
    inside "tab2" (outputTab w) ++ inside "tab3" (historyTab w)

/-! ### A run -/

/-- An agent without subscribers never has to react. -/
def noReaction : Session.React := fun _ _ s => (none, s)

/-- A compile request that a button makes: `drawn` has been drawn, and `place` holds the button. -/
def request (a : Nat) (source : Text) (ticks : Nat) (place : String) (drawn : List Element)
    (s : Session) : PageRun :=
  match s.compileWith noReaction a source ticks none with
  | (.error f, s) => ⟨s, drawn, .fault f⟩
  | (.ok _, s) => ⟨s, drawn ++ inside place [rerun], .rerun⟩

def run (i : PageInput) (s : Session) : PageRun :=
  let (a, s) := s.attach
  let w := s.workflow (s.workflowOf a)
  let drawn := setup :: sidebar w
  match takeOptions i a s with
  | .error f => ⟨s, drawn, .fault f⟩
  | .ok s =>
    if i.resetPressed then ⟨s.reset.2, drawn ++ inside "sidebar" [rerun], .rerun⟩
    else
      let drawn := drawn ++ editor w ++ inside "col0" [compileButton w]
      if i.compilePressed then
        request a (i.source.getD w.source) i.ticks "col0" (drawn ++ inside "col0" [spinner]) s
      else
        let drawn := drawn ++ inside "col1" [sampleButton w]
        if i.samplePressed then request a sampleSource i.ticks "col1" drawn s
        else ⟨s, drawn ++ results w, .done⟩

end Page

end TypeStrip
