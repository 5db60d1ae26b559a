import TypeStrip.Options
import TypeStrip.Parse.Fault
import TypeStrip.Parse.State

/-!
# One token

The grammar, one token at a time.  A token either takes the parse to its next state or is
refused; no decision looks further than the token at hand.

* `Header.step`         a token inside a function header;
* `ParseState.step`     a token anywhere;
* `ParseState.finish`   the end of the input.
-/

namespace TypeStrip

inductive Refusal where
  /-- the token does not fit, and stays unread -/
  | unexpected (expected : Expectation)
  /-- a node that ends here cannot be built; `read` says whether the token belongs to it -/
  | flawed (flaw : Flaw) (read : Bool)
  deriving DecidableEq, Repr, Inhabited

namespace Refusal

def fault (found : Option Token) : Refusal → ParseFault
  | unexpected e => .unexpected e found
  | flawed f _ => .flawed f

def length : Refusal → Nat
  | unexpected _ => 0
  | flawed _ read => if read then 1 else 0

end Refusal

inductive HeaderStep where
  | more (header : Header)
  | opens (name : Text) (params : List Param) (returnType : Option Text)
  deriving DecidableEq, Repr, Inhabited

namespace Header

def paramsStep (name : Text) (params : List Param) (t : Token) : Except Refusal HeaderStep :=
  match t.kind with
  | .parenClose => .ok (.more (.closed name params))
  | .name => .ok (.more (.param name params t.text))
  | _ => .error (.unexpected .paramOrParenClose)

/-- Behind a complete parameter: a comma belongs to it, any other token already to what follows.
The parameter is built before the other token is looked at. -/
def settle (name : Text) (params : List Param) (param : Text) (type : Option Text) (t : Token) :
    Except Refusal HeaderStep :=
  match Name.ofText? param with
  | none => .error (.flawed .paramName (t.kind = .comma))
  | some p =>
    if t.kind = .comma then .ok (.more (.params name (⟨p, type⟩ :: params)))
    else paramsStep name (⟨p, type⟩ :: params) t

def step (o : Options) (t : Token) : Header → Except Refusal HeaderStep
  | start =>
    if t.kind = .name then .ok (.more (.named t.text)) else .error (.unexpected .functionName)
  | named name =>
    if t.kind = .parenOpen then .ok (.more (.params name [])) else .error (.unexpected .parenOpen)
  | params name ps => paramsStep name ps t
  | param name ps p =>
    if t.kind = .colon then .ok (.more (.paramColon name ps p)) else settle name ps p none t
  | paramColon name ps p =>
    if t.kind = .name then .ok (.more (.paramTyped name ps p t.text))
    else .error (.unexpected .paramType)
  | paramTyped name ps p type => settle name ps p (some type) t
  | closed name ps =>
    if t.kind = .colon then .ok (.more (.returnColon name ps))
    else if !o.requireReturnType && t.kind = .braceOpen then .ok (.opens name ps none)
    else .error (.unexpected .colonAfterParams)
  | returnColon name ps =>
    if t.kind = .name then .ok (.more (.typed name ps t.text))
    else .error (.unexpected .returnType)
  | typed name ps type =>
    if t.kind = .braceOpen then .ok (.opens name ps (some type))
    else .error (.unexpected .braceOpen)

def settleEnd (param : Text) : Refusal :=
  match Name.ofText? param with
  | none => .flawed .paramName false
  | some _ => .unexpected .paramOrParenClose

def finish : Header → Refusal
  | start => .unexpected .functionName
  | named _ => .unexpected .parenOpen
  | params _ _ => .unexpected .paramOrParenClose
  | param _ _ p => settleEnd p
  | paramColon _ _ _ => .unexpected .paramType
  | paramTyped _ _ p _ => settleEnd p
  | closed _ _ => .unexpected .colonAfterParams
  | returnColon _ _ => .unexpected .returnType
  | typed _ _ _ => .unexpected .braceOpen

end Header

namespace ParseState

/-- A token where a node begins: a leaf, or the keyword of a construct one level further in.  At
most `room` constructs may be open at once. -/
def nodeStep (room : Int) (s : ParseState) (t : Token) : Except Refusal ParseState :=
  match t.kind with
  | .number => .ok (s.add (.number t.text))
  | .operator =>
    match Operator.ofText? t.text with
    | none => .error (.flawed (.operatorSign t.text) true)
    | some op => .ok (s.add (.operator op))
  | .string => .ok (s.add (.string t.text))
  | .name => .ok (s.add (.identifier t.text))
  | .colon | .comma | .semicolon => .ok (s.add (.punctuation t.kind t.text))
  | .keywordReturn =>
    if room ≤ s.opened.length then .error (.unexpected .shallowerNesting)
    else .ok { s with opened := .returning [] :: s.opened }
  | .keywordFunction =>
    if room ≤ s.opened.length then .error (.unexpected .shallowerNesting)
    else .ok { s with header := some .start }
  | .parenOpen | .parenClose | .braceOpen | .braceClose => .error (.unexpected .knownToken)

def bodyStep (room : Int) (s : ParseState) (t : Token) : Except Refusal ParseState :=
  match s.opened with
  | .returning values :: rest =>
    if t.kind = .semicolon then
      if values.isEmpty then .error (.unexpected .returnValue)
      else .ok (ParseState.add (.returns values.reverse) { s with opened := rest })
    else nodeStep room s t
  | .body name params type nodes :: rest =>
    if t.kind = .braceClose then
      match Name.ofText? name with
      | none => .error (.flawed .functionName true)
      | some name =>
        .ok (ParseState.add (.function name params type nodes.reverse) { s with opened := rest })
    else nodeStep room s t
  | [] => nodeStep room s t

def step (o : Options) (room : Int) (s : ParseState) (t : Token) : Except Refusal ParseState :=
  match s.header with
  | none => bodyStep room s t
  | some h =>
    match h.step o t with
    | .error r => .error r
    | .ok (.more h) => .ok { s with header := some h }
    | .ok (.opens name params type) =>
      .ok { s with opened := .body name params.reverse type [] :: s.opened, header := none }

/-- The end of the input: refused as long as something is open. -/
def finish (s : ParseState) : Except Refusal Unit :=
  match s.header, s.opened with
  | some h, _ => .error h.finish
  | none, .returning _ :: _ => .error (.unexpected .semicolonAfterReturn)
  | none, .body _ _ _ _ :: _ => .error (.unexpected .braceClose)
  | none, [] => .ok ()

end ParseState

end TypeStrip
