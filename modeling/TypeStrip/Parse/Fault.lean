import TypeStrip.Token
import TypeStrip.Tree

/-!
# Why a parse fails

Either the next token does not fit, and then something else was expected; or all tokens of a node
have been read and their texts do not make such a node.

* `Expectation`   what should have come next;
* `Flaw`          a node whose texts break a rule of the tree;
* `ParseFault`    the two together, with the token that was found.
-/

namespace TypeStrip

inductive Expectation where
  | knownToken
  | returnValue
  | semicolonAfterReturn
  | paramOrParenClose
  | paramType
  | functionName
  | parenOpen
  | colonAfterParams
  | returnType
  | braceOpen
  | braceClose
  | shallowerNesting
  /-- a node, where the input is already over -/
  | statement
  /-- any token at all, where the input is already over -/
  | moreInput
  /-- whatever a caller asked for in words of its own -/
  | custom (text : Text)
  deriving DecidableEq, Repr, Inhabited

namespace Expectation

def message : Expectation → Text
  | knownToken => "unrecognized token".toList
  | returnValue => "return value expected".toList
  | semicolonAfterReturn => "semicolon expected after return values".toList
  | paramOrParenClose =>
    "parameter name or closing parenthesis expected in parameter list".toList
  | paramType => "parameter type expected".toList
  | functionName => "function name expected".toList
  | parenOpen => "opening parenthesis expected".toList
  | colonAfterParams => "colon expected after parameters".toList
  | returnType => "return type expected".toList
  | braceOpen => "opening brace expected".toList
  | braceClose => "closing brace expected".toList
  | shallowerNesting => "maximum nesting depth exceeded".toList
  | statement => "statement expected".toList
  | moreInput => "more input expected".toList
  | custom text => text

end Expectation

inductive Flaw where
  /-- an operator token whose text is none of the four signs -/
  | operatorSign (text : Text)
  | paramName
  | functionName
  deriving DecidableEq, Repr, Inhabited

/-- Why a parse stops: `found` is the token that did not fit, or `none` at the end of the input. -/
inductive ParseFault where
  | unexpected (expected : Expectation) (found : Option Token)
  | flawed (flaw : Flaw)
  deriving DecidableEq, Repr, Inhabited

def describeFound : Option Token → Text
  | none => "end of input".toList
  | some t => t.describe

end TypeStrip
