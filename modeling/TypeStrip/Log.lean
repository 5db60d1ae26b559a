import TypeStrip.Text

/-!
# Log records

* `LogRecord`         a message with its level and the component that wrote it;
* `LogRecord.line`    the record on one line behind a time stamp.
-/

namespace TypeStrip

inductive LogLevel where
  | debug
  | info
  | warning
  | error
  deriving DecidableEq, Repr, Inhabited

def LogLevel.label : LogLevel → String
  | .debug => "DEBUG"
  | .info => "INFO"
  | .warning => "WARNING"
  | .error => "ERROR"

inductive Component where
  | scanner
  | parser
  | compiler
  | agent
  deriving DecidableEq, Repr, Inhabited

def Component.label : Component → String
  | .scanner => "tinyts.lexer"
  | .parser => "tinyts.parser"
  | .compiler => "tinyts.compiler"
  | .agent => "agents.ui_agent"

structure LogRecord where
  level : LogLevel
  component : Component
  message : Text
  deriving DecidableEq, Repr, Inhabited

def LogRecord.line (stamp : Text) (r : LogRecord) : Text :=
  stamp ++ ' ' :: r.level.label.toList ++ ' ' :: r.component.label.toList ++ " — ".toList ++
    r.message

end TypeStrip
