/-!
# Options

The two switches that change how the dialect is read.  The defaults describe the strict dialect:
a keyword needs a word boundary behind it, and every function declares its return type.
-/

namespace TypeStrip

structure Options where
  /-- `return` and `function` are keywords only where no letter follows -/
  keywordBoundary : Bool := true
  /-- a function without a declared return type is refused -/
  requireReturnType : Bool := true
  deriving DecidableEq, Repr, Inhabited

end TypeStrip
