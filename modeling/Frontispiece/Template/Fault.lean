import Frontispiece.Stats.Record

/-!
# Why a template is not rendered

`Fault` lists the causes.  A template that is malformed, or asks for something that cannot be done
with its data, has no text of its own beyond that; the helpers of this library say what they miss.
-/

set_option autoImplicit false

namespace Frontispiece
namespace Template

/-- Why a template is not rendered. -/
inductive Fault where
  /-- The template is malformed, or cannot be evaluated. -/
  | evaluation
  /-- A helper refuses its arguments. -/
  | helper (message : String)
  /-- Something other than a deferred value was to be placed. -/
  | notDeferred (value : String)
  /-- A statistic is missing. -/
  | stats (cause : Stats.Fault)
  /-- The output is no text. -/
  | encoding
  deriving DecidableEq, Repr

/-- The text of a fault. -/
def Fault.message : Fault → String
  | .evaluation => "template error"
  | .helper message => "template error: " ++ message
  | .notDeferred value => "not a deferred value: " ++ value
  | .stats cause => cause.message
  | .encoding => "compiled output is not valid UTF-8"

end Template
end Frontispiece
