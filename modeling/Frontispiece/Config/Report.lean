import Frontispiece.Config.Fault
import Frontispiece.Report.Label

/-!
# Reports on configurations

A configuration in the notation of data is reported with the character at which reading stopped.
Of other faults a report has only the text.
-/

set_option autoImplicit false

namespace Frontispiece
namespace Config

/-- The title of a report on a configuration. -/
def reportTitle : String := "invalid build config"

/-- The offset at which reading stopped. -/
def Fault.offset? (text : String) : Fault → Option Nat
  | .malformedData line column => some (Report.lineColumnOffset text.toList line column)
  | _ => none

/-- The place of a fault: file, line and column. -/
def Fault.place? (filename text : String) (fault : Fault) : Option String :=
  (fault.offset? text).bind (Report.place? filename text.toList)

/-- A report on a fault in the text of a configuration.  What is wrong with tables is located
nowhere, but has the title of a report. -/
def Fault.report (filename text : String) (fault : Fault) : String :=
  match fault with
  | .malformedTables => "Error: " ++ reportTitle ++ "\n" ++ fault.message
  | fault =>
    match fault.offset? text with
    | some offset => Report.reportAt filename text.toList offset reportTitle fault.message
    | none => fault.message

end Config
end Frontispiece
