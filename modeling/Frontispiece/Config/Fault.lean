import Frontispiece.Files.Tree

/-!
# What is wrong with a configuration

A configuration in the notation of data is reported at the character at which reading stopped;
`Fault.malformedData` carries the line and the column.
-/

set_option autoImplicit false

namespace Frontispiece
namespace Config

/-- Why there is no configuration. -/
inductive Fault where
  | unreadable (path : String) (cause : Files.Fault)
  /-- No data, or data that is no configuration; then line and column are zero. -/
  | malformedData (line column : Nat)
  /-- No tables, or tables that are no configuration. -/
  | malformedTables
  | unsupportedFormat (path : String)
  deriving DecidableEq, Repr

/-- The text of a fault. -/
def Fault.message : Fault → String
  | .unreadable path cause =>
    "Failed to read build config " ++ "'" ++ path ++ "': " ++ cause.message
  | .malformedData _ _ => "Failed to parse build config JSON"
  | .malformedTables => "Failed to parse build config TOML"
  | .unsupportedFormat path => "unsupported build config format: '" ++ path ++ "'"

end Config
end Frontispiece
