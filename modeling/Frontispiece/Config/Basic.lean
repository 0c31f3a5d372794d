import Frontispiece.Config.Fault
import Frontispiece.Json.Reader
import Frontispiece.Project.Descriptor
import Frontispiece.Toml.Read

/-!
# Configurations

A `Config` lists the descriptors of a build, with a version and an output folder that may be left
out.  It is written as data or as tables, by the extension of its file.

Each structure is read from an object, in which unknown fields are skipped and no field comes
twice, or from an array of its values in order, of which those at the end may be left out if their
fields may.  As data, a configuration may also be the list of descriptors alone.
-/

set_option autoImplicit false

namespace Frontispiece

/-- The configuration of a build. -/
structure Config where
  version : Option String
  outputFolder : Option String
  templates : Project.Registry

namespace Config

open Project (Descriptor Kind)

/-- A field that may come once. -/
def field? (fields : List (String × Json)) (name : String) : Option (Option Json) :=
  match fields.filter (·.1 == name) with
  | [] => some none
  | [(_, value)] => some (some value)
  | _ => none

/-- A text or null; null also where the field is left out. -/
def optionalText? : Option Json → Option (Option String)
  | none => some none
  | some .null => some none
  | some (.string s) => some (some s)
  | some _ => none

/-- A kind: its name, or an object with the name as the key of null. -/
def kind? : Json → Option Kind
  | .string name => Kind.ofName? name
  | .object [(name, .null)] => Kind.ofName? name
  | _ => none

/-- A boolean that is true where the field is left out. -/
def flag? : Option Json → Option Bool
  | none => some true
  | some (.bool b) => some b
  | some _ => none

/-- A descriptor from the values of its fields. -/
def descriptorOf? (input out kind data minify : Option Json) : Option Descriptor := do
  let input ← input.bind Json.string?
  let out ← optionalText? out
  let kind ← kind.bind kind?
  let minify ← flag? minify
  some { input, out, kind, data := (data.getD .null).merged, minify }

/-- A descriptor from data in which repeated keys are kept apart.  An array may be longer than
there are fields only if `more` is set. -/
def descriptor? (more : Bool) : Json → Option Descriptor
  | .object fields => do
    descriptorOf? (← field? fields "in") (← field? fields "out") (← field? fields "type")
      (← field? fields "data") (← field? fields "minify")
  | .array items =>
    if items.length ≤ 5 || more then
      descriptorOf? items[0]? items[1]? items[2]? items[3]? items[4]?
    else none
  | _ => none

/-- The descriptors of a list. -/
def descriptors? (more : Bool) : Json → Option (List Descriptor)
  | .array items => items.mapM (descriptor? more)
  | _ => none

/-- A configuration from the values of its fields. -/
def of? (more : Bool) (version folder templates : Option Json) : Option Config := do
  let version ← optionalText? version
  let outputFolder ← optionalText? folder
  let templates ←
    match templates with
    | none => some []
    | some templates => descriptors? more templates
  some { version, outputFolder, templates }

/-- A configuration from an object or an array of its values. -/
def full? (more : Bool) : Json → Option Config
  | .object fields => do
    of? more (← field? fields "version") (← field? fields "outputFolder")
      (← field? fields "templates")
  | .array items => if items.length ≤ 3 then of? more items[0]? items[1]? items[2]? else none
  | _ => none

/-- A fault at the place where reading stopped. -/
def stopped (s : List Char) (fault : Json.Fault) : Fault :=
  let (line, column) := Json.linePosition 1 0 s (fault.seen s)
  .malformedData line column

/-- A configuration from a value: a list of descriptors or a configuration in full. -/
def ofValue? (value : Json) : Option Config :=
  match descriptors? false value with
  | some templates => some { version := none, outputFolder := none, templates }
  | none => full? false value

/-- A configuration written as data.  Data that is no configuration has no place, whatever comes
after it. -/
def ofData (text : String) : Except Fault Config := do
  let s := text.toList
  let (value, rest) ← (Json.leading? s).mapError (stopped s)
  match ofValue? value with
  | none => .error (.malformedData 0 0)
  | some config =>
    (Json.ended rest).mapError (stopped s)
    .ok config

/-- A configuration written as tables. -/
def ofTables (text : String) : Except Fault Config :=
  match (Toml.read? text.toList).bind fun fields => full? true (.object fields) with
  | some config => .ok config
  | none => .error .malformedTables

/-- The configuration in a file, by its extension. -/
def load (files : Files.FileTree) (path : String) : Except Fault Config :=
  match files.readText path with
  | .error cause => .error (.unreadable path cause)
  | .ok text =>
    match Files.extension? path with
    | some "json" => ofData text
    | some "toml" => ofTables text
    | _ => .error (.unsupportedFormat path)

end Config
end Frontispiece
