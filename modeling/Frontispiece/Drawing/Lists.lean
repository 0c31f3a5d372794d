import Frontispiece.Json.Basic
import Frontispiece.Text.Split

/-!
# Attributes that hold lists

Two attributes of an element hold lists: `class` the words of a text, `style` declarations between
semicolons, each a property and a value around a colon.

* `addClass` adds a class that the list does not have yet.
* `readStyle` and `writeStyle` go between the text of a style and its properties.  A property that
  is declared twice keeps its first place and its last value.
-/

set_option autoImplicit false

namespace Frontispiece
namespace Drawing

/-- The classes of a list. -/
def classes (s : String) : List String :=
  (Text.words s.toList).map String.ofList

/-- The list with a class in it. -/
def addClass (list : Option String) (class_ : String) : String :=
  let present := (list.map classes).getD []
  " ".intercalate (if present.contains class_ then present else present ++ [class_])

/-- The property and the value of a declaration; one without a property is none. -/
def declaration? (s : List Char) : Option (String × String) :=
  match Text.cutWhere? (· == ':') s with
  | none => none
  | some (property, value) =>
    let property := Text.trim property
    if property.isEmpty then none
    else some (String.ofList property, String.ofList (Text.trim value))

/-- The properties of a style. -/
def readStyle (s : String) : Fields String :=
  Fields.ofList ((Text.splitOn (· == ';') s.toList).filterMap declaration?)

/-- The style with these properties. -/
def writeStyle (properties : Fields String) : String :=
  ";".intercalate (properties.map fun (property, value) => property ++ ":" ++ value)

end Drawing
end Frontispiece
