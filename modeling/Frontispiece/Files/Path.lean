import Frontispiece.Text.Split

/-!
# Paths

A path is a text of components between slashes.  Empty components and single dots, except a dot at
the very start, do not count.

* `join` puts a path below another; an absolute path replaces it.
* `parent?` is the path without its last component, `name?` that component.
* `extension?` and `withExtension` read and replace what stands after the last dot of the name.
-/

set_option autoImplicit false

namespace Frontispiece
namespace Files

/-- A path below another.  A slash goes between the two unless there is one or the first is
empty. -/
def join (base path : String) : String :=
  if path.startsWith "/" then path
  else if base.isEmpty || base.endsWith "/" then base ++ path
  else base ++ "/" ++ path

/-- The reversed path without slashes and idle dots at its end. -/
def trimReversed : Nat → List Char → List Char
  | 0, s => s
  | fuel + 1, s =>
    match s with
    | ['/'] => s
    | '/' :: rest => trimReversed fuel rest
    | '.' :: '/' :: rest => if rest.isEmpty then ['/'] else trimReversed fuel ('/' :: rest)
    | s => s

/-- The reversed path without what does not count at its end. -/
def trimmedReversed (path : String) : List Char :=
  let s := path.toList.reverse
  trimReversed (s.length + 1) s

/-- The path without its last component. -/
def parent? (path : String) : Option String :=
  match trimmedReversed path with
  | [] => none
  | ['/'] => none
  | s =>
    let rest := s.dropWhile (· != '/')
    some (String.ofList (trimReversed (rest.length + 1) rest).reverse)

/-- The last component, unless it is a dot or two. -/
def name? (path : String) : Option String :=
  let name := ((trimmedReversed path).takeWhile (· != '/')).reverse
  if name.isEmpty || name == ['.'] || name == ['.', '.'] then none else some (String.ofList name)

/-- A name before and after its last dot; a dot at its start does not count. -/
def splitName (name : String) : List Char × Option (List Char) :=
  let s := name.toList
  let after := (s.reverse.takeWhile (· != '.')).reverse
  let before := s.take (s.length - after.length - 1)
  if before.isEmpty then (s, none) else (before, some after)

/-- What stands after the last dot of the name. -/
def extension? (path : String) : Option String := do
  let name ← name? path
  let extension ← (splitName name).2
  some (String.ofList extension)

/-- The path with another extension; unchanged when it has no name. -/
def withExtension (path extension : String) : String :=
  match name? path with
  | none => path
  | some name =>
    let s := trimmedReversed path
    let folder := (s.dropWhile (· != '/')).reverse
    String.ofList (folder ++ (splitName name).1) ++ "." ++ extension

end Files
end Frontispiece
