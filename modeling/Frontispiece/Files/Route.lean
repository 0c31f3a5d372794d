import Frontispiece.Files.Path

/-!
# Routes

A program stands in one folder of a tree that goes up to a root.  A path leads from there, or from
the root, through folders to a place.  On the way it may go up again, and follow links.  Which way it
takes is a matter of names, of the folder that the program stands in, and of the links: files and
folders decide only how far one gets on it.

A place is written as the shortest path to it.  What lies below the current folder has the components
that lead to it from there, and everything else has an empty component and those that lead to it from
the root.

* `Ground` is what the way of a path depends on.
* `Ground.route` is the way of a path, and `Ground.placeOf` the place where it ends.
-/

set_option autoImplicit false

namespace Frontispiece
namespace Files

/-- The components of a path, empty ones included. -/
def components (path : String) : List String :=
  (Text.splitOn (· == '/') path.toList).map String.ofList

/-- Whether a path ends in a slash, which only fits a folder. -/
def endsInSlash (path : String) : Bool :=
  (components path).getLast? == some ""

/-- The steps of a path: its components, but for empty ones at the end. -/
def steps (path : String) : List String :=
  ((components path).reverse.dropWhile (·.isEmpty)).reverse

/-- Where a program stands, and the links around it.  Nothing of this changes while it runs. -/
structure Ground where
  /-- The components that lead from the root to the current folder. -/
  home : List String := []
  /-- The places of links, each with the path that it stands for. -/
  links : List (List String × String) := []
  deriving DecidableEq, Repr

/-- The way of a path: the folders that it leads through, and the place where it ends.  It ends at no
place when it follows too many links. -/
structure Route where
  through : List (List String)
  goal : Option (List String)
  deriving DecidableEq, Repr

namespace Ground

/-- The root.  It is the current folder when that is not below it. -/
def root (g : Ground) : List String :=
  if g.home.isEmpty then [] else [""]

/-- The folder that a place is in; above the root there is only the root again. -/
def above (g : Ground) (place : List String) : List String :=
  if place.isEmpty then (if g.home.isEmpty then [] else "" :: g.home.dropLast)
  else if place == [""] then place
  else place.dropLast

/-- The place of a name in a folder. -/
def inside (g : Ground) (place : List String) (name : String) : List String :=
  let inner := place ++ [name]
  if inner == "" :: g.home then [] else inner

/-- Whether a place is the current folder or one that it lies in. -/
def isAround (g : Ground) (place : List String) : Bool :=
  place.isPrefixOf ("" :: g.home)

/-- The components that lead to a place from the root. -/
def absolute (g : Ground) : List String → List String
  | "" :: rest => rest
  | place => g.home ++ place

/-- Where a path starts that is followed from a place. -/
def start (g : Ground) (place : List String) (path : String) : List String :=
  if path.startsWith "/" then g.root else place

/-- The way of steps from a place.  From a link on, `jump` is the way of the path that the link stands
for and of the steps after it. -/
def walk (g : Ground) (jump : List String → List String → Route) :
    List String → List String → Route
  | place, [] => ⟨[], some place⟩
  | place, step :: rest =>
    let onward :=
      if step.isEmpty || step == "." then g.walk jump place rest
      else if step == ".." then g.walk jump (g.above place) rest
      else
        let inner := g.inside place step
        match g.links.lookup inner with
        | none => g.walk jump inner rest
        | some path => jump (g.start place path) (components path ++ rest)
    ⟨place :: onward.through, onward.goal⟩

/-- The way of steps from a place with at most so many links on it. -/
def follow (g : Ground) : Nat → List String → List String → Route
  | 0 => g.walk fun _ _ => ⟨[], none⟩
  | links + 1 => g.walk (g.follow links)

/-- How many links one path may follow. -/
def linkLimit : Nat := 40

/-- The way of a path. -/
def route (g : Ground) (path : String) : Route :=
  g.follow linkLimit (g.start [] path) (steps path)

/-- The place where a path ends. -/
def placeOf (g : Ground) (path : String) : List String :=
  ((g.route path).goal).getD []

/-- The way of a path to the folder of its last step. -/
def routeToLast (g : Ground) (path : String) : Route :=
  g.follow linkLimit (g.start [] path) (steps path).dropLast

/-- Whether the last step of a path is the name of a link in a folder. -/
def namesLink (g : Ground) (folder : List String) (path : String) : Bool :=
  match (steps path).getLast? with
  | some name => (g.links.lookup (g.inside folder name)).isSome
  | none => false

end Ground
end Files
end Frontispiece
