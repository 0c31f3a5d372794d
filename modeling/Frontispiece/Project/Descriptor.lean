import Frontispiece.Json.Basic

/-!
# Descriptors

A `Descriptor` says what one template of a build becomes: the template file, the name of the
artifact, its kind, and the data.  A variant names the output of another descriptor instead of a
template file.

A `Registry` is the list of descriptors of a build, in which the results that are kept in memory
are filled in.
-/

set_option autoImplicit false

namespace Frontispiece
namespace Project

/-- What a descriptor becomes. -/
inductive Kind where
  | svg
  | markdown
  | darkSvg
  | stillSvg
  | darkStillSvg
  deriving DecidableEq, Repr

namespace Kind

/-- Every kind. -/
def all : List Kind := [.svg, .markdown, .darkSvg, .stillSvg, .darkStillSvg]

/-- The name of a kind. -/
def name : Kind → String
  | .svg => "SVG"
  | .markdown => "Markdown"
  | .darkSvg => "DarkSVGVariant"
  | .stillSvg => "AnimationDisabledSVG"
  | .darkStillSvg => "DarkAnimationDisabledSVG"

/-- The kind of a name; one kind has a second spelling. -/
def ofName? (name : String) : Option Kind :=
  if name == "DarkSVGVarient" then some .darkSvg else all.find? fun kind => kind.name == name

/-- Whether a kind is made from another descriptor. -/
def isVariant (kind : Kind) : Bool :=
  kind != .svg && kind != .markdown

/-- Whether the artifact is a drawing. -/
def isSvg (kind : Kind) : Bool :=
  kind != .markdown

end Kind

/-- One unit of work of a build. -/
structure Descriptor where
  /-- The template file, or for a variant the output of its base. -/
  input : String
  /-- The name of the artifact; without one the result is kept in memory. -/
  out : Option String
  kind : Kind
  data : Json
  minify : Bool := true
  /-- The result that is kept in memory. -/
  rendered : Option String := none

/-- The descriptors of a build. -/
abbrev Registry : Type := List Descriptor

namespace Registry

/-- The descriptors with a given input. -/
def byInput (r : Registry) (input : String) : List Descriptor :=
  r.filter fun d => d.input == input

/-- The descriptor that a scene imports under a name: the first of that input that is no
variant. -/
def importable? (r : Registry) (input : String) : Option Descriptor :=
  (r.byInput input).find? fun d => !d.kind.isVariant

/-- The registry with the result of one descriptor filled in. -/
def setRendered (r : Registry) (position : Nat) (text : String) : Registry :=
  r.modify position fun d => { d with rendered := some text }

end Registry

/-- What can go wrong in finding what a descriptor renders. -/
inductive Fault where
  | missingBase (output : String)
  | ambiguousBase (output : String) (count : Nat)
  | variantCycle (chain : List String)
  | invalidVariantData (kind : Kind) (input : String)
  | notRenderable (kind : Kind)
  deriving DecidableEq, Repr

/-- The text of a fault. -/
def Fault.message : Fault → String
  | .missingBase output => "original template not found for: " ++ output
  | .ambiguousBase output count =>
    "ambiguous original template for: " ++ output ++ " (" ++ toString count
      ++ " descriptors produce it)"
  | .variantCycle chain => "circular variant reference detected: " ++ " -> ".intercalate chain
  | .invalidVariantData kind input =>
    "cannot apply " ++ kind.name ++ " to '" ++ input ++ "': template data must be an object"
  | .notRenderable kind => "not implemented: " ++ kind.name ++ " cannot be rendered directly"

end Project
end Frontispiece
