import Frontispiece.Project.Descriptor

/-!
# Variants

A variant is made from the descriptor whose output it names, which may be a variant again.
`expand` walks to the descriptor at the end, and changes a copy of it on the way back: a dark
variant adds a field to its data, a still one switches its animations off, and each gives it its
own output.

The walk ends, because no input comes on it twice; it takes one step more than there are
descriptors as fuel.
-/

set_option autoImplicit false

namespace Frontispiece
namespace Project

/-- What a variant changes. -/
structure Transform where
  dark : Bool
  still : Bool
  deriving DecidableEq, Repr

/-- What the variants of a kind change; nothing for the kinds that are no variants. -/
def Kind.transform? : Kind → Option Transform
  | .svg | .markdown => none
  | .darkSvg => some ⟨true, false⟩
  | .stillSvg => some ⟨false, true⟩
  | .darkStillSvg => some ⟨true, true⟩

/-- The outputs of descriptors, each with the position of its descriptor. -/
structure OutputIndex where
  outputs : List (String × Nat)

namespace OutputIndex

/-- The outputs of a registry. -/
def ofRegistry (r : Registry) : OutputIndex where
  outputs := r.zipIdx.filterMap fun (d, position) => d.out.map (·, position)

/-- The positions of the descriptors with an output. -/
def positions (index : OutputIndex) (output : String) : List Nat :=
  (index.outputs.filter fun entry => entry.1 == output).map Prod.snd

/-- The position of the only descriptor with an output. -/
def resolve (index : OutputIndex) (output : String) : Except Fault Nat :=
  match index.positions output with
  | [] => .error (.missingBase output)
  | [position] => .ok position
  | positions => .error (.ambiguousBase output positions.length)

end OutputIndex

/-- A descriptor that can be rendered, and whether with its animations. -/
structure Expansion where
  descriptor : Descriptor
  animations : Bool

/-- The field that a dark variant adds to its data. -/
def darkField : String × Json := ("darkThemeClass", .string "dark")

/-- A descriptor with the field of dark variants in its data. -/
def darken (d : Descriptor) (kind : Kind) : Except Fault Descriptor :=
  match d.data with
  | .null => .ok { d with data := .object [darkField] }
  | .object fields => .ok { d with data := .object (Fields.insert darkField.1 darkField.2 fields) }
  | _ => .error (.invalidVariantData kind d.input)

/-- The walk from a descriptor, when `chain` are the inputs of the variants before it. -/
def expandFrom (r : Registry) (index : OutputIndex) :
    Nat → List String → Descriptor → Except Fault Expansion
  | 0, chain, _ => .error (.variantCycle chain)
  | fuel + 1, chain, d =>
    match d.kind.transform? with
    | none => .ok ⟨{ d with rendered := none }, true⟩
    | some transform =>
      if chain.contains d.input then .error (.variantCycle (chain ++ [d.input]))
      else do
        let position ← index.resolve d.input
        match r[position]? with
        | none => .error (.missingBase d.input)
        | some base => do
          let e ← expandFrom r index fuel (chain ++ [d.input]) base
          let descriptor ← if transform.dark then darken e.descriptor d.kind else .ok e.descriptor
          .ok ⟨{ descriptor with out := d.out }, e.animations && !transform.still⟩

/-- What a descriptor renders. -/
def expand (r : Registry) (index : OutputIndex) (d : Descriptor) : Except Fault Expansion :=
  expandFrom r index (r.length + 2) [] d

end Project
end Frontispiece
