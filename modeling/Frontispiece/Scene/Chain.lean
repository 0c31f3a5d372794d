import Frontispiece.Scene.Fault

/-!
# Import chains

While a scene is drawn, the names of the templates whose drawing led to it form a chain, outermost
first.  `ImportChain.enter` puts a further name at its end, unless the name is on it already: then
the templates import each other in a circle.
-/

set_option autoImplicit false

namespace Frontispiece
namespace Scene

/-- The templates being drawn, outermost first. -/
structure ImportChain where
  names : List String
  deriving DecidableEq, Repr

namespace ImportChain

/-- The chain of no template. -/
def empty : ImportChain := ⟨[]⟩

/-- The chain that starts at a template. -/
def startingAt (name : String) : ImportChain := ⟨[name]⟩

/-- Whether a template is on the chain. -/
def contains (chain : ImportChain) (name : String) : Bool :=
  chain.names.contains name

/-- The chain with one more template, which must be new. -/
def enter (chain : ImportChain) (name : String) : Except Fault ImportChain :=
  let names := chain.names ++ [name]
  if chain.contains name then .error (.importCycle names) else .ok ⟨names⟩

end ImportChain
end Scene
end Frontispiece
