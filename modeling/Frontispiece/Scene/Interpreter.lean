import Frontispiece.Scene.Chain
import Frontispiece.Scene.Draw

/-!
# Drawing a scene

A `Scene` maps names to entries in order.  An entry with methods calls them on the root of the
drawing; a scalar entry is an attribute of the root.  A call gives its arguments under its own
name, and the other fields of its value are calls on the node it answers with.

* `Studio` provides the drawings that scenes import, in a monad of its own choice.
* `draw` makes the document of a scene, `render` its written form.
-/

set_option autoImplicit false

namespace Frontispiece

/-- Named entries in order. -/
structure Scene where
  entries : Fields Json

namespace Scene

open Drawing (Document NodeId Settings)

/-- Where a scene gets the drawings it imports. -/
structure Studio (m : Type → Type) (ε : Type) where
  /-- The markup of the drawing of a name; the chain ends with that name. -/
  drawing : String → ImportChain → m (Except ε String)
  /-- Hears of each import, with the name and the node it went into. -/
  imported : String → String → m Unit

/-- What a scene is drawn with. -/
structure Easel (m : Type → Type) (ε : Type) where
  settings : Settings
  studio : Option (Studio m ε)
  chain : ImportChain

/-- Whether a node takes a method. -/
def accepts (doc : Document) (target : NodeId) (method : Method) : Bool :=
  match method.target with
  | .container => doc.isContainer target
  | .text =>
    match doc.tag? target with
    | some tag => ["text", "tspan", "textPath"].contains tag
    | none => false
  | .element => (doc.tag? target).isSome

/-- The arguments that a value lists. -/
def listed : Json → List Json
  | .array items => items
  | .null => []
  | value => [value]

/-- The arguments of a call: those under its own name, or else the value itself. -/
def arguments (name : String) (spec : Json) : List Json :=
  match spec with
  | .object fields =>
    match Fields.get? fields name with
    | some value => listed value
    | none => [spec]
  | spec => listed spec

/-- Whether the fields of a value are further calls. -/
def chains (name : String) : Json → Bool
  | .object fields => Fields.contains fields name
  | _ => false

variable {m : Type → Type} [Monad m] {ε : Type}

/-- A fault of a scene as its failure. -/
def liftFault {α : Type} : Except Fault α → ExceptT (Error ε) m α
  | .ok a => pure a
  | .error fault => throw (.fault fault)

/-- Draws the contents of another drawing into a node. -/
def importInto (easel : Easel m ε) (doc : Document) (target : NodeId) (args : List Arg) :
    ExceptT (Error ε) m (Document × NodeId) := do
  let name ← liftFault <|
    match args.head?.bind Arg.text? with
    | some name => .ok name
    | none => .error (.invalidArguments "import" "expected a template name")
  let chain ← liftFault (easel.chain.enter name)
  match easel.studio with
  | none =>
    let node := doc.describe target ++ " (no importer configured)"
    throw (.fault (.unsupportedMethod "import" node))
  | some studio =>
    match ← studio.drawing name chain with
    | .error cause => throw (.importFailed name cause)
    | .ok markup =>
      match Markup.parseSvg markup.toList with
      | .error cause => throw (.fault (.markup cause))
      | .ok tree =>
        let doc := doc.graftAll target (Drawing.Branch.ofTrees tree.children)
        studio.imported name (doc.describe target)
        pure (doc, target)

/-- Carries out one method with its raw arguments. -/
def perform (easel : Easel m ε) (doc : Document) (target : NodeId) (name : String)
    (raw : List Json) : ExceptT (Error ε) m (Document × NodeId) := do
  match Method.ofName? name with
  | none => throw (.fault (.unknownMethod name (doc.describe target)))
  | some method =>
    if !accepts doc target method then
      throw (.fault (.unsupportedMethod name (doc.describe target)))
    else
      match method.adapt raw with
      | .error fault => throw (.fault (.invalidArguments name fault.message))
      | .ok args =>
        if method.awaits then importInto easel doc target args
        else liftFault (apply doc target method args)

mutual

/-- A call on a node, and then the calls on the node it answers with. -/
def call (easel : Easel m ε) (target : NodeId) (name : String) (doc : Document) :
    Json → ExceptT (Error ε) m (Document × NodeId)
  | .object fields => do
    let spec := Json.object fields
    let (doc, result) ← perform easel doc target name (arguments name spec)
    let doc ← if chains name spec then callAll easel result (some name) doc fields else pure doc
    pure (doc, result)
  | spec => perform easel doc target name (arguments name spec)

/-- The calls of fields on a node in order, one name left out. -/
def callAll (easel : Easel m ε) (target : NodeId) (skip : Option String) (doc : Document) :
    List (String × Json) → ExceptT (Error ε) m Document
  | [] => pure doc
  | (name, spec) :: rest => do
    let doc ← if skip == some name then pure doc else (·.1) <$> call easel target name doc spec
    callAll easel target skip doc rest

end

/-- One entry of a scene. -/
def drawEntry (easel : Easel m ε) (doc : Document) (name : String) (value : Json) :
    ExceptT (Error ε) m Document :=
  match value with
  | .object calls => callAll easel Document.root none doc calls
  | .null => pure doc
  | .array _ => throw (.fault (.entry name))
  | value =>
    match scalarText? value with
    | some text => pure (doc.setAttr Document.root name text)
    | none => pure doc

/-- Entries of a scene in order. -/
def drawEntries (easel : Easel m ε) (doc : Document) :
    List (String × Json) → ExceptT (Error ε) m Document
  | [] => pure doc
  | (name, value) :: rest => do
    let doc ← drawEntry easel doc name value
    drawEntries easel doc rest

/-- The document of a scene. -/
def draw (easel : Easel m ε) (scene : Scene) : ExceptT (Error ε) m Document :=
  drawEntries easel (Document.ofSettings easel.settings) scene.entries

/-- The written form of a scene, with or without its animations. -/
def render (easel : Easel m ε) (animations : Bool) (scene : Scene) :
    ExceptT (Error ε) m String := do
  let doc ← draw easel scene
  let doc := if animations then doc else doc.withoutAnimations
  pure (doc.render easel.settings.pretty)

end Scene
end Frontispiece
