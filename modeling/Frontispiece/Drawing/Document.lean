import Frontispiece.Decimal.Text
import Frontispiece.Markup.Tree
import Frontispiece.Text.Blank

/-!
# Drawing documents

A `Document` holds the nodes of a drawing under numbers in the order of their making; the root is
node `0`.  A node knows its parent and its children.  Nodes that are cut off keep their numbers
and stay out of the written form.

* `appendElement`, `prependElement`, `appendText` and `graft` make nodes;
* `setAttr`, `removeAttr`, `clear` and `detach` change them;
* `branch` reads a node with everything below it, `tree` its markup, and `descendants` lists what is
  below it, in the order in which `render` writes it.

Walks over a document take the number of its nodes as fuel, which no path from parent to child
exceeds.
-/

set_option autoImplicit false

namespace Frontispiece
namespace Drawing

open Markup (Tree)

/-- The number of a node. -/
abbrev NodeId : Type := Nat

/-- What a node is. -/
inductive NodeKind where
  | element (tag : String) (attrs : Fields String)
  | text (content : String)

/-- A node with its place in the document. -/
structure Node where
  kind : NodeKind
  parent : Option NodeId
  children : List NodeId

/-- A node with everything below it, apart from its document.  Nodes may stand below a text, but
have no place in its markup. -/
inductive Branch where
  | mk (kind : NodeKind) (children : List Branch)

mutual

/-- The markup of a branch. -/
def Branch.tree : Branch → Tree
  | ⟨.element tag attrs, children⟩ => .element tag attrs (Branch.trees children)
  | ⟨.text content, _⟩ => .text content

/-- The markup of branches. -/
def Branch.trees : List Branch → List Tree
  | [] => []
  | child :: rest => child.tree :: Branch.trees rest

end

mutual

/-- The branch of a piece of markup. -/
def Branch.ofTree : Tree → Branch
  | .element tag attrs children => ⟨.element tag attrs, Branch.ofTrees children⟩
  | .text content => ⟨.text content, []⟩

/-- The branches of pieces of markup. -/
def Branch.ofTrees : List Tree → List Branch
  | [] => []
  | child :: rest => Branch.ofTree child :: Branch.ofTrees rest

end

/-- The settings of a drawing's root. -/
structure Settings where
  width : Float := 1600
  height : Float := 900
  viewBox : String := "0 0 1600 800"
  aspect : String := "xMinYMin none"
  pretty : Bool := false

/-- A drawing. -/
structure Document where
  nodes : Array Node

namespace Document

/-- A document with a root element and nothing else. -/
def withRoot (tag : String) : Document where
  nodes := #[⟨.element tag [], none, []⟩]

/-- The root. -/
def root : NodeId := 0

/-- What a node is. -/
def kind? (doc : Document) (id : NodeId) : Option NodeKind :=
  doc.nodes[id]?.map Node.kind

/-- The parent of a node that has one. -/
def parent? (doc : Document) (id : NodeId) : Option NodeId :=
  doc.nodes[id]?.bind Node.parent

/-- The children of a node in order. -/
def children (doc : Document) (id : NodeId) : List NodeId :=
  match doc.nodes[id]? with
  | some node => node.children
  | none => []

/-- The tag of an element. -/
def tag? (doc : Document) (id : NodeId) : Option String :=
  match doc.kind? id with
  | some (.element tag _) => some tag
  | _ => none

/-- The attributes of an element. -/
def attrs (doc : Document) (id : NodeId) : Fields String :=
  match doc.kind? id with
  | some (.element _ attrs) => attrs
  | _ => []

/-- An attribute of an element. -/
def attr? (doc : Document) (id : NodeId) (name : String) : Option String :=
  (doc.attrs id).get? name

/-- The tags of the elements that hold drawings. -/
def containerTags : List String :=
  ["svg", "g", "defs", "a", "symbol", "marker", "pattern", "clipPath", "mask", "switch"]

/-- The tags of the elements that animate others. -/
def animationTags : List String :=
  ["animate", "animateTransform", "animateMotion", "set"]

/-- Whether a node is an element that holds drawings. -/
def isContainer (doc : Document) (id : NodeId) : Bool :=
  (doc.tag? id).any containerTags.contains

/-- An attribute that holds a number, blanks around it aside. -/
def number? (doc : Document) (id : NodeId) (name : String) : Option Float :=
  (doc.attr? id name).bind fun value => Decimal.read? (Text.trim value.toList)

/-- A node changed in its place. -/
def modifyNode (doc : Document) (id : NodeId) (f : Node → Node) : Document where
  nodes := doc.nodes.modify id f

/-- The attributes of an element changed; a text stays as it is. -/
def modifyAttrs (doc : Document) (id : NodeId) (f : Fields String → Fields String) : Document :=
  doc.modifyNode id fun node =>
    match node.kind with
    | .element tag attrs => { node with kind := .element tag (f attrs) }
    | .text _ => node

/-- An attribute set. -/
def setAttr (doc : Document) (id : NodeId) (name value : String) : Document :=
  doc.modifyAttrs id (Fields.insert name value)

/-- An attribute taken away. -/
def removeAttr (doc : Document) (id : NodeId) (name : String) : Document :=
  doc.modifyAttrs id fun attrs => attrs.erase name

/-- A new node as the last child of `parent`. -/
def pushNode (doc : Document) (parent : NodeId) (kind : NodeKind) : Document × NodeId :=
  let id := doc.nodes.size
  let doc : Document := ⟨doc.nodes.push ⟨kind, some parent, []⟩⟩
  (doc.modifyNode parent fun node => { node with children := node.children ++ [id] }, id)

/-- A new element as the last child of `parent`. -/
def appendElement (doc : Document) (parent : NodeId) (tag : String) : Document × NodeId :=
  doc.pushNode parent (.element tag [])

/-- A new element as the first child of `parent`. -/
def prependElement (doc : Document) (parent : NodeId) (tag : String) : Document × NodeId :=
  let (doc, id) := doc.appendElement parent tag
  (doc.modifyNode parent fun node => { node with children := id :: node.children.dropLast }, id)

/-- A new text as the last child of `parent`. -/
def appendText (doc : Document) (parent : NodeId) (content : String) : Document × NodeId :=
  doc.pushNode parent (.text content)

/-- The node without its children, which stay as they are. -/
def clear (doc : Document) (id : NodeId) : Document :=
  doc.modifyNode id fun node => { node with children := [] }

/-- The node cut off from its parent. -/
def detach (doc : Document) (id : NodeId) : Document :=
  match doc.parent? id with
  | none => doc
  | some parent =>
    (doc.modifyNode id fun node => { node with parent := none }).modifyNode parent fun node =>
      { node with children := node.children.filter (· != id) }

/-- The texts directly below a node, one after the other. -/
def textContent (doc : Document) (id : NodeId) : String :=
  "".intercalate <| (doc.children id).filterMap fun child =>
    match doc.kind? child with
    | some (.text content) => some content
    | _ => none

/-- A node with everything below it, no deeper than the fuel. -/
def branchWithin (doc : Document) : Nat → NodeId → Branch
  | 0, _ => ⟨.text "", []⟩
  | fuel + 1, id =>
    ⟨(doc.kind? id).getD (.text ""), (doc.children id).map (doc.branchWithin fuel)⟩

/-- A node with everything below it. -/
def branch (doc : Document) (id : NodeId) : Branch :=
  doc.branchWithin doc.nodes.size id

/-- The markup of a node. -/
def tree (doc : Document) (id : NodeId) : Tree :=
  (doc.branch id).tree

mutual

/-- A copy of a branch as the last child of `parent`; a node is made before those below it. -/
def graft (doc : Document) (parent : NodeId) : Branch → Document × NodeId
  | ⟨kind, children⟩ =>
    let (doc, id) := doc.pushNode parent kind
    (graftAll doc id children, id)

/-- Copies of branches as the last children of `parent`. -/
def graftAll (doc : Document) (parent : NodeId) : List Branch → Document
  | [] => doc
  | child :: rest => graftAll (graft doc parent child).1 parent rest

end

/-- A document that holds a tree. -/
def ofTree (tree : Tree) : Document :=
  match Branch.ofTree tree with
  | ⟨kind, children⟩ => graftAll ⟨#[⟨kind, none, []⟩]⟩ root children

/-- The nodes below a node in written order, no deeper than the fuel. -/
def descendantsWithin (doc : Document) : Nat → NodeId → List NodeId
  | 0, _ => []
  | fuel + 1, id => (doc.children id).flatMap fun child => child :: doc.descendantsWithin fuel child

/-- The nodes below a node in written order. -/
def descendants (doc : Document) (id : NodeId) : List NodeId :=
  doc.descendantsWithin doc.nodes.size id

/-- A node in messages: the start tag of an element with its `id`, if it has one. -/
def describe (doc : Document) (id : NodeId) : String :=
  match doc.kind? id with
  | some (.element tag attrs) =>
    match attrs.get? "id" with
    | some name => "<" ++ tag ++ " id=\"" ++ name ++ "\">"
    | none => "<" ++ tag ++ ">"
  | _ => "#text"

/-- The written form of a document. -/
def render (doc : Document) (pretty : Bool) : String :=
  (doc.tree root).render pretty

/-- An empty drawing with the root that the settings ask for. -/
def ofSettings (settings : Settings) : Document :=
  [("xmlns", "http://www.w3.org/2000/svg"), ("version", "1.1"),
    ("xmlns:xlink", "http://www.w3.org/1999/xlink"), ("preserveAspectRatio", settings.aspect),
    ("viewBox", settings.viewBox), ("width", Decimal.coordinate settings.width),
    ("height", Decimal.coordinate settings.height)].foldl
    (fun doc (name, value) => doc.setAttr root name value) (withRoot "svg")

/-- The style that switches animations and transitions off. -/
def stillStyle : String :=
  "*\x7banimation:none!important;transition:none!important\x7d"

/-- The document without animation elements, and with a last child of the root that switches off
animations in styles. -/
def withoutAnimations (doc : Document) : Document :=
  let animated := (doc.descendants root).filter fun id =>
    (doc.tag? id).any animationTags.contains
  let doc := animated.foldl detach doc
  let (doc, style) := doc.appendElement root "style"
  (doc.appendText style stillStyle).1

end Document
end Drawing
end Frontispiece
