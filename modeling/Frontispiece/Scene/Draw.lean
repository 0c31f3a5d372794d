import Frontispiece.Drawing.Document
import Frontispiece.Drawing.Lists
import Frontispiece.Scene.Fault
import Frontispiece.Text.Quoted

/-!
# What the drawing methods do

`apply` carries out a method on a node of a document and answers with the node that further calls
go to: the new node for methods that draw, the same node for methods that change it.

The geometry of an element is reached along an axis.  Circles and ellipses have a centre and radii,
lines two ends, and everything else an edge and a size; `position` and `resize` turn a wanted
edge, centre or size into the attributes that the element has.
-/

set_option autoImplicit false

namespace Frontispiece
namespace Scene

open Drawing (Document NodeId)

/-- An axis of a drawing. -/
inductive Axis where
  | horizontal
  | vertical

/-- The part of an element that is put at a place. -/
inductive Anchor where
  | edge
  | center

namespace Axis

/-- The attribute with the edge of an element. -/
def edge : Axis → String
  | .horizontal => "x"
  | .vertical => "y"

/-- The attribute with the centre of a circle or ellipse. -/
def center : Axis → String
  | .horizontal => "cx"
  | .vertical => "cy"

/-- The attribute with the size of an element. -/
def size : Axis → String
  | .horizontal => "width"
  | .vertical => "height"

/-- The attribute with the radius of an ellipse. -/
def radius : Axis → String
  | .horizontal => "rx"
  | .vertical => "ry"

/-- The attribute with the first end of a line. -/
def first : Axis → String
  | .horizontal => "x1"
  | .vertical => "y1"

/-- The attribute with the second end of a line. -/
def second : Axis → String
  | .horizontal => "x2"
  | .vertical => "y2"

end Axis

/-- An argument as messages show it. -/
def Arg.shown : Arg → String
  | .length s => "Length(" ++ Text.quoted s ++ ")"
  | .text s => "Text(" ++ Text.quoted s ++ ")"
  | .points s => "Points(" ++ Text.quoted s ++ ")"
  | .map fields => "Map(" ++ (Json.object fields).render ++ ")"

/-- Arguments of a method that do not fit. -/
def invalid {α : Type} (method : Method) (message : String) : Except Fault α :=
  .error (.invalidArguments method.name message)

/-- The number of an argument. -/
def numberArg (method : Method) (arg : Arg) : Except Fault Float :=
  match arg.number? with
  | some x => .ok x
  | none => invalid method ("expected a number, got " ++ arg.shown)

/-- The text of an argument that must be there. -/
def textArg (method : Method) (arg : Option Arg) : Except Fault String :=
  match arg.bind Arg.text? with
  | some s => .ok s
  | none => invalid method "expected a string argument"

/-- A number written to an attribute. -/
def setNumber (doc : Document) (id : NodeId) (attr : String) (x : Float) : Document :=
  doc.setAttr id attr (Decimal.coordinate x)

/-- An argument written to an attribute; a map as its text. -/
def setArg (doc : Document) (id : NodeId) (attr : String) : Arg → Document
  | .map fields => doc.setAttr id attr (Json.object fields).render
  | .length s | .text s | .points s => doc.setAttr id attr s

/-- An argument written to an attribute if it is there. -/
def setOpt (doc : Document) (id : NodeId) (attr : String) : Option Arg → Document
  | some arg => setArg doc id attr arg
  | none => doc

/-- Each field of a map written to the attribute that `rename` names; null takes it away. -/
def setMap (rename : String → String) (id : NodeId) (doc : Document) (fields : Fields Json) :
    Document :=
  fields.foldl
    (fun doc (key, value) =>
      match value with
      | .null => doc.removeAttr id (rename key)
      | value => doc.setAttr id (rename key) ((scalarText? value).getD value.render))
    doc

/-- The attribute of a property of a font. -/
def fontAttr (key : String) : String :=
  if ["family", "size", "weight", "style", "variant", "stretch"].contains key then "font-" ++ key
  else if key == "anchor" then "text-anchor"
  else key

/-- The attribute of a property of a fill or stroke. -/
def paintAttr (paint key : String) : String :=
  if key == "color" then paint else paint ++ "-" ++ key

/-- The smaller of two numbers, or the one that is a number. -/
def lesser (x y : Float) : Float :=
  if x.isNaN then y else if y.isNaN then x else if x < y then x else y

/-- An element put with its edge or centre at a place on an axis. -/
def position (doc : Document) (id : NodeId) (axis : Axis) (anchor : Anchor) (method : Method)
    (arg : Arg) : Except Fault Document :=
  let read (attr : String) : Float := (doc.number? id attr).getD 0
  let tag := doc.tag? id
  if tag == some "circle" || tag == some "ellipse" then do
    let radius := read (if tag == some "circle" then "r" else axis.radius)
    let value ← numberArg method arg
    .ok <| setNumber doc id axis.center <|
      match anchor with
      | .edge => value + radius
      | .center => value
  else if tag == some "line" then do
    let value ← numberArg method arg
    let first := read axis.first
    let second := read axis.second
    let shift :=
      match anchor with
      | .edge => value - lesser first second
      | .center => value - (first + second) / 2
    .ok (setNumber (setNumber doc id axis.first (first + shift)) id axis.second (second + shift))
  else
    match anchor with
    | .edge => .ok (setArg doc id axis.edge arg)
    | .center => do
      let value ← numberArg method arg
      .ok (setNumber doc id axis.edge (value - read axis.size / 2))

/-- An element given a size along an axis. -/
def resize (doc : Document) (id : NodeId) (axis : Axis) (method : Method) (arg : Arg) :
    Except Fault Document :=
  let tag := doc.tag? id
  if tag == some "circle" then do
    let value ← numberArg method arg
    .ok (setNumber doc id "r" (value / 2))
  else if tag == some "ellipse" then do
    let value ← numberArg method arg
    .ok (setNumber doc id axis.radius (value / 2))
  else .ok (setArg doc id axis.size arg)

/-- The numbers of one transformation: a number, or an array of numbers. -/
def transformValues (method : Method) (key : String) (value : Json) :
    Except Fault (List String) :=
  let items :=
    match value with
    | .array items => items
    | value => [value]
  items.mapM fun item =>
    match item.float? with
    | some x => .ok (Decimal.coordinate x)
    | none => invalid method ("'" ++ key ++ "' expects numbers, got " ++ item.render)

/-- One transformation as it is written. -/
def transformPart (method : Method) (key : String) (value : Json) : Except Fault String := do
  let values ← transformValues method key value
  let values := " ".intercalate values
  if ["rotate", "translate", "scale", "skewX", "skewY", "matrix"].contains key then
    .ok (key ++ "(" ++ values ++ ")")
  else if key == "translateX" then .ok ("translate(" ++ values ++ " 0)")
  else if key == "translateY" then .ok ("translate(0 " ++ values ++ ")")
  else if key == "scaleX" then .ok ("scale(" ++ values ++ " 1)")
  else if key == "scaleY" then .ok ("scale(1 " ++ values ++ ")")
  else invalid method ("unknown transform '" ++ key ++ "'")

/-- A transformation added after those that an element has. -/
def addTransform (doc : Document) (id : NodeId) (function : String) : Document :=
  let transform :=
    match doc.attr? id "transform" with
    | some present => if present.isEmpty then function else present ++ " " ++ function
    | none => function
  doc.setAttr id "transform" transform

/-- The `defs` element of the root, made in front of the other children when there is none. -/
def defs (doc : Document) : Document × NodeId :=
  match (doc.children Document.root).find? fun child => doc.tag? child == some "defs" with
  | some id => (doc, id)
  | none => doc.prependElement Document.root "defs"

/-- A line of a text of several lines; all but the first start a little lower. -/
def writeLine (id : NodeId) (doc : Document) (index : Nat) (line : String) : Document :=
  let (doc, tspan) := doc.appendElement id "tspan"
  let doc := doc.setAttr tspan "x" "0"
  let doc := if index = 0 then doc else doc.setAttr tspan "dy" "1.3em"
  (doc.appendText tspan line).1

/-- A text written into an element, several lines each in an element of their own. -/
def writeText (doc : Document) (id : NodeId) (content : String) : Document :=
  match Text.splitOn (· == '\n') content.toList with
  | [_] => (doc.appendText id content).1
  | lines =>
    lines.zipIdx.foldl (fun doc (line, index) => writeLine id doc index (String.ofList line)) doc

/-- A text written into an element if it is there. -/
def writeOpt (doc : Document) (id : NodeId) (arg : Option Arg) : Document :=
  match arg.bind Arg.text? with
  | some content => (doc.appendText id content).1
  | none => doc

/-- The style of an element with declarations changed. -/
def restyle (doc : Document) (id : NodeId) (change : Fields String → Fields String) : Document :=
  let style := Drawing.readStyle ((doc.attr? id "style").getD "")
  doc.setAttr id "style" (Drawing.writeStyle (change style))

/-- The declarations of a map put into a style; a value that is no scalar takes its property
away. -/
def declareAll (rules : Fields Json) (style : Fields String) : Fields String :=
  rules.foldl
    (fun style (property, value) =>
      match scalarText? value with
      | some value => style.insert property value
      | none => style.erase property)
    style

/-- Centre and radii of an ellipse of a size. -/
def shapeEllipse (method : Method) (doc : Document) (id : NodeId) (args : List Arg) :
    Except Fault Document :=
  match args with
  | [] => .ok doc
  | width :: more => do
    let rx := (← numberArg method width) / 2
    let ry ←
      match more with
      | height :: _ => (· / 2) <$> numberArg method height
      | [] => .ok rx
    .ok <| [("rx", rx), ("ry", ry), ("cx", rx), ("cy", ry)].foldl
      (fun doc (attr, x) => setNumber doc id attr x) doc

/-- Carries out a method other than an import on a node, with adapted arguments. -/
def apply (doc : Document) (target : NodeId) (method : Method) (args : List Arg) :
    Except Fault (Document × NodeId) :=
  let add (tag : String) : Document × NodeId := doc.appendElement target tag
  let same (doc : Document) : Document × NodeId := (doc, target)
  let missing {α : Type} : Except Fault α := invalid method "missing argument"
  match method with
  | .rect =>
    let (doc, id) := add "rect"
    .ok (setOpt (setOpt doc id "width" args.head?) id "height" (args.drop 1).head?, id)
  | .circle => do
    let (doc, id) := add "circle"
    match args with
    | [] => .ok (doc, id)
    | diameter :: _ => do
      let r := (← numberArg method diameter) / 2
      .ok (["r", "cx", "cy"].foldl (fun doc attr => setNumber doc id attr r) doc, id)
  | .ellipse => do
    let (doc, id) := add "ellipse"
    let doc ← shapeEllipse method doc id args
    .ok (doc, id)
  | .line =>
    let (doc, id) := add "line"
    .ok ((["x1", "y1", "x2", "y2"].zip args).foldl
      (fun doc (attr, arg) => setArg doc id attr arg) doc, id)
  | .polyline | .polygon =>
    let (doc, id) := add method.name
    .ok (setOpt doc id "points" args.head?, id)
  | .path =>
    let (doc, id) := add "path"
    .ok (setOpt doc id "d" args.head?, id)
  | .image =>
    let (doc, id) := add "image"
    let doc := setOpt doc id "href" args.head?
    let doc := setOpt doc id "width" (args.drop 1).head?
    .ok (setOpt doc id "height" (args.drop 2).head?, id)
  | .text =>
    let (doc, id) := add "text"
    match args.head?.bind Arg.text? with
    | some content => .ok (writeText doc id content, id)
    | none => .ok (doc, id)
  | .group => .ok (add "g")
  | .nested => .ok (add "svg")
  | .defs => .ok (defs doc)
  | .symbol =>
    let (doc, id) := defs doc
    .ok (doc.appendElement id "symbol")
  | .use => do
    let (doc, id) := add "use"
    let href ← textArg method args.head?
    .ok (doc.setAttr id "href" (if href.startsWith "#" then href else "#" ++ href), id)
  | .link => do
    let (doc, id) := add "a"
    let href ← textArg method args.head?
    .ok (doc.setAttr id "href" href, id)
  | .style => do
    let (doc, id) := add "style"
    let content ← textArg method args.head?
    .ok ((doc.appendText id content).1, id)
  | .element => do
    let tag ← textArg method args.head?
    let (doc, id) := add tag
    match (args.drop 1).head? with
    | some (.map attrs) => .ok (setMap (·) id doc attrs, id)
    | _ => .ok (doc, id)
  | .importDrawing => invalid method "import must be awaited"
  | .plain =>
    .ok (same (writeOpt (doc.clear target) target args.head?))
  | .tspan =>
    let (doc, id) := add "tspan"
    .ok (writeOpt doc id args.head?, id)
  | .attr =>
    match args with
    | .map attrs :: _ => .ok (same (setMap (·) target doc attrs))
    | attr :: more => do
      let attr ← textArg method (some attr)
      match more with
      | value :: _ => .ok (same (setArg doc target attr value))
      | [] => invalid method ("missing value for '" ++ attr ++ "'")
    | [] => invalid method "missing attribute"
  | .id => do
    let id ← textArg method args.head?
    .ok (same (doc.setAttr target "id" id))
  | .addClass => do
    let class_ ← textArg method args.head?
    .ok (same (doc.setAttr target "class" (Drawing.addClass (doc.attr? target "class") class_)))
  | .css =>
    match args with
    | .map rules :: _ => .ok (same (restyle doc target (declareAll rules)))
    | property :: more => do
      let property ← textArg method (some property)
      let value ← textArg method more.head?
      .ok (same (restyle doc target (Fields.insert property value)))
    | [] => .ok (same (restyle doc target id))
  | .opacity => .ok (same (setOpt doc target "opacity" args.head?))
  | .fill | .stroke =>
    match args.head? with
    | some (.map paint) => .ok (same (setMap (paintAttr method.name) target doc paint))
    | arg => .ok (same (setOpt doc target method.name arg))
  | .move =>
    match args with
    | x :: y :: _ => do
      let doc ← position doc target .horizontal .edge method x
      let doc ← position doc target .vertical .edge method y
      .ok (same doc)
    | _ => missing
  | .center =>
    match args with
    | x :: y :: _ => do
      let doc ← position doc target .horizontal .center method x
      let doc ← position doc target .vertical .center method y
      .ok (same doc)
    | _ => missing
  | .x =>
    match args with
    | x :: _ => same <$> position doc target .horizontal .edge method x
    | [] => missing
  | .y =>
    match args with
    | y :: _ => same <$> position doc target .vertical .edge method y
    | [] => missing
  | .cx =>
    match args with
    | x :: _ => same <$> position doc target .horizontal .center method x
    | [] => missing
  | .cy =>
    match args with
    | y :: _ => same <$> position doc target .vertical .center method y
    | [] => missing
  | .size =>
    match args with
    | width :: more => do
      let doc ← resize doc target .horizontal method width
      let doc ← resize doc target .vertical method (more.head?.getD width)
      .ok (same doc)
    | [] => missing
  | .width =>
    match args with
    | width :: _ => same <$> resize doc target .horizontal method width
    | [] => missing
  | .height =>
    match args with
    | height :: _ => same <$> resize doc target .vertical method height
    | [] => missing
  | .radius =>
    match args with
    | rx :: more =>
      if doc.tag? target == some "circle" then .ok (same (setArg doc target "r" rx))
      else
        .ok (same (setArg (setArg doc target "rx" rx) target "ry" (more.head?.getD rx)))
    | [] => missing
  | .font =>
    match args with
    | .map font :: _ => .ok (same (setMap fontAttr target doc font))
    | key :: more => do
      let key ← textArg method (some key)
      let value ← textArg method more.head?
      .ok (same (doc.setAttr target (fontAttr key) value))
    | [] => .ok (same doc)
  | .plot =>
    match doc.tag? target with
    | some "path" => .ok (same (setOpt doc target "d" args.head?))
    | some "polyline" => .ok (same (setOpt doc target "points" args.head?))
    | some "polygon" => .ok (same (setOpt doc target "points" args.head?))
    | _ => .error (.unsupportedMethod method.name (doc.describe target))
  | .transform =>
    match args with
    | .map parts :: _ => do
      let parts ← parts.mapM fun (key, value) => transformPart method key value
      .ok (same (doc.setAttr target "transform" (" ".intercalate parts)))
    | _ => .ok (same doc)
  | .rotate | .translate | .scale => do
    let values ← args.mapM fun arg => Decimal.coordinate <$> numberArg method arg
    .ok (same (addTransform doc target (method.name ++ "(" ++ " ".intercalate values ++ ")")))
  | .clear => .ok (same (doc.clear target))

end Scene
end Frontispiece
