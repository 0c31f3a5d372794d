import Frontispiece.Decimal.Text
import Frontispiece.Json.Printer
import Frontispiece.Text.Blank

/-!
# Drawing methods and their arguments

A scene names the operations on a drawing by the names of this table.  Each method says on which
nodes it may be called (`Method.target`) and which arguments it takes (`Method.schema`), so that
the values of a scene are checked before anything is drawn.

* `Method.ofName?` finds the method of a name, `Method.adapt` checks and converts arguments.
* `pointsText?` writes a list of points; it takes a list of pairs and a flat list of coordinates.
-/

set_option autoImplicit false

namespace Frontispiece
namespace Scene

/-- A drawing method. -/
inductive Method where
  | rect | circle | ellipse | line | polyline | polygon | path | image | text | group | nested
  | defs | symbol | use | link | style | element | importDrawing
  | plain | tspan
  | attr | id | addClass | css | opacity | fill | stroke | move | x | y | cx | cy | center | size
  | width | height | radius | font | plot | transform | rotate | translate | scale | clear
  deriving DecidableEq, Repr

/-- The nodes that a method may be called on. -/
inductive Target where
  /-- Elements that hold drawings. -/
  | container
  /-- Elements that hold text. -/
  | text
  /-- Every element. -/
  | element
  deriving DecidableEq, Repr

/-- The shape of one argument. -/
inductive ArgKind where
  /-- A number, or a string such as `50%`. -/
  | length
  /-- A string, number or boolean. -/
  | text
  /-- As `text`, or a map. -/
  | textOrMap
  /-- A map. -/
  | map
  /-- Points: a string, a list of pairs or a flat list. -/
  | points
  deriving DecidableEq, Repr

/-- The name of a shape in messages. -/
def ArgKind.name : ArgKind → String
  | .length => "Length"
  | .text => "Text"
  | .textOrMap => "TextOrMap"
  | .map => "Map"
  | .points => "Points"

/-- The arguments that a method needs, and those it takes after them. -/
structure Schema where
  required : List ArgKind
  optional : List ArgKind

/-- An argument after adaptation. -/
inductive Arg where
  | length (text : String)
  | text (text : String)
  | map (fields : Fields Json)
  | points (text : String)

namespace Method

/-- Every method. -/
def all : List Method :=
  [.rect, .circle, .ellipse, .line, .polyline, .polygon, .path, .image, .text, .group, .nested,
    .defs, .symbol, .use, .link, .style, .element, .importDrawing, .plain, .tspan, .attr, .id,
    .addClass, .css, .opacity, .fill, .stroke, .move, .x, .y, .cx, .cy, .center, .size, .width,
    .height, .radius, .font, .plot, .transform, .rotate, .translate, .scale, .clear]

/-- The name of a method in scenes. -/
def name : Method → String
  | .rect => "rect"
  | .circle => "circle"
  | .ellipse => "ellipse"
  | .line => "line"
  | .polyline => "polyline"
  | .polygon => "polygon"
  | .path => "path"
  | .image => "image"
  | .text => "text"
  | .group => "group"
  | .nested => "nested"
  | .defs => "defs"
  | .symbol => "symbol"
  | .use => "use"
  | .link => "link"
  | .style => "style"
  | .element => "element"
  | .importDrawing => "import"
  | .plain => "plain"
  | .tspan => "tspan"
  | .attr => "attr"
  | .id => "id"
  | .addClass => "addClass"
  | .css => "css"
  | .opacity => "opacity"
  | .fill => "fill"
  | .stroke => "stroke"
  | .move => "move"
  | .x => "x"
  | .y => "y"
  | .cx => "cx"
  | .cy => "cy"
  | .center => "center"
  | .size => "size"
  | .width => "width"
  | .height => "height"
  | .radius => "radius"
  | .font => "font"
  | .plot => "plot"
  | .transform => "transform"
  | .rotate => "rotate"
  | .translate => "translate"
  | .scale => "scale"
  | .clear => "clear"

/-- The method of a name. -/
def ofName? (name : String) : Option Method :=
  all.find? fun method => method.name == name

/-- Where a method may be called: methods that draw need a container, the two that write text an
element for text, and the others any element. -/
def target : Method → Target
  | .rect | .circle | .ellipse | .line | .polyline | .polygon | .path | .image | .text | .group
  | .nested | .defs | .symbol | .use | .link | .style | .element | .importDrawing => .container
  | .plain | .tspan => .text
  | _ => .element

/-- Whether a method waits for another drawing. -/
def awaits (method : Method) : Bool :=
  method == .importDrawing

/-- The arguments of a method. -/
def schema : Method → Schema
  | .rect | .ellipse => ⟨[], [.length, .length]⟩
  | .circle => ⟨[], [.length]⟩
  | .line => ⟨[], [.length, .length, .length, .length]⟩
  | .polyline | .polygon => ⟨[], [.points]⟩
  | .path | .plot | .text | .plain | .tspan => ⟨[], [.text]⟩
  | .image => ⟨[.text], [.length, .length]⟩
  | .group | .nested | .defs | .symbol | .clear => ⟨[], []⟩
  | .use | .link | .importDrawing | .id | .addClass | .style => ⟨[.text], []⟩
  | .element => ⟨[.text], [.map]⟩
  | .attr | .css | .font => ⟨[.textOrMap], [.text]⟩
  | .opacity | .x | .y | .cx | .cy | .width | .height => ⟨[.length], []⟩
  | .fill | .stroke => ⟨[.textOrMap], []⟩
  | .move | .center | .translate => ⟨[.length, .length], []⟩
  | .size | .radius | .scale => ⟨[.length], [.length]⟩
  | .transform => ⟨[.map], []⟩
  | .rotate => ⟨[.length], [.length, .length]⟩

end Method

/-- The text of a string, number or boolean; numbers are written as coordinates. -/
def scalarText? : Json → Option String
  | .string s => some s
  | .number n => some (Decimal.coordinate n.toFloat)
  | .bool true => some "true"
  | .bool false => some "false"
  | _ => none

/-- One point. -/
def pointText? (x y : Json) : Option String := do
  let x ← x.float?
  let y ← y.float?
  some (Decimal.coordinate x ++ "," ++ Decimal.coordinate y)

/-- Points given as arrays of two coordinates. -/
def pairTexts? : List Json → Option (List String)
  | [] => some []
  | .array [x, y] :: rest => do
    let point ← pointText? x y
    let points ← pairTexts? rest
    some (point :: points)
  | _ :: _ => none

/-- Points given as coordinates one after the other. -/
def flatTexts? : List Json → Option (List String)
  | [] => some []
  | [_] => none
  | x :: y :: rest => do
    let point ← pointText? x y
    let points ← flatTexts? rest
    some (point :: points)

/-- The text of a list of points.  A list that holds only arrays is read as pairs. -/
def pointsText? : Json → Option String
  | .string s => some s
  | .array items =>
    if items.all Json.isArray then (pairTexts? items).map (" ".intercalate ·)
    else if items.length % 2 = 0 then (flatTexts? items).map (" ".intercalate ·)
    else none
  | _ => none

/-- A value as an argument of a shape. -/
def adaptArg? (kind : ArgKind) (value : Json) : Option Arg :=
  match kind, value with
  | .length, .number n => some (.length (Decimal.coordinate n.toFloat))
  | .length, .string s => some (.length s)
  | .length, _ => none
  | .text, value => (scalarText? value).map .text
  | .textOrMap, .object fields => some (.map fields)
  | .textOrMap, value => (scalarText? value).map .text
  | .map, .object fields => some (.map fields)
  | .map, _ => none
  | .points, value => (pointsText? value).map .points

/-- Why arguments do not fit a method. -/
inductive ArgFault where
  /-- Too few or too many. -/
  | count (schema : Schema) (got : Nat)
  /-- The argument at a position, counted from one, has another shape. -/
  | shape (position : Nat) (expected : ArgKind) (got : Json)

/-- The text of a fault. -/
def ArgFault.message : ArgFault → String
  | .count schema got =>
    let least := schema.required.length
    if schema.optional.isEmpty then
      "expected " ++ toString least ++ " argument(s), got " ++ toString got
    else
      "expected " ++ toString least ++ " to " ++ toString (least + schema.optional.length)
        ++ " argument(s), got " ++ toString got
  | .shape position expected got =>
    "argument " ++ toString position ++ " should be " ++ expected.name ++ ", got " ++ got.render

/-- The values as arguments of the shapes, from a position on. -/
def adaptFrom (position : Nat) : List ArgKind → List Json → Except ArgFault (List Arg)
  | kind :: kinds, value :: values =>
    match adaptArg? kind value with
    | some arg => (adaptFrom (position + 1) kinds values).map (arg :: ·)
    | none => .error (.shape position kind value)
  | _, _ => .ok []

/-- The arguments of a method from the values that a scene gives. -/
def Method.adapt (method : Method) (values : List Json) : Except ArgFault (List Arg) :=
  let schema := method.schema
  let least := schema.required.length
  if values.length < least || least + schema.optional.length < values.length then
    .error (.count schema values.length)
  else adaptFrom 1 (schema.required ++ schema.optional) values

/-- The number that an argument holds, blanks around it aside. -/
def Arg.number? : Arg → Option Float
  | .length s | .text s => Decimal.read? (Text.trim s.toList)
  | _ => none

/-- The text of an argument that is no map. -/
def Arg.text? : Arg → Option String
  | .length s | .text s | .points s => some s
  | .map _ => none

end Scene
end Frontispiece
