import Frontispiece.Proofs.Drawing.Strict
import Frontispiece.Proofs.Scene.Draw

/-!
# Methods that ask for their nodes and arguments

What the methods do, with every access that the program makes without looking first: nodes by their
numbers, the first and the second argument by their places, and the two coordinates of a point.
`none` stands for an access out of range.  The schema of a method says how many arguments it gets,
and that is enough for all of them.

## What is here

* `Strict.adapt`, `Strict.apply` — adaptation of arguments, and the methods.
* `Method.adapt_length` — a method gets as many arguments as there were values, and no fewer than it
  needs.
* `Answers` — a computation misses nothing and has a given answer.  It composes.
* `each_eq`, `position_answers`, and the like — the parts that methods have in common.
* `apply_makes_answers`, `apply_changes_answers`, `apply_places_answers`, `apply_rebuilds_answers` —
  the families of methods: those that make an element, change attributes, put their target
  somewhere, or rebuild it.
* `Strict.adapt_answers`, `Strict.apply_answers` — nothing is missed, and the answers are the same.

Most accesses of the methods are to their target, which is there by hypothesis and stays there.  The
second kind is to arguments by their place.  The schema of a method has as many places as the method
uses, and adaptation refuses calls with fewer values; so this has to be checked method by method,
but each check is a comparison of two small numbers.

The lemmas for the parts of methods are equations where a part always succeeds, and say what it
answers otherwise.  A method of which an access changes is gone through again in the lemma of its
family, and the others are left as they are.
-/

set_option autoImplicit false

namespace Frontispiece
namespace Scene

open Drawing (Document NodeId)

namespace Strict

open Drawing.Strict

/-! ## Arguments

Values are turned into arguments place by place, as the schema of the method says.  The coordinates
of points are taken two by two, which fails to find the second one if their number is odd. -/

/-- Values two by two; the last one stands alone when their number is odd. -/
def chunks : List Json → List (List Json)
  | [] => []
  | [x] => [[x]]
  | x :: y :: rest => [x, y] :: chunks rest

/-- The text of a point, if its coordinates are numbers. -/
def pointText (pair : List Json) : Option (Option String) := do
  let x ← pair[0]?
  match x.float? with
  | none => some none
  | some x => do
    let y ← pair[1]?
    some (y.float?.map fun y => Decimal.coordinate x ++ "," ++ Decimal.coordinate y)

/-- The texts of points, up to the first that is none. -/
def pointTexts : List (List Json) → Option (Option (List String))
  | [] => some (some [])
  | pair :: rest => do
    match ← pointText pair with
    | none => some none
    | some point => do
      let points ← pointTexts rest
      some (points.map (point :: ·))

/-- The text of a list of points. -/
def pointsText : Json → Option (Option String)
  | .string s => some (some s)
  | .array items =>
    if items.all Json.isArray then some ((pairTexts? items).map (" ".intercalate ·))
    else if items.length % 2 = 0 then do
      let points ← pointTexts (chunks items)
      some (points.map (" ".intercalate ·))
    else some none
  | _ => some none

/-- A value as an argument of a shape. -/
def adaptArg (kind : ArgKind) (value : Json) : Option (Option Arg) :=
  if kind = .points then (pointsText value).map (Option.map .points)
  else some (adaptArg? kind value)

/-- The values as arguments of the shapes, from a position on. -/
def adaptFrom (position : Nat) : List ArgKind → List Json → ExceptT ArgFault Option (List Arg)
  | kind :: kinds, value :: values => do
    match ← (adaptArg kind value : Option (Option Arg)) with
    | some arg => (arg :: ·) <$> adaptFrom (position + 1) kinds values
    | none => throw (.shape position kind value)
  | _, _ => pure []

/-- The arguments of a method from the values that a scene gives. -/
def adapt (method : Method) (values : List Json) : ExceptT ArgFault Option (List Arg) :=
  let schema := method.schema
  let least := schema.required.length
  if values.length < least || least + schema.optional.length < values.length then
    throw (.count schema values.length)
  else adaptFrom 1 (schema.required ++ schema.optional) values

/-- An argument by its place. -/
def argAt (args : List Arg) (index : Nat) : Option Arg :=
  args[index]?

/-! ## Parts of methods

The same parts as in drawing, with accesses.  Nodes are looked up each time that they are needed, as
the program does. -/

/-- Drawing step by step. -/
def each {α : Type} (step : Document → α → Option Document) (doc : Document) (items : List α) :
    Option Document :=
  items.foldlM step doc

/-- A number written to an attribute. -/
def setNumber (doc : Document) (id : NodeId) (attr : String) (x : Float) : Option Document :=
  setAttr doc id attr (Decimal.coordinate x)

/-- An argument written to an attribute. -/
def setArg (doc : Document) (id : NodeId) (attr : String) : Arg → Option Document
  | .map fields => setAttr doc id attr (Json.object fields).render
  | .length s | .text s | .points s => setAttr doc id attr s

/-- An argument written to an attribute if it is there. -/
def setOpt (doc : Document) (id : NodeId) (attr : String) : Option Arg → Option Document
  | some arg => setArg doc id attr arg
  | none => some doc

/-- Each field of a map written to the attribute that `rename` names. -/
def setMap (rename : String → String) (id : NodeId) (doc : Document) (fields : Fields Json) :
    Option Document :=
  each
    (fun doc (key, value) =>
      match value with
      | .null => removeAttr doc id (rename key)
      | value => setAttr doc id (rename key) ((scalarText? value).getD value.render))
    doc fields

/-- An element put with its edge or centre at a place on an axis. -/
def position (doc : Document) (id : NodeId) (axis : Axis) (anchor : Anchor) (method : Method)
    (arg : Arg) : ExceptT Fault Option Document := do
  let tag ← (tag doc id : Option (Option String))
  if tag == some "circle" || tag == some "ellipse" then do
    let radius ← (number doc id (if tag == some "circle" then "r" else axis.radius) :
      Option (Option Float))
    let value ← numberArg method arg
    setNumber doc id axis.center <|
      match anchor with
      | .edge => value + radius.getD 0
      | .center => value
  else if tag == some "line" then do
    let value ← numberArg method arg
    let first ← (number doc id axis.first : Option (Option Float))
    let second ← (number doc id axis.second : Option (Option Float))
    let shift :=
      match anchor with
      | .edge => value - lesser (first.getD 0) (second.getD 0)
      | .center => value - (first.getD 0 + second.getD 0) / 2
    let doc ← setNumber doc id axis.first (first.getD 0 + shift)
    setNumber doc id axis.second (second.getD 0 + shift)
  else
    match anchor with
    | .edge => setArg doc id axis.edge arg
    | .center => do
      let value ← numberArg method arg
      let size ← (number doc id axis.size : Option (Option Float))
      setNumber doc id axis.edge (value - size.getD 0 / 2)

/-- An element given a size along an axis. -/
def resize (doc : Document) (id : NodeId) (axis : Axis) (method : Method) (arg : Arg) :
    ExceptT Fault Option Document := do
  let tag ← (tag doc id : Option (Option String))
  if tag == some "circle" then do
    let value ← numberArg method arg
    setNumber doc id "r" (value / 2)
  else if tag == some "ellipse" then do
    let value ← numberArg method arg
    setNumber doc id axis.radius (value / 2)
  else setArg doc id axis.size arg

/-- A transformation added after those that an element has. -/
def addTransform (doc : Document) (id : NodeId) (function : String) : Option Document := do
  let present ← attr doc id "transform"
  setAttr doc id "transform" <|
    match present with
    | some present => if present.isEmpty then function else present ++ " " ++ function
    | none => function

/-- The `defs` element of the root, made in front of the other children when there is none. -/
def defs (doc : Document) : Option (Document × NodeId) := do
  let below ← children doc Document.root
  match ← below.findM? fun child => (tag doc child).map (· == some "defs") with
  | some id => some (doc, id)
  | none => prependElement doc Document.root "defs"

/-- A line of a text of several lines. -/
def writeLine (id : NodeId) (doc : Document) (index : Nat) (line : String) : Option Document := do
  let (doc, tspan) ← appendElement doc id "tspan"
  let doc ← setAttr doc tspan "x" "0"
  let doc ← if index = 0 then some doc else setAttr doc tspan "dy" "1.3em"
  let (doc, _) ← appendText doc tspan line
  some doc

/-- A text written into an element, several lines each in an element of their own. -/
def writeText (doc : Document) (id : NodeId) (content : String) : Option Document :=
  match Text.splitOn (· == '\n') content.toList with
  | [_] => (appendText doc id content).map Prod.fst
  | lines =>
    each (fun doc (line, index) => writeLine id doc index (String.ofList line)) doc lines.zipIdx

/-- A text written into an element if it is there. -/
def writeOpt (doc : Document) (id : NodeId) (arg : Option Arg) : Option Document :=
  match arg.bind Arg.text? with
  | some content => (appendText doc id content).map Prod.fst
  | none => some doc

/-- The style of an element with declarations changed. -/
def restyle (doc : Document) (id : NodeId) (style : Option String)
    (change : Fields String → Fields String) : Option Document :=
  setAttr doc id "style" (Drawing.writeStyle (change (Drawing.readStyle (style.getD ""))))

/-- Centre and radii of an ellipse of a size. -/
def shapeEllipse (method : Method) (doc : Document) (id : NodeId) (args : List Arg) :
    ExceptT Fault Option Document :=
  match args with
  | [] => pure doc
  | width :: more => do
    let rx := (← numberArg method width) / 2
    let ry ←
      match more with
      | height :: _ => (· / 2) <$> numberArg method height
      | [] => pure rx
    each (fun doc (attr, x) => setNumber doc id attr x) doc
      [("rx", rx), ("ry", ry), ("cx", rx), ("cy", ry)]

/-! ## The methods

What each method does, with the places of its arguments written out.  No method asks for an argument
beyond the second. -/

/-- Carries out a method other than an import on a node, with adapted arguments. -/
def apply (doc : Document) (target : NodeId) (method : Method) (args : List Arg) :
    ExceptT Fault Option (Document × NodeId) :=
  match method with
  | .rect => do
    let (doc, id) ← appendElement doc target "rect"
    let doc ← setOpt doc id "width" args.head?
    let doc ← setOpt doc id "height" (args.drop 1).head?
    pure (doc, id)
  | .circle => do
    let (doc, id) ← appendElement doc target "circle"
    match args with
    | [] => pure (doc, id)
    | diameter :: _ => do
      let r := (← numberArg method diameter) / 2
      let doc ← each (fun doc attr => setNumber doc id attr r) doc ["r", "cx", "cy"]
      pure (doc, id)
  | .ellipse => do
    let (doc, id) ← appendElement doc target "ellipse"
    let doc ← shapeEllipse method doc id args
    pure (doc, id)
  | .line => do
    let (doc, id) ← appendElement doc target "line"
    let doc ← each (fun doc (attr, arg) => setArg doc id attr arg) doc
      (["x1", "y1", "x2", "y2"].zip args)
    pure (doc, id)
  | .polyline | .polygon => do
    let (doc, id) ← appendElement doc target method.name
    let doc ← setOpt doc id "points" args.head?
    pure (doc, id)
  | .path => do
    let (doc, id) ← appendElement doc target "path"
    let doc ← setOpt doc id "d" args.head?
    pure (doc, id)
  | .image => do
    let (doc, id) ← appendElement doc target "image"
    let doc ← setOpt doc id "href" args.head?
    let doc ← setOpt doc id "width" (args.drop 1).head?
    let doc ← setOpt doc id "height" (args.drop 2).head?
    pure (doc, id)
  | .text => do
    let (doc, id) ← appendElement doc target "text"
    match args.head?.bind Arg.text? with
    | some content => do
      let doc ← writeText doc id content
      pure (doc, id)
    | none => pure (doc, id)
  | .group => appendElement doc target "g"
  | .nested => appendElement doc target "svg"
  | .defs => defs doc
  | .symbol => do
    let (doc, id) ← defs doc
    appendElement doc id "symbol"
  | .use => do
    let (doc, id) ← appendElement doc target "use"
    let href ← textArg method args.head?
    let doc ← setAttr doc id "href" (if href.startsWith "#" then href else "#" ++ href)
    pure (doc, id)
  | .link => do
    let (doc, id) ← appendElement doc target "a"
    let href ← textArg method args.head?
    let doc ← setAttr doc id "href" href
    pure (doc, id)
  | .style => do
    let (doc, id) ← appendElement doc target "style"
    let content ← textArg method args.head?
    let (doc, _) ← appendText doc id content
    pure (doc, id)
  | .element => do
    let tag ← textArg method args.head?
    let (doc, id) ← appendElement doc target tag
    match (args.drop 1).head? with
    | some (.map attrs) => do
      let doc ← setMap (·) id doc attrs
      pure (doc, id)
    | _ => pure (doc, id)
  | .importDrawing => throw (.invalidArguments method.name "import must be awaited")
  | .plain => do
    let doc ← clear doc target
    let doc ← writeOpt doc target args.head?
    pure (doc, target)
  | .tspan => do
    let (doc, id) ← appendElement doc target "tspan"
    let doc ← writeOpt doc id args.head?
    pure (doc, id)
  | .attr =>
    match args with
    | .map attrs :: _ => do
      let doc ← setMap (·) target doc attrs
      pure (doc, target)
    | attr :: more => do
      let attr ← textArg method (some attr)
      match more with
      | value :: _ => do
        let doc ← setArg doc target attr value
        pure (doc, target)
      | [] => throw (.invalidArguments method.name ("missing value for '" ++ attr ++ "'"))
    | [] => throw (.invalidArguments method.name "missing attribute")
  | .id => do
    let id ← textArg method args.head?
    let doc ← setAttr doc target "id" id
    pure (doc, target)
  | .addClass => do
    let class_ ← textArg method args.head?
    let present ← (attr doc target "class" : Option (Option String))
    let doc ← setAttr doc target "class" (Drawing.addClass present class_)
    pure (doc, target)
  | .css => do
    let style ← (attr doc target "style" : Option (Option String))
    match args with
    | .map rules :: _ => do
      let doc ← restyle doc target style (declareAll rules)
      pure (doc, target)
    | property :: more => do
      let property ← textArg method (some property)
      let value ← textArg method more.head?
      let doc ← restyle doc target style (Fields.insert property value)
      pure (doc, target)
    | [] => do
      let doc ← restyle doc target style id
      pure (doc, target)
  | .opacity => do
    let doc ← setOpt doc target "opacity" args.head?
    pure (doc, target)
  | .fill | .stroke =>
    match args.head? with
    | some (.map paint) => do
      let doc ← setMap (paintAttr method.name) target doc paint
      pure (doc, target)
    | arg => do
      let doc ← setOpt doc target method.name arg
      pure (doc, target)
  | .move => do
    let x ← argAt args 0
    let doc ← position doc target .horizontal .edge method x
    let y ← argAt args 1
    let doc ← position doc target .vertical .edge method y
    pure (doc, target)
  | .center => do
    let x ← argAt args 0
    let doc ← position doc target .horizontal .center method x
    let y ← argAt args 1
    let doc ← position doc target .vertical .center method y
    pure (doc, target)
  | .x => do
    let x ← argAt args 0
    let doc ← position doc target .horizontal .edge method x
    pure (doc, target)
  | .y => do
    let y ← argAt args 0
    let doc ← position doc target .vertical .edge method y
    pure (doc, target)
  | .cx => do
    let x ← argAt args 0
    let doc ← position doc target .horizontal .center method x
    pure (doc, target)
  | .cy => do
    let y ← argAt args 0
    let doc ← position doc target .vertical .center method y
    pure (doc, target)
  | .size => do
    let width ← argAt args 0
    let doc ← resize doc target .horizontal method width
    let doc ← resize doc target .vertical method ((args.drop 1).head?.getD width)
    pure (doc, target)
  | .width => do
    let width ← argAt args 0
    let doc ← resize doc target .horizontal method width
    pure (doc, target)
  | .height => do
    let height ← argAt args 0
    let doc ← resize doc target .vertical method height
    pure (doc, target)
  | .radius => do
    let tag ← (tag doc target : Option (Option String))
    let rx ← argAt args 0
    if tag == some "circle" then do
      let doc ← setArg doc target "r" rx
      pure (doc, target)
    else do
      let doc ← setArg doc target "rx" rx
      let doc ← setArg doc target "ry" ((args.drop 1).head?.getD rx)
      pure (doc, target)
  | .font =>
    match args with
    | .map font :: _ => do
      let doc ← setMap fontAttr target doc font
      pure (doc, target)
    | key :: more => do
      let key ← textArg method (some key)
      let value ← textArg method more.head?
      let doc ← setAttr doc target (fontAttr key) value
      pure (doc, target)
    | [] => pure (doc, target)
  | .plot => do
    match ← (tag doc target : Option (Option String)) with
    | some "path" => do
      let doc ← setOpt doc target "d" args.head?
      pure (doc, target)
    | some "polyline" => do
      let doc ← setOpt doc target "points" args.head?
      pure (doc, target)
    | some "polygon" => do
      let doc ← setOpt doc target "points" args.head?
      pure (doc, target)
    | _ => do
      let node ← describe doc target
      throw (.unsupportedMethod method.name node)
  | .transform =>
    match args with
    | .map parts :: _ => do
      let parts ← (parts.mapM fun (key, value) => transformPart method key value :
        Except Fault (List String))
      let doc ← setAttr doc target "transform" (" ".intercalate parts)
      pure (doc, target)
    | _ => pure (doc, target)
  | .rotate | .translate | .scale => do
    let values ← (args.mapM fun arg => Decimal.coordinate <$> numberArg method arg :
      Except Fault (List String))
    let doc ← addTransform doc target (method.name ++ "(" ++ " ".intercalate values ++ ")")
    pure (doc, target)
  | .clear => do
    let doc ← clear doc target
    pure (doc, target)

/-! ## Answers

A computation without misses is known by its answer.  The lemmas go through computations from left
to right and replace each step by what it answers. -/

/-- A computation misses nothing, and has this answer. -/
def Answers {ε α : Type} (x : ExceptT ε Option α) (y : Except ε α) : Prop :=
  x.run = some y

namespace Answers

variable {ε α β : Type} {x : ExceptT ε Option α} {y : Except ε α} {f : α → ExceptT ε Option β}
  {g : α → Except ε β}

theorem pure (a : α) : Answers (Pure.pure a : ExceptT ε Option α) (.ok a) := rfl

theorem throw (e : ε) : Answers (MonadExcept.throw e : ExceptT ε Option α) (.error e) := rfl

/-- Steps that miss nothing are done one after the other.  The second one need not be looked at if
the first one fails. -/
theorem bind (hx : Answers x y) (hf : ∀ a, y = .ok a → Answers (f a) (g a)) :
    Answers (x >>= f) (y >>= g) := by
  obtain rfl : x = ExceptT.mk (some y) := hx
  cases y with
  | error e => rfl
  | ok a => exact hf a rfl

/-- What involves no access is as it is. -/
theorem of (y : Except ε α) : Answers (liftM y) y := rfl

/-- A step without access has its answer, and the rest is looked at for whatever that is. -/
theorem known (y : Except ε α) (hf : ∀ a, Answers (f a) (g a)) :
    Answers (liftM y >>= f) (y >>= g) :=
  bind (of y) fun a _ => hf a

/-- An access in range goes on with what it found. -/
theorem access {found : Option α} {a : α} {z : Except ε β} (h : found = some a)
    (hf : Answers (f a) z) : Answers (liftM found >>= f) z := by
  subst h
  exact hf

theorem last {found : Option α} {a : α} (h : found = some a) :
    Answers (liftM found : ExceptT ε Option α) (.ok a) := by
  subst h
  rfl

theorem map (hx : Answers x y) (h : α → β) : Answers (h <$> x) (h <$> y) := by
  obtain rfl : x = ExceptT.mk (some y) := hx
  cases y with
  | error e => rfl
  | ok a => rfl

end Answers

/-! ## Adaptation

How many arguments there are is checked first, so that the places that a method asks for are there.
Points are refused when their coordinates do not come in pairs, before the pairs are taken apart. -/

/-- A pair has both of its coordinates. -/
theorem pointText_pair (x y : Json) : pointText [x, y] = some (pointText? x y) := by
  rw [pointText, pointText?]
  simp only [List.getElem?_cons_zero, List.getElem?_cons_succ, bind, Option.bind]
  cases x.float? with
  | none => rfl
  | some x =>
    cases y.float? with
    | none => rfl
    | some y => rfl

/-- **The coordinates of a point are there** when their number is even. -/
theorem pointTexts_chunks : ∀ {items : List Json}, items.length % 2 = 0 →
    pointTexts (chunks items) = some (flatTexts? items)
  | [], _ => rfl
  | [_], h => by simp at h
  | x :: y :: rest, h => by
    have hrest : rest.length % 2 = 0 := by
      rw [List.length_cons, List.length_cons] at h
      omega
    rw [chunks, pointTexts, pointText_pair, pointTexts_chunks hrest, flatTexts?]
    simp only [bind, Option.bind]
    cases pointText? x y with
    | none => rfl
    | some point =>
      cases flatTexts? rest with
      | none => rfl
      | some points => rfl

/-- No coordinate is missed: pairs are checked to be pairs, and an odd number of coordinates is
refused before they are taken two by two. -/
theorem pointsText_eq (value : Json) : pointsText value = some (pointsText? value) := by
  cases value with
  | null | bool _ | number _ | object _ | string _ => rfl
  | array items =>
    rw [pointsText, pointsText?]
    split
    · rfl
    · split
      · next heven =>
        rw [pointTexts_chunks heven]
        rfl
      · rfl

/-- Only points are taken apart by place, and nothing is missed there. -/
theorem adaptArg_eq (kind : ArgKind) (value : Json) :
    adaptArg kind value = some (adaptArg? kind value) := by
  rw [adaptArg]
  split
  · next hkind =>
    rw [hkind, pointsText_eq, adaptArg?]
    rfl
  · rfl

/-- Adaptation misses no value, by recursion on the places of the schema. -/
theorem adaptFrom_answers : ∀ (kinds : List ArgKind) (values : List Json) (position : Nat),
    Answers (adaptFrom position kinds values) (Scene.adaptFrom position kinds values)
  | [], _, _ => rfl
  | _ :: _, [], _ => rfl
  | kind :: kinds, value :: values, position => by
    have hrest := adaptFrom_answers kinds values (position + 1)
    rw [adaptFrom, Scene.adaptFrom]
    refine .access (adaptArg_eq kind value) ?_
    cases adaptArg? kind value with
    | none => rfl
    | some arg => exact hrest.map (arg :: ·)

/-- **Adaptation misses nothing.** -/
theorem adapt_answers (method : Method) (values : List Json) :
    Answers (adapt method values) (method.adapt values) := by
  rw [adapt, Method.adapt]
  split
  · rfl
  · exact adaptFrom_answers _ _ 1

/-! ## The parts answer alike

The node of a part is there before its first access, and the document after one access still has it:
that is what `Ready` says, and drawing keeps it.  So the accesses of a part are gone through in
their order. -/

section

variable {doc now : Document} {target id : NodeId}

/-- Numbers and arguments are written into one attribute, which misses nothing if the node is
there. -/
theorem setNumber_eq (h : id < doc.nodes.size) (attr : String) (x : Float) :
    setNumber doc id attr x = some (Scene.setNumber doc id attr x) :=
  setAttr_eq h _ _

theorem setArg_eq (h : id < doc.nodes.size) (attr : String) : ∀ arg : Arg,
    setArg doc id attr arg = some (Scene.setArg doc id attr arg)
  | .map _ | .length _ | .text _ | .points _ => setAttr_eq h _ _

theorem setOpt_eq (h : id < doc.nodes.size) (attr : String) : ∀ arg : Option Arg,
    setOpt doc id attr arg = some (Scene.setOpt doc id attr arg)
  | some arg => setArg_eq h attr arg
  | none => rfl

/-- What is drawn step by step misses nothing when no step does. -/
theorem each_eq {α : Type} {f : Document → α → Option Document} {g : Document → α → Document}
    (hf : ∀ {now : Document} (a : α), Ready doc target False now id → f now a = some (g now a))
    (hg : ∀ {now : Document} (a : α), Ready doc target False now id →
      Ready doc target False (g now a) id) :
    ∀ (items : List α) {now : Document}, Ready doc target False now id →
      each f now items = some (items.foldl g now)
  | [], _, _ => rfl
  | a :: rest, _, h => by
    rw [each, List.foldlM_cons, hf a h, List.foldl_cons]
    exact each_eq hf hg rest (hg a h)

/-- Attributes are set one after the other, and each of them leaves the node in its place. -/
theorem setMap_eq (h : Ready doc target False now id) (rename : String → String)
    (fields : Fields Json) :
    setMap rename id now fields = some (Scene.setMap rename id now fields) := by
  refine each_eq (fun (key, value) h => ?_) (fun (key, value) h => ?_) fields h
  · cases value with
    | null => exact removeAttr_eq h.lt _
    | bool _ | number _ | string _ | array _ | object _ => exact setAttr_eq h.lt _ _
  · dsimp only
    split
    · exact h.removeAttr _
    · exact h.setAttr _ _

/-- A position is read from the node and written to it, whatever the element is. -/
theorem position_answers (h : Ready doc target False now id) (axis : Axis) (anchor : Anchor)
    (method : Method) (arg : Arg) : Answers (position now id axis anchor method arg)
      (Scene.position now id axis anchor method arg) := by
  rw [position.eq_def, Scene.position.eq_def]
  refine .access (tag_eq h.lt) ?_
  dsimp only
  split
  · exact .access (number_eq h.lt _) (.known _ fun _ => .last (setNumber_eq h.lt _ _))
  split
  · refine .known _ fun value => .access (number_eq h.lt _) (.access (number_eq h.lt _) ?_)
    exact .access (setNumber_eq h.lt _ _) (.last (setNumber_eq (h.setAttr _ _).lt _ _))
  · cases anchor with
    | edge => exact .last (setArg_eq h.lt _ arg)
    | center =>
      exact .known _ fun _ => .access (number_eq h.lt _) (.last (setNumber_eq h.lt _ _))

/-- So is a size. -/
theorem resize_answers (h : Ready doc target False now id) (axis : Axis) (method : Method)
    (arg : Arg) :
    Answers (resize now id axis method arg) (Scene.resize now id axis method arg) := by
  rw [resize, Scene.resize]
  refine .access (tag_eq h.lt) ?_
  split
  · exact .known _ fun _ => .last (setNumber_eq h.lt _ _)
  split
  · exact .known _ fun _ => .last (setNumber_eq h.lt _ _)
  · exact .last (setArg_eq h.lt _ arg)

/-- The transformations that are there are read and written back with one more. -/
theorem addTransform_eq (h : id < doc.nodes.size) (function : String) :
    addTransform doc id function = some (Scene.addTransform doc id function) := by
  rw [addTransform, attr_eq h]
  exact setAttr_eq h _ _

/-- A search that misses nothing finds what a search finds. -/
theorem findM?_eq {α : Type} {f : α → Option Bool} {g : α → Bool} : ∀ {items : List α},
    (∀ a ∈ items, f a = some (g a)) → items.findM? f = some (items.find? g)
  | [], _ => rfl
  | a :: rest, h => by
    rw [List.findM?, h a List.mem_cons_self, List.find?_cons]
    cases g a with
    | true => rfl
    | false => exact findM?_eq fun b hb => h b (List.mem_cons_of_mem a hb)

/-- The children of the root are there, and so is the root. -/
theorem defs_eq (h : doc.WellFormed) : defs doc = some (Scene.defs doc) := by
  have hfind : (doc.children Document.root).findM?
      (fun child => (tag doc child).map (· == some "defs"))
      = some ((doc.children Document.root).find? fun child => doc.tag? child == some "defs") :=
    findM?_eq fun child hchild => by rw [tag_eq (h.children_after hchild).2, Option.map_some]
  rw [defs, children_eq h.root_lt, Scene.defs]
  dsimp only [bind, Option.bind]
  rw [hfind]
  cases (doc.children Document.root).find? fun child => doc.tag? child == some "defs" with
  | some found => rfl
  | none => exact prependElement_eq h.root_lt _

/-- A line is written into an element that has been made for it just before. -/
theorem writeLine_eq (hdoc : doc.WellFormed) (h : Ready doc target False now id) (index : Nat)
    (line : String) : writeLine id now index line = some (Scene.writeLine id now index line) := by
  have hspan := h.appendElement hdoc "tspan"
  have hx := hspan.setAttr "x" "0"
  rw [writeLine, Scene.writeLine, appendElement_eq h.lt]
  dsimp only [bind, Option.bind]
  rw [setAttr_eq hspan.lt]
  dsimp only
  split
  · rw [appendText_eq hx.lt]
  · rw [setAttr_eq hx.lt]
    dsimp only
    rw [appendText_eq (hx.setAttr _ _).lt]

/-- A text of several lines adds nodes to its element, which itself stays in place. -/
theorem writeText_eq (hdoc : doc.WellFormed) (h : Ready doc target False now id)
    (content : String) : writeText now id content = some (Scene.writeText now id content) := by
  have hlines (lines : List (List Char × Nat)) :
      each (fun doc line => writeLine id doc line.2 (String.ofList line.1)) now lines
        = some (lines.foldl
          (fun doc line => Scene.writeLine id doc line.2 (String.ofList line.1)) now) :=
    each_eq (fun _ h => writeLine_eq hdoc h _ _) (fun _ h => h.writeLine hdoc _ _) lines h
  rw [writeText, Scene.writeText]
  rcases Text.splitOn (· == '\n') content.toList with _ | ⟨_, _ | ⟨_, _⟩⟩
  · exact hlines _
  · dsimp only
    rw [appendText_eq h.lt]
    rfl
  · exact hlines _

/-- A text is written into the node, or nothing is. -/
theorem writeOpt_eq (h : id < doc.nodes.size) (arg : Option Arg) :
    writeOpt doc id arg = some (Scene.writeOpt doc id arg) := by
  rw [writeOpt, Scene.writeOpt]
  cases arg.bind Arg.text? with
  | none => rfl
  | some content =>
    dsimp only
    rw [appendText_eq h]
    rfl

/-- The style is read before it is written, and the node is there for both. -/
theorem restyle_eq (h : id < doc.nodes.size) (change : Fields String → Fields String) :
    restyle doc id (doc.attr? id "style") change = some (Scene.restyle doc id change) :=
  setAttr_eq h _ _

/-- An ellipse has a second radius only if a second argument is given, and it is asked for only
then. -/
theorem shapeEllipse_answers (h : Ready doc target False now id) (method : Method) :
    ∀ args : List Arg, Answers (shapeEllipse method now id args)
      (Scene.shapeEllipse method now id args)
  | [] => rfl
  | width :: more => by
    have hset : ∀ rx ry : Float, Answers
        (liftM (each (fun doc (entry : String × Float) => setNumber doc id entry.1 entry.2) now
          [("rx", rx), ("ry", ry), ("cx", rx), ("cy", ry)]))
        (.ok ([("rx", rx), ("ry", ry), ("cx", rx), ("cy", ry)].foldl
          (fun doc entry => Scene.setNumber doc id entry.1 entry.2) now) : Except Fault Document) :=
      fun _ _ => .last (each_eq (fun _ h => setNumber_eq h.lt _ _) (fun _ h => h.setAttr _ _) _ h)
    rw [shapeEllipse, Scene.shapeEllipse]
    refine .known _ fun rx => ?_
    cases more with
    | nil => exact hset _ _
    | cons height more => exact .bind (.map (.of _) _) fun ry _ => hset _ ry

/-! ## The families of methods

One family after the other.  Each method is gone through in the order in which it makes its accesses;
the document after one access is ready for the next. -/

/-- The points of a path, a line or a shape. -/
theorem plot_answers (h : Ready doc target False now id) (args : List Arg) :
    Answers (apply now id .plot args) (Scene.apply now id .plot args) := by
  rw [apply.eq_def, Scene.apply.eq_def]
  refine .access (tag_eq h.lt) ?_
  dsimp only
  generalize now.tag? id = tag
  by_cases hpath : tag = some "path"
  · subst hpath
    exact .access (setOpt_eq h.lt _ _) (.pure _)
  by_cases hpolyline : tag = some "polyline"
  · subst hpolyline
    exact .access (setOpt_eq h.lt _ _) (.pure _)
  by_cases hpolygon : tag = some "polygon"
  · subst hpolygon
    exact .access (setOpt_eq h.lt _ _) (.pure _)
  -- only the last case of both matches is left
  simp only
  exact .access (describe_eq h.lt) (.throw _)

/-- Methods that make an element. -/
theorem apply_makes_answers (hdoc : doc.WellFormed) (h : Ready doc target False now id)
    {method : Method} (args : List Arg) (hmethod : method.family = .makes) :
    Answers (apply now id method args) (Scene.apply now id method args) := by
  -- the new element is ready for whatever the method writes into it
  have hadd : ∀ tag : String,
      Ready doc target False (now.appendElement id tag).1 (now.appendElement id tag).2 :=
    fun tag => h.appendElement hdoc tag
  rw [apply.eq_def, Scene.apply.eq_def]
  dsimp only
  cases method with
  | rect =>
    have hwidth := (hadd "rect").setOpt "width" args.head?
    exact .access (appendElement_eq h.lt _) <| .access (setOpt_eq (hadd "rect").lt _ _) <|
      .access (setOpt_eq hwidth.lt _ _) <| .pure _
  | circle =>
    refine .access (appendElement_eq h.lt _) ?_
    cases args with
    | nil => exact .pure _
    | cons diameter more =>
      refine .known _ fun r => .access (each_eq ?_ ?_ _ (hadd "circle")) (.pure _)
      · exact fun _ h => setNumber_eq h.lt _ _
      · exact fun _ h => h.setAttr _ _
  | ellipse =>
    exact .access (appendElement_eq h.lt _) <|
      .bind (shapeEllipse_answers (hadd "ellipse") _ args) fun _ _ => .pure _
  | line =>
    refine .access (appendElement_eq h.lt _) (.access (each_eq ?_ ?_ _ (hadd "line")) (.pure _))
    · exact fun _ h => setArg_eq h.lt _ _
    · exact fun _ h => h.setArg _ _
  | polyline | polygon | path =>
    exact .access (appendElement_eq h.lt _) <| .access (setOpt_eq (hadd _).lt _ _) <| .pure _
  | image =>
    have hhref := (hadd "image").setOpt "href" args.head?
    have hwidth := hhref.setOpt "width" (args.drop 1).head?
    exact .access (appendElement_eq h.lt _) <| .access (setOpt_eq (hadd "image").lt _ _) <|
      .access (setOpt_eq hhref.lt _ _) <| .access (setOpt_eq hwidth.lt _ _) <| .pure _
  | text =>
    refine .access (appendElement_eq h.lt _) ?_
    dsimp only
    cases args.head?.bind Arg.text? with
    | none => exact .pure _
    | some content => exact .access (writeText_eq hdoc (hadd "text") content) (.pure _)
  | group | nested => exact .last (appendElement_eq h.lt _)
  | use | link =>
    exact .access (appendElement_eq h.lt _) <| .known _ fun _ =>
      .access (setAttr_eq (hadd _).lt _ _) <| .pure _
  | style =>
    exact .access (appendElement_eq h.lt _) <| .known _ fun _ =>
      .access (appendText_eq (hadd "style").lt _) <| .pure _
  -- the one method of this family that is told the tag
  | element =>
    refine .known _ fun tag => .access (appendElement_eq h.lt _) ?_
    cases (args.drop 1).head? with
    | none => exact .pure _
    | some arg =>
      cases arg with
      | map attrs => exact .access (setMap_eq (hadd tag) (fun key => key) _) (.pure _)
      | _ => exact .pure _
  | tspan =>
    exact .access (appendElement_eq h.lt _) <| .access (writeOpt_eq (hadd "tspan").lt _) <| .pure _
  | _ => cases hmethod

/-- Methods that change attributes. -/
theorem apply_changes_answers (h : Ready doc target False now id) {method : Method}
    (args : List Arg) (hmethod : method.family = .changes) :
    Answers (apply now id method args) (Scene.apply now id method args) := by
  rw [apply.eq_def, Scene.apply.eq_def]
  dsimp only
  cases method with
  -- a map of attributes, or a name and the value that the schema asks for with it
  | attr =>
    cases args with
    | nil => exact .throw _
    | cons arg more =>
      cases arg with
      | map attrs => exact .access (setMap_eq h (fun key => key) _) (.pure _)
      | _ =>
        cases more with
        | nil => exact .known _ fun _ => .throw _
        | cons value => exact .known _ fun _ => .access (setArg_eq h.lt _ _) (.pure _)
  | id => exact .known _ fun _ => .access (setAttr_eq h.lt _ _) <| .pure _
  | addClass =>
    exact .known _ fun _ => .access (attr_eq h.lt _) <| .access (setAttr_eq h.lt _ _) <| .pure _
  | css =>
    refine .access (attr_eq h.lt _) ?_
    cases args with
    | nil => exact .access (restyle_eq h.lt _) (.pure _)
    | cons arg more =>
      cases arg with
      | map rules => exact .access (restyle_eq h.lt _) (.pure _)
      | _ => exact .known _ fun _ => .known _ fun _ => .access (restyle_eq h.lt _) (.pure _)
  | opacity => exact .access (setOpt_eq h.lt _ _) <| .pure _
  | fill | stroke =>
    cases args.head? with
    | none => exact .access (setOpt_eq h.lt _ _) (.pure _)
    | some arg =>
      cases arg with
      | map paint => exact .access (setMap_eq h _ _) (.pure _)
      | _ => exact .access (setOpt_eq h.lt _ _) (.pure _)
  | font =>
    cases args with
    | nil => exact .pure _
    | cons arg more =>
      cases arg with
      | map font => exact .access (setMap_eq h _ _) (.pure _)
      | _ => exact .known _ fun _ => .known _ fun _ => .access (setAttr_eq h.lt _ _) (.pure _)
  | plot => exact plot_answers h args
  | transform =>
    cases args with
    | nil => exact .pure _
    | cons arg more =>
      cases arg with
      | map parts => exact .known _ fun _ => .access (setAttr_eq h.lt _ _) (.pure _)
      | _ => exact .pure _
  | rotate | translate | scale =>
    exact .known _ fun _ => .access (addTransform_eq h.lt _) (.pure _)
  | _ => cases hmethod

/-- Methods that put their target somewhere.  They have their arguments by place, so there must be
enough. -/
theorem apply_places_answers (h : Ready doc target False now id) {method : Method}
    (args : List Arg) (hmethod : method.family = .places)
    (hargs : method.schema.required.length ≤ args.length) :
    Answers (apply now id method args) (Scene.apply now id method args) := by
  rw [apply.eq_def, Scene.apply.eq_def]
  dsimp only
  cases method with
  | move | center =>
    obtain ⟨x, rest, rfl⟩ := List.exists_cons_of_length_pos (Nat.lt_of_succ_lt hargs)
    obtain ⟨y, more, rfl⟩ := List.exists_cons_of_length_pos (Nat.lt_of_succ_lt_succ hargs)
    exact .access rfl <| .bind (position_answers h _ _ _ _) fun next hnext => .access rfl <|
      .bind (position_answers (h.position _ _ _ _ next hnext) _ _ _ _) fun _ _ => .pure _
  | x | y | cx | cy =>
    obtain ⟨_, _, rfl⟩ := List.exists_cons_of_length_pos hargs
    exact .access rfl <| .map (position_answers h _ _ _ _) _
  | size =>
    obtain ⟨_, _, rfl⟩ := List.exists_cons_of_length_pos hargs
    exact .access rfl <| .bind (resize_answers h _ _ _) fun next hnext =>
      .bind (resize_answers (h.resize _ _ _ next hnext) _ _ _) fun _ _ => .pure _
  | width | height =>
    obtain ⟨_, _, rfl⟩ := List.exists_cons_of_length_pos hargs
    exact .access rfl <| .map (resize_answers h _ _ _) _
  | radius =>
    obtain ⟨rx, more, rfl⟩ := List.exists_cons_of_length_pos hargs
    refine .access (tag_eq h.lt) (.access rfl ?_)
    dsimp only
    split
    · exact .access (setArg_eq h.lt _ _) (.pure _)
    · exact .access (setArg_eq h.lt _ _) <| .access (setArg_eq (h.setArg _ _).lt _ _) (.pure _)
  | _ => cases hmethod

/-- Methods that look for definitions, or clear their target. -/
theorem apply_rebuilds_answers (hdoc : doc.WellFormed) (hnow : now.WellFormed)
    (h : Ready doc target False now id) {method : Method} (args : List Arg)
    (hmethod : method.family = .rebuilds) :
    Answers (apply now id method args) (Scene.apply now id method args) := by
  rw [apply.eq_def, Scene.apply.eq_def]
  dsimp only
  cases method with
  | defs => exact .last (defs_eq hnow)
  | symbol =>
    exact .access (defs_eq hnow) <| .last (appendElement_eq (h.defs hdoc).lt _)
  | plain =>
    have hclear := h.clear False.elim
    exact .access (clear_eq h.lt) <| .access (writeOpt_eq hclear.lt _) <| .pure _
  | clear => exact .access (clear_eq h.lt) <| .pure _
  | _ => cases hmethod

/-- **No method misses a node or an argument**, on a node that may be drawn on and with as many
arguments as it needs. -/
theorem apply_answers (hreachable : doc.Reachable) (h : Ready doc target False now id)
    (method : Method) (args : List Arg)
    (hargs : method.schema.required.length ≤ args.length) :
    Answers (apply now id method args) (Scene.apply now id method args) := by
  have hdoc := hreachable.wellFormed
  cases hfamily : method.family with
  | makes => exact apply_makes_answers hdoc h args hfamily
  | changes => exact apply_changes_answers h args hfamily
  | places => exact apply_places_answers h args hfamily hargs
  | rebuilds =>
    exact apply_rebuilds_answers hdoc (h.drawn.reachable hreachable).wellFormed h args hfamily
  | asks =>
    obtain rfl := Method.eq_of_asks hfamily
    exact .throw _

end

end Strict

/-- Adaptation gives an argument for each value that the schema has a place for. -/
theorem length_adaptFrom : ∀ {kinds : List ArgKind} {values : List Json} {position : Nat}
    {args : List Arg}, adaptFrom position kinds values = .ok args → values.length ≤ kinds.length →
    args.length = values.length
  | [], [], _, _, h, _ => by
    obtain rfl := Except.ok.inj h
    rfl
  | [], _ :: _, _, _, _, hle => by simp at hle
  | _ :: _, [], _, _, h, _ => by
    obtain rfl := Except.ok.inj h
    rfl
  | kind :: kinds, value :: values, position, args, h, hle => by
    rw [adaptFrom] at h
    split at h
    · next arg _ =>
      cases hrest : adaptFrom (position + 1) kinds values with
      | error fault =>
        rw [hrest] at h
        cases h
      | ok rest =>
        rw [hrest] at h
        obtain rfl := Except.ok.inj h
        rw [List.length_cons, List.length_cons, length_adaptFrom hrest (Nat.le_of_succ_le_succ hle)]
    · cases h

/-- **A method gets as many arguments as there are values**, and as many as it needs. -/
theorem Method.adapt_length {method : Method} {values : List Json} {args : List Arg}
    (h : method.adapt values = .ok args) :
    args.length = values.length ∧ method.schema.required.length ≤ args.length := by
  rw [adapt] at h
  split at h
  · cases h
  · next hcount =>
    simp only [Bool.or_eq_true, decide_eq_true_eq, not_or, Nat.not_lt] at hcount
    have hle : values.length ≤ (method.schema.required ++ method.schema.optional).length := by
      rw [List.length_append]
      exact hcount.2
    have hlength := length_adaptFrom h hle
    exact ⟨hlength, hlength ▸ hcount.1⟩

end Scene
end Frontispiece
