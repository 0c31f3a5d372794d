import Frontispiece.Proofs.Drawing.Frame
import Frontispiece.Scene.Draw

/-!
# Where the methods draw

Every method draws on its target, on nodes that it makes, or on the definitions of the drawing.  The
node that it answers with is one of these too, so that further calls on it stay where they may.

## What is here

* `KeepsAttrs`, `KeepsNodes` — what holds of a document and a node in it, and goes on to hold when
  attributes of the node are changed, and when nodes are made below it.  There are lemmas for the
  parts that methods share: attributes, texts, positions, sizes.
* `Method.Family` — the methods that do alike: those that make an element, change attributes, or
  put their target somewhere.
* `KeepsNodes.apply` — the methods that do no more than that, one family after the other.
* `Ready` — a document that was drawn so far, and a node in it that may be drawn on.
* `Ready.apply` — all methods.

There are many methods, and most of them are one of a few things done to the target with other names
and numbers.  They are sorted into families, with one lemma for each family instead of one for each
method.  What such a lemma keeps is a parameter: `KeepsAttrs` and `KeepsNodes` are closed under the
operations that the methods use, so that invariants of very different kinds can be put in.
-/

set_option autoImplicit false

namespace Frontispiece
namespace Scene

open Drawing (Document NodeId)

/-- What holds of the value when there is one. -/
def Gives {α : Type} (x : Except Fault α) (p : α → Prop) : Prop :=
  ∀ a, x = .ok a → p a

namespace Gives

variable {α β : Type} {p : α → Prop} {q : β → Prop}

theorem ok {a : α} (h : p a) : Gives (.ok a) p := by
  rintro _ ⟨⟩
  exact h

theorem error (fault : Fault) : Gives (.error fault) p := by
  rintro _ ⟨⟩

theorem bind {x : Except Fault α} {f : α → Except Fault β} (hx : Gives x p)
    (hf : ∀ a, p a → Gives (f a) q) : Gives (x >>= f) q := by
  intro b hb
  cases x with
  | error fault => cases hb
  | ok a => exact hf a (hx a rfl) b hb

/-- A value of which nothing has to be known. -/
theorem after (x : Except Fault α) {f : α → Except Fault β} (hf : ∀ a, Gives (f a) q) :
    Gives (x >>= f) q :=
  bind (p := fun _ => True) (fun _ _ => trivial) fun a _ => hf a

theorem map {x : Except Fault α} {f : α → β} (hx : Gives x p) (hf : ∀ a, p a → q (f a)) :
    Gives (f <$> x) q := by
  intro b hb
  cases x with
  | error fault => cases hb
  | ok a =>
    obtain rfl := Except.ok.inj hb
    exact hf a (hx a rfl)

end Gives

/-! ## Families of methods

What a method does follows from few of its traits.  Most methods make one element, change attributes
of their target, or measure it to put it somewhere; and what is proved of methods is proved of one
family at a time. -/

/-- What methods do. -/
inductive Method.Family where
  /-- They make an element on their target and answer with it. -/
  | makes
  /-- They change attributes of their target. -/
  | changes
  /-- They put their target somewhere, or give it a size. -/
  | places
  /-- They look for definitions, or clear their target. -/
  | rebuilds
  /-- They need another drawing. -/
  | asks

/-- The family of a method. -/
def Method.family : Method → Family
  | .rect | .circle | .ellipse | .line | .polyline | .polygon | .path | .image | .text | .group
  | .nested | .use | .link | .style | .element | .tspan => .makes
  | .attr | .id | .addClass | .css | .opacity | .fill | .stroke | .font | .plot | .transform
  | .rotate | .translate | .scale => .changes
  | .move | .center | .x | .y | .cx | .cy | .size | .width | .height | .radius => .places
  | .defs | .symbol | .plain | .clear => .rebuilds
  | .importDrawing => .asks

theorem Method.mem_of_rebuilds {method : Method} (h : method.family = .rebuilds) :
    method ∈ [Method.defs, .symbol, .plain, .clear] := by
  cases method <;> first | decide | cases h

theorem Method.eq_of_asks {method : Method} (h : method.family = .asks) :
    method = .importDrawing := by
  cases method <;> first | rfl | cases h

/-! ## What drawing keeps

A method is put together from a few parts, such as setting an attribute or writing a text.  What is
kept by the two things that documents are asked to do is kept by the parts, and then by the methods,
one family after the other. -/

/-- What goes on to hold of a document and a node in it when attributes of the node are changed. -/
structure KeepsAttrs (Q : Document → NodeId → Prop) : Prop where
  setAttr : ∀ {now : Document} {id : NodeId}, Q now id → ∀ name value : String,
    Q (now.setAttr id name value) id
  removeAttr : ∀ {now : Document} {id : NodeId}, Q now id → ∀ name : String,
    Q (now.removeAttr id name) id

/-- What goes on to hold when nodes are made below the node as well, and holds of the elements among
them.  All tags but that of definitions are allowed. -/
structure KeepsNodes (allowed : String → Prop) (Q : Document → NodeId → Prop) : Prop
    extends KeepsAttrs Q where
  appendElement : ∀ {now : Document} {id : NodeId}, Q now id → ∀ {tag : String}, allowed tag →
    Q (now.appendElement id tag).1 (now.appendElement id tag).2
  appendText : ∀ {now : Document} {id : NodeId}, Q now id → ∀ content : String,
    Q (now.appendText id content).1 id
  /-- Drawing goes back to an old node. -/
  back : ∀ {now next : Document} {id node : NodeId}, Q now id → Q next node →
    now.nodes.size ≤ next.nodes.size → Q next id
  allowed_of_ne : ∀ tag : String, tag ≠ "defs" → allowed tag

/-- What holds of one step of drawing holds of many. -/
theorem foldl_keeps {α : Type} (Q : Document → NodeId → Prop) {id : NodeId}
    {f : Document → α → Document} (hf : ∀ {now : Document} (a : α), Q now id → Q (f now a) id) :
    ∀ (items : List α) {now : Document}, Q now id → Q (items.foldl f now) id
  | [], _, h => h
  | a :: rest, _, h => foldl_keeps Q hf rest (hf a h)

namespace KeepsAttrs

variable {Q : Document → NodeId → Prop} {now : Document} {id : NodeId}

theorem setArg (hQ : KeepsAttrs Q) (h : Q now id) (attr : String) : ∀ arg : Arg,
    Q (Scene.setArg now id attr arg) id
  | .map _ | .length _ | .text _ | .points _ => hQ.setAttr h attr _

theorem setOpt (hQ : KeepsAttrs Q) (h : Q now id) (attr : String) : ∀ arg : Option Arg,
    Q (Scene.setOpt now id attr arg) id
  | some arg => hQ.setArg h attr arg
  | none => h

theorem setMap (hQ : KeepsAttrs Q) (h : Q now id) (rename : String → String)
    (fields : Fields Json) : Q (Scene.setMap rename id now fields) id := by
  refine foldl_keeps Q (fun (key, value) h => ?_) fields h
  dsimp only
  split
  · exact hQ.removeAttr h _
  · exact hQ.setAttr h _ _

theorem addTransform (hQ : KeepsAttrs Q) (h : Q now id) (function : String) :
    Q (Scene.addTransform now id function) id :=
  hQ.setAttr h "transform" _

theorem restyle (hQ : KeepsAttrs Q) (h : Q now id) (change : Fields String → Fields String) :
    Q (Scene.restyle now id change) id :=
  hQ.setAttr h "style" _

/-- A position is kept, being no more than attributes. -/
theorem position (hQ : KeepsAttrs Q) (h : Q now id) (axis : Axis) (anchor : Anchor)
    (method : Method) (arg : Arg) : Gives (Scene.position now id axis anchor method arg)
      fun next => Q next id := by
  rw [Scene.position.eq_def]
  dsimp only
  split
  · exact .after _ fun _ => .ok (hQ.setAttr h _ _)
  split
  · exact .after _ fun _ => .ok (hQ.setAttr (hQ.setAttr h _ _) _ _)
  · cases anchor with
    | edge => exact .ok (hQ.setArg h _ arg)
    | center => exact .after _ fun _ => .ok (hQ.setAttr h _ _)

theorem resize (hQ : KeepsAttrs Q) (h : Q now id) (axis : Axis) (method : Method) (arg : Arg) :
    Gives (Scene.resize now id axis method arg) fun next => Q next id := by
  rw [Scene.resize]
  split
  · exact .after _ fun _ => .ok (hQ.setAttr h _ _)
  split
  · exact .after _ fun _ => .ok (hQ.setAttr h _ _)
  · exact .ok (hQ.setArg h _ arg)

/-- So are the radii and the centre of an ellipse. -/
theorem shapeEllipse (hQ : KeepsAttrs Q) (h : Q now id) (method : Method) : ∀ args : List Arg,
    Gives (Scene.shapeEllipse method now id args) fun next => Q next id
  | [] => .ok h
  | width :: more => by
    have hset : ∀ rx ry : Float, Gives (.ok <| [("rx", rx), ("ry", ry), ("cx", rx), ("cy", ry)].foldl
        (fun doc entry => setNumber doc id entry.1 entry.2) now) fun next => Q next id :=
      fun _ _ => .ok (foldl_keeps Q (fun _ h => hQ.setAttr h _ _) _ h)
    rw [Scene.shapeEllipse]
    refine .after _ fun rx => ?_
    cases more with
    | nil => exact hset _ _
    | cons height more => exact .after _ fun ry => hset _ ry

end KeepsAttrs

namespace KeepsNodes

variable {allowed : String → Prop} {Q : Document → NodeId → Prop} {now : Document} {id : NodeId}

theorem writeOpt (hQ : KeepsNodes allowed Q) (h : Q now id) (arg : Option Arg) :
    Q (Scene.writeOpt now id arg) id := by
  rw [Scene.writeOpt]
  split
  · exact hQ.appendText h _
  · exact h

theorem writeLine (hQ : KeepsNodes allowed Q) (h : Q now id) (index : Nat) (line : String) :
    Q (Scene.writeLine id now index line) id := by
  have hspan := hQ.setAttr (hQ.appendElement h (hQ.allowed_of_ne "tspan" (by decide))) "x" "0"
  rw [Scene.writeLine]
  dsimp only
  split
  · exact hQ.back h (hQ.appendText hspan line) (by simp; omega)
  · exact hQ.back h (hQ.appendText (hQ.setAttr hspan "dy" "1.3em") line) (by simp; omega)

theorem writeText (hQ : KeepsNodes allowed Q) (h : Q now id) (content : String) :
    Q (Scene.writeText now id content) id := by
  rw [Scene.writeText]
  split
  · exact hQ.appendText h content
  · exact foldl_keeps Q (fun _ h => hQ.writeLine h _ _) _ h

/-- Methods that make an element on their target. -/
theorem apply_makes (hQ : KeepsNodes allowed Q) (h : Q now id) {method : Method} (args : List Arg)
    (hmethod : method.family = .makes)
    (helement : method = .element → ∀ tag, textArg .element args.head? = .ok tag → allowed tag) :
    Gives (Scene.apply now id method args) fun result => Q result.1 result.2 := by
  have hadd : ∀ tag : String, tag ≠ "defs" →
      Q (now.appendElement id tag).1 (now.appendElement id tag).2 :=
    fun tag hne => hQ.appendElement h (hQ.allowed_of_ne tag hne)
  rw [Scene.apply.eq_def]
  cases method with
  | rect => exact .ok (hQ.setOpt (hQ.setOpt (hadd "rect" (by decide)) _ _) _ _)
  | circle =>
    have hcircle := hadd "circle" (by decide)
    dsimp only
    split
    · exact .ok hcircle
    · exact .after _ fun _ => .ok (foldl_keeps Q (fun _ h => hQ.setAttr h _ _) _ hcircle)
  | ellipse => exact .bind (hQ.shapeEllipse (hadd "ellipse" (by decide)) _ args) fun _ h => .ok h
  | line => exact .ok (foldl_keeps Q (fun _ h => hQ.setArg h _ _) _ (hadd "line" (by decide)))
  | polyline | polygon | path => exact .ok (hQ.setOpt (hadd _ (by decide)) _ _)
  | image =>
    exact .ok (hQ.setOpt (hQ.setOpt (hQ.setOpt (hadd "image" (by decide)) _ _) _ _) _ _)
  | text =>
    have htext := hadd "text" (by decide)
    dsimp only
    split
    · exact .ok (hQ.writeText htext _)
    · exact .ok htext
  | group | nested => exact .ok (hadd _ (by decide))
  | use | link => exact .after _ fun _ => .ok (hQ.setAttr (hadd _ (by decide)) _ _)
  | style => exact .after _ fun _ => .ok (hQ.appendText (hadd "style" (by decide)) _)
  | element =>
    refine .bind (p := fun tag => allowed tag) (helement rfl) fun tag htag => ?_
    have helement := hQ.appendElement h htag
    dsimp only
    split
    · exact .ok (hQ.setMap helement (fun key => key) _)
    · exact .ok helement
  | tspan => exact .ok (hQ.writeOpt (hadd "tspan" (by decide)) _)
  | _ => cases hmethod

end KeepsNodes

namespace KeepsAttrs

variable {Q : Document → NodeId → Prop} {now : Document} {id : NodeId} {method : Method}

/-- Methods that change attributes of their target. -/
theorem apply_changes (hQ : KeepsAttrs Q) (h : Q now id) (args : List Arg)
    (hmethod : method.family = .changes) :
    Gives (Scene.apply now id method args) fun result => Q result.1 result.2 := by
  rw [Scene.apply.eq_def]
  cases method with
  | attr =>
    dsimp only
    split
    · exact .ok (hQ.setMap h (fun key => key) _)
    · refine .after _ fun attr => ?_
      split
      · exact .ok (hQ.setArg h attr _)
      · exact .error _
    · exact .error _
  -- everything that can fail has failed before the attribute is set
  | id | addClass => exact .after _ fun _ => .ok (hQ.setAttr h _ _)
  | css =>
    dsimp only
    split
    · exact .ok (hQ.restyle h _)
    · exact .after _ fun _ => .after _ fun _ => .ok (hQ.restyle h _)
    · exact .ok (hQ.restyle h _)
  | opacity => exact .ok (hQ.setOpt h _ _)
  | fill | stroke =>
    dsimp only
    split
    · exact .ok (hQ.setMap h _ _)
    · exact .ok (hQ.setOpt h _ _)
  | font =>
    dsimp only
    split
    · exact .ok (hQ.setMap h _ _)
    · exact .after _ fun _ => .after _ fun _ => .ok (hQ.setAttr h _ _)
    · exact .ok h
  | plot =>
    dsimp only
    split
    · exact .ok (hQ.setOpt h _ _)
    · exact .ok (hQ.setOpt h _ _)
    · exact .ok (hQ.setOpt h _ _)
    · exact .error _
  | transform =>
    dsimp only
    split
    · exact .after _ fun _ => .ok (hQ.setAttr h _ _)
    · exact .ok h
  | rotate | translate | scale => exact .after _ fun _ => .ok (hQ.addTransform h _)
  | _ => cases hmethod

/-- Methods that put their target somewhere, or give it a size. -/
theorem apply_places (hQ : KeepsAttrs Q) (h : Q now id) (args : List Arg)
    (hmethod : method.family = .places) :
    Gives (Scene.apply now id method args) fun result => Q result.1 result.2 := by
  rw [Scene.apply.eq_def]
  cases method with
  | move | center =>
    dsimp only
    split
    · exact .bind (hQ.position h _ _ _ _) fun _ h => .bind (hQ.position h _ _ _ _) fun _ h => .ok h
    · exact .error _
  | x | y | cx | cy =>
    dsimp only
    split
    · exact .map (hQ.position h _ _ _ _) fun _ h => h
    · exact .error _
  | size =>
    dsimp only
    split
    · exact .bind (hQ.resize h _ _ _) fun _ h => .bind (hQ.resize h _ _ _) fun _ h => .ok h
    · exact .error _
  | width | height =>
    dsimp only
    split
    · exact .map (hQ.resize h _ _ _) fun _ h => h
    · exact .error _
  | radius =>
    dsimp only
    split
    · split
      · exact .ok (hQ.setArg h _ _)
      · exact .ok (hQ.setArg (hQ.setArg h _ _) _ _)
    · exact .error _
  | _ => cases hmethod

end KeepsAttrs

/-- **What a method does to its target**: it changes attributes, and makes nodes.  The methods that
look for definitions or clear the target are left out. -/
theorem KeepsNodes.apply {allowed : String → Prop} {Q : Document → NodeId → Prop} {now : Document}
    {id : NodeId} (hQ : KeepsNodes allowed Q) (h : Q now id) (method : Method) (args : List Arg)
    (hmethod : method ∉ [Method.defs, .symbol, .plain, .clear])
    (helement : method = .element → ∀ tag, textArg .element args.head? = .ok tag → allowed tag) :
    Gives (Scene.apply now id method args) fun result => Q result.1 result.2 := by
  cases hfamily : method.family with
  | makes => exact hQ.apply_makes h args hfamily helement
  | changes => exact hQ.apply_changes h args hfamily
  | places => exact hQ.apply_places h args hfamily
  | rebuilds => exact absurd (Method.mem_of_rebuilds hfamily) hmethod
  | asks =>
    obtain rfl := Method.eq_of_asks hfamily
    exact .error _

/-! ## Drawing where it may

The target is a node to begin with, and then the node that a method answered with.  Where it may
draw is thus carried along by the invariant: it holds of the node at hand, whichever that is by now.
-/

/-- A document was drawn from another by drawing on a target, and drawing may go on at a node of
it. -/
structure Ready (doc : Document) (target : NodeId) (keeps : Prop) (now : Document) (id : NodeId) :
    Prop where
  drawn : doc.Drawn target keeps now
  within : doc.Within target id
  lt : id < now.nodes.size

namespace Ready

variable {doc now next : Document} {target id node : NodeId} {keeps : Prop}

/-! ### Attributes

A node that may be drawn on may have its attributes changed, and this is all that most methods do.
-/

theorem setAttr (h : Ready doc target keeps now id) (name value : String) :
    Ready doc target keeps (now.setAttr id name value) id where
  drawn := h.drawn.setAttr h.within name value
  within := h.within
  lt := by simpa using h.lt

theorem removeAttr (h : Ready doc target keeps now id) (name : String) :
    Ready doc target keeps (now.removeAttr id name) id where
  drawn := h.drawn.removeAttr h.within name
  within := h.within
  lt := by simpa using h.lt

theorem keepsAttrs : KeepsAttrs (Ready doc target keeps) where
  setAttr := setAttr
  removeAttr := removeAttr

theorem setArg (h : Ready doc target keeps now id) (attr : String) (arg : Arg) :
    Ready doc target keeps (Scene.setArg now id attr arg) id :=
  keepsAttrs.setArg h attr arg

theorem setOpt (h : Ready doc target keeps now id) (attr : String) (arg : Option Arg) :
    Ready doc target keeps (Scene.setOpt now id attr arg) id :=
  keepsAttrs.setOpt h attr arg

theorem position (h : Ready doc target keeps now id) (axis : Axis) (anchor : Anchor)
    (method : Method) (arg : Arg) : Gives (Scene.position now id axis anchor method arg)
      fun next => Ready doc target keeps next id :=
  keepsAttrs.position h axis anchor method arg

theorem resize (h : Ready doc target keeps now id) (axis : Axis) (method : Method) (arg : Arg) :
    Gives (Scene.resize now id axis method arg) fun next => Ready doc target keeps next id :=
  keepsAttrs.resize h axis method arg

/-! ### New nodes

What is made below a node that may be drawn on is new, so it may be drawn on as well.  The old node
may be drawn on still, and so may the root where definitions are made in front of its children. -/

theorem appendText (h : Ready doc target keeps now id) (content : String) :
    Ready doc target keeps (now.appendText id content).1 id where
  drawn := h.drawn.appendText h.within h.lt content
  within := h.within
  lt := by simpa using Nat.lt_succ_of_lt h.lt

/-- A new element below a node that may be drawn on may be drawn on, and so may the node still. -/
theorem appendElement (hdoc : doc.WellFormed) (h : Ready doc target keeps now id) (tag : String) :
    Ready doc target keeps (now.appendElement id tag).1 (now.appendElement id tag).2 where
  drawn := h.drawn.appendElement h.within h.lt tag
  within := .inr (.inl (h.drawn.framed hdoc).size_le)
  lt := by simp [Document.appendElement, Document.pushNode]

/-- Drawing goes back to an old node. -/
theorem back (h : Ready doc target keeps now id) (hnext : Ready doc target keeps next node)
    (hsize : now.nodes.size ≤ next.nodes.size) : Ready doc target keeps next id where
  drawn := hnext.drawn
  within := h.within
  lt := Nat.lt_of_lt_of_le h.lt hsize

theorem keepsNodes (hdoc : doc.WellFormed) :
    KeepsNodes (fun _ => True) (Ready doc target keeps) where
  toKeepsAttrs := keepsAttrs
  appendElement h tag _ := h.appendElement hdoc tag
  appendText := appendText
  back := back
  allowed_of_ne _ _ := trivial

theorem writeLine (hdoc : doc.WellFormed) (h : Ready doc target keeps now id) (index : Nat)
    (line : String) : Ready doc target keeps (Scene.writeLine id now index line) id :=
  (keepsNodes hdoc).writeLine h index line

/-- **The definitions of a drawing may be drawn on**, found or made. -/
theorem defs (hdoc : doc.WellFormed) (h : Ready doc target keeps now id) :
    Ready doc target keeps (Scene.defs now).1 (Scene.defs now).2 := by
  have hframed := h.drawn.framed hdoc
  rw [Scene.defs]
  split
  · next found hfound =>
    have hchild := List.mem_of_find?_eq_some hfound
    have htag : now.tag? found = some "defs" := by simpa using List.find?_some hfound
    refine ⟨h.drawn, ?_, Document.lt_of_tag? htag⟩
    rcases hframed.root_children found hchild with hold | hnew
    · refine .inr (.inr ⟨hold, ?_⟩)
      rw [← hframed.tag?_eq found (hdoc.children_after hold).2]
      exact htag
    · exact .inr (.inl hnew)
  · next hnone =>
    have hroot : Document.root < now.nodes.size := Nat.lt_of_lt_of_le hdoc.root_lt hframed.size_le
    have hdrawn := h.drawn.defs hroot fun child hchild => by
      simpa using List.find?_eq_none.1 hnone child hchild
    refine ⟨hdrawn, .inr (.inl hframed.size_le), ?_⟩
    rw [Document.size_prependElement]
    exact Nat.lt_succ_self _

/-! ### The methods

All methods but two do no more than change attributes and make nodes, so they are done with by
`KeepsNodes.apply`.  The others look for definitions or clear. -/

theorem clear (h : Ready doc target keeps now id) (hroot : keeps → id ≠ Document.root) :
    Ready doc target keeps (now.clear id) id where
  drawn := h.drawn.clear h.within hroot
  within := h.within
  lt := by simpa using h.lt

/-- **A method draws where it may**, and so may calls on the node that it answers with.  The two
methods that clear their target are not called on a root that is to keep its children. -/
theorem apply (hdoc : doc.WellFormed) (h : Ready doc target keeps now id) (method : Method)
    (args : List Arg)
    (hclear : keeps → id = Document.root → method ≠ .clear ∧ method ≠ .plain) :
    Gives (Scene.apply now id method args)
      fun result => Ready doc target keeps result.1 result.2 := by
  by_cases hmethod : method ∈ [Method.defs, .symbol, .plain, .clear]
  · simp only [List.mem_cons, List.not_mem_nil, or_false] at hmethod
    rcases hmethod with rfl | rfl | rfl | rfl
    · exact .ok (h.defs hdoc)
    · exact .ok ((h.defs hdoc).appendElement hdoc "symbol")
    · have hroot : keeps → id ≠ Document.root := fun hkeeps heq => (hclear hkeeps heq).2 rfl
      exact .ok ((keepsNodes hdoc).writeOpt (h.clear hroot) _)
    · exact .ok (h.clear fun hkeeps heq => (hclear hkeeps heq).1 rfl)
  · exact (keepsNodes hdoc).apply h method args hmethod fun _ _ _ => trivial

end Ready
end Scene
end Frontispiece
