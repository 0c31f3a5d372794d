import Frontispiece.Template.Helper

/-!
# Evaluating templates

A template is evaluated over a state of any type `σ` to which it can write; `Output` says how
text is written, what value stands for a statistic that is known later, and how a value is put in
the place of text.  So one evaluation serves every way to come by statistics.

* `eval` gives the value of an expression, `render` writes elements.
* A partial is rendered at most `maxDepth` levels deep.
-/

set_option autoImplicit false

namespace Frontispiece
namespace Template

/-- What an evaluation writes to. -/
structure Output (σ : Type) where
  write : String → σ → σ
  /-- The value that stands for a statistic. -/
  fetch : Stats.Request → σ → Json × σ
  /-- Puts what a value stands for at the end of the output. -/
  place : Json → σ → Except Fault Unit × σ

/-- The state of an evaluation: what was written, and the partials that are defined. -/
structure Progress (σ : Type) where
  written : σ
  partials : Fields (List Element)

/-- A step of an evaluation. -/
abbrev Eval (σ : Type) : Type → Type := ExceptT Fault (StateM (Progress σ))

variable {σ : Type}

/-- A result that does not touch the state. -/
def pureResult {α : Type} (result : Except Fault α) : Eval σ α :=
  match result with
  | .ok a => pure a
  | .error fault => throw fault

/-- A text with an indent after each of its line ends but a last one. -/
def indented (indent : List Char) : List Char → List Char
  | [] => []
  | '\n' :: c :: rest => '\n' :: indent ++ indented indent (c :: rest)
  | c :: rest => c :: indented indent rest

/-- Writes a text with the indent of the place. -/
def write (out : Output σ) (scope : Scope) (text : String) : Eval σ Unit :=
  let text := match scope.indent with
    | some indent => String.ofList (indented indent.toList text.toList)
    | none => text
  modify fun p => { p with written := out.write text p.written }

/-- The value that stands for a statistic. -/
def fetch (out : Output σ) (request : Stats.Request) : Eval σ Json := do
  let p ← get
  let (value, written) := out.fetch request p.written
  set { p with written }
  pure value

/-- Puts what a value stands for into the output. -/
def place (out : Output σ) (value : Json) : Eval σ Unit := do
  let p ← get
  let (result, written) := out.place value p.written
  set { p with written }
  pureResult result

/-! ## Expressions

An expression is a literal, a path, or the call of a helper, whose arguments are evaluated before
it. -/

/-- The name that a head is known by, when `evaluated` is its value. -/
def nameOf (evaluated : Eval σ Found) : Expr → Eval σ String
  | .name text => pure text
  | .path _ text => pure text
  | .literal value => pure (shown value)
  | .call .. => do
    let found ← evaluated
    pure (shown found.json)

/-- The act of the helper of a name. -/
def actOf (setting : Setting) (scope : Scope) (u : Helper.Use) : Eval σ Act :=
  match Helper.ofName? u.name with
  | some helper => pureResult (helper.act setting scope u)
  | none => throw .evaluation

/-- What an act stands for inside an expression.  A helper that chooses a body has none there. -/
def actValue (out : Output σ) : Act → Eval σ Found
  | .value value => pure (.value value)
  | .statistic request => do
    let value ← fetch out request
    pure (.value value)
  | .place helper _ => throw (.helper (helper ++ " must be used in output position"))
  | .body _ => pure (.value (.string ""))
  | .opposite => pure (.value (.string ""))

mutual

/-- What an expression stands for. -/
def eval (setting : Setting) (out : Output σ) (scope : Scope) : Expr → Eval σ Found
  | .name _ => pure .missing
  | .path path _ => pureResult (scope.resolve path)
  | .literal value => pure (.value value)
  | .call head args named => do
    let name ← nameOf (eval setting out scope head) head
    let args ← evalAll setting out scope args
    let named ← evalNamed setting out scope named
    let act ← actOf setting scope ⟨name, args, named, []⟩
    actValue out act

/-- What expressions stand for, in order. -/
def evalAll (setting : Setting) (out : Output σ) (scope : Scope) :
    List Expr → Eval σ (List Found)
  | [] => pure []
  | e :: rest => do
    let found ← eval setting out scope e
    let others ← evalAll setting out scope rest
    pure (found :: others)

/-- What arguments by name stand for, in order. -/
def evalNamed (setting : Setting) (out : Output σ) (scope : Scope) :
    List (String × Expr) → Eval σ (List (String × Found))
  | [] => pure []
  | (name, e) :: rest => do
    let found ← eval setting out scope e
    let others ← evalNamed setting out scope rest
    pure ((name, found) :: others)

end

/-- A call with its arguments evaluated. -/
def evalCall (setting : Setting) (out : Output σ) (scope : Scope) (call : Call)
    (names : List String) : Eval σ Helper.Use := do
  let name ← nameOf (eval setting out scope call.head) call.head
  let args ← evalAll setting out scope call.args
  let named ← evalNamed setting out scope call.named
  pure ⟨name, args, named, names⟩

/-! ## Partials

A partial is rendered in a scope of its own, which starts where its first argument lies and has its
arguments by name. -/

/-- The name under which a partial finds the body that was handed to it. -/
def bodyName : String := "@partial-block"

/-- Carries out a decorator, the only one of which defines a partial. -/
def decorate (setting : Setting) (out : Output σ) (scope : Scope) (call : Call)
    (body : Option (List Element)) : Eval σ Unit := do
  let u ← evalCall setting out scope call []
  match u.name, (u.args.head?).map Found.json, body with
  | "inline", some (.string name), some body =>
    modify fun p => { p with partials := Fields.insert name body p.partials }
  | _, _, _ => throw .evaluation

/-- Carries out the decorators among elements. -/
def decorateAll (setting : Setting) (out : Output σ) (scope : Scope) :
    List Element → Eval σ Unit
  | [] => pure ()
  | .decorator call body :: rest => do
    decorate setting out scope call body
    decorateAll setting out scope rest
  | _ :: rest => decorateAll setting out scope rest

/-- The partial of a name. -/
def partial? (scope : Scope) (partials : Fields (List Element)) (name : String) :
    Option (List Element) :=
  if name == bodyName then scope.bodies[scope.depth]? else Fields.get? partials name

/-- The scope inside a partial.  Its first argument, if it lies in the data, becomes what paths
start from, and arguments by name are added to that. -/
def partialScope (scope : Scope) (u : Helper.Use) (indent : Option String)
    (handed : Option (List Element)) : Except Fault Scope := do
  let depth := if u.name == bodyName then scope.depth + 1 else scope.depth - 1
  let blocks := match u.args.head? with
    | some (.inData keys _) => [{ keys := keys }]
    | _ => scope.blocks
  let blocks ←
    if u.named.isEmpty then .ok blocks
    else do
      let block := (blocks.head?).getD {}
      let current ← Scope.relative { scope with blocks := [block] } 0 []
      let fields := match current.json with
        | .object fields => fields
        | _ => []
      let fields := u.named.foldl (fun fields (name, found) => Fields.insert name found.json fields)
        fields
      .ok [{ block with value := some (.object fields) }]
  .ok { scope with blocks, depth, indent, bodies := handed.toList ++ scope.bodies }

/-! ## Elements

A template is a list of elements, and elements hold templates.  Partials are not below their call,
which is why their rendering is handed in. -/

mutual

/-- Writes an element; `insert` renders a partial. -/
def renderElement (setting : Setting) (out : Output σ)
    (insert : Scope → List Element → Eval σ Unit) (scope : Scope) : Element → Eval σ Unit
  | .text text => write out scope text
  | .comment => pure ()
  | .output call => do
    let name ← nameOf (eval setting out scope call.head) call.head
    if call.args.isEmpty && call.named.isEmpty && (Helper.ofName? name).isNone then
      match ← eval setting out scope call.head with
      | .missing => pure ()
      | found => write out scope (shown found.json)
    else
      let u ← evalCall setting out scope call []
      match ← actOf setting scope u with
      | .value value => write out scope (shown value)
      | .statistic request => do
        let value ← fetch out request
        place out value
      | .place _ value => place out value
      | .body _ => pure ()
      | .opposite => pure ()
  | .block call names body inverse => do
    let u ← evalCall setting out scope call names
    match ← actOf setting scope u with
    | .value value => write out scope (shown value)
    | .statistic request => do
      let value ← fetch out request
      place out value
    | .place _ value => place out value
    | .body scopes => scopes.forM fun scope => renderAll setting out insert scope body
    | .opposite => renderAll setting out insert scope inverse
  | .decorator call body => decorate setting out scope call body
  | .insertion call indent isBlock body => do
    let u ← evalCall setting out scope call []
    decorateAll setting out scope body
    let p ← get
    let handed := if isBlock then some body else none
    match partial? scope p.partials u.name <|> handed with
    | none => pure ()
    | some elements => do
      let inner ← pureResult (partialScope scope u indent handed)
      insert inner elements
      modify fun after => { after with partials := p.partials }

/-- Writes elements in order. -/
def renderAll (setting : Setting) (out : Output σ)
    (insert : Scope → List Element → Eval σ Unit) (scope : Scope) : List Element → Eval σ Unit
  | [] => pure ()
  | e :: rest => do
    renderElement setting out insert scope e
    renderAll setting out insert scope rest

end

/-- Writes elements with partials at most so many levels deep. -/
def renderWithin (setting : Setting) (out : Output σ) :
    Nat → Scope → List Element → Eval σ Unit
  | 0 => fun _ _ => throw .evaluation
  | fuel + 1 => renderAll setting out (renderWithin setting out fuel)

/-- How deep partials may nest. -/
def maxDepth : Nat := 1000

/-- Writes a template with its data. -/
def render (setting : Setting) (out : Output σ) (data : Json) (template : Template) (start : σ) :
    Except Fault Unit × σ :=
  let (result, progress) := (renderWithin setting out maxDepth { data } template).run ⟨start, []⟩
  (result, progress.written)

end Template
end Frontispiece
