import Frontispiece.Json.Printer
import Frontispiece.Template.Fault

/-!
# Deferred values

While a template is evaluated, some values are not known yet.  A `Pass` keeps the output of one
evaluation as segments of text and places for such values.  `enqueue` hands out a ticket for a
value to come, `place` puts the ticket at the current place of the output, and `resolve` awaits
every value that was placed, each once and in the order of their tickets, and joins the output.

In template data a ticket travels as a *handle*, an object of the ticket and the nonce of its pass;
`ticketOf?` takes a handle of its own pass and no other value.
-/

set_option autoImplicit false

namespace Frontispiece
namespace Deferred

/-- A piece of output. -/
inductive Segment where
  | text (bytes : ByteArray)
  | pending (ticket : Nat)

/-- Whether a piece stands for the value of a ticket. -/
def Segment.isFor (ticket : Nat) : Segment → Bool
  | .text _ => false
  | .pending other => other == ticket

/-- The key of the ticket in a handle. -/
def handleKey : String := "$deferred"

/-- The key of the nonce in a handle. -/
def passKey : String := "$pass"

/-- The output of one evaluation so far, with the values to come. -/
structure Pass (α : Type) where
  nonce : UInt64
  segments : List Segment
  pending : List α
  error : Option Template.Fault

namespace Pass

variable {α : Type}

/-- A pass with no output. -/
def new (nonce : UInt64) : Pass α := ⟨nonce, [], [], none⟩

/-- A ticket as a template value. -/
def handle (p : Pass α) (ticket : Nat) : Json :=
  .object [(handleKey, Json.int ticket), (passKey, Json.int p.nonce.toNat)]

/-- The ticket of a handle of this pass. -/
def ticketOf? (p : Pass α) : Json → Option Nat
  | .object fields =>
    if fields.length == 2 &&
        (Fields.get? fields passKey).bind Json.natural? == some p.nonce.toNat then
      (Fields.get? fields handleKey).bind Json.natural?
    else none
  | _ => none

/-- A value to come, and its ticket. -/
def enqueue (p : Pass α) (value : α) : Pass α × Nat :=
  ({ p with pending := p.pending ++ [value] }, p.pending.length)

/-- A ticket placed at the end of the output; it must have been handed out. -/
def place (p : Pass α) (ticket : Nat) : Except Template.Fault (Pass α) :=
  if ticket < p.pending.length then
    .ok { p with segments := p.segments ++ [.pending ticket] }
  else .error (.notDeferred (p.handle ticket).render)

/-- Segments with text at their end, in one segment with the text before it. -/
def appendText (bytes : ByteArray) : List Segment → List Segment
  | [] => [.text bytes]
  | [.text before] => [.text (before ++ bytes)]
  | segment :: rest => segment :: appendText bytes rest

/-- Text at the end of the output. -/
def pushText (p : Pass α) (bytes : ByteArray) : Pass α :=
  { p with segments := appendText bytes p.segments }

/-- The first fault is kept. -/
def recordError (p : Pass α) (fault : Template.Fault) : Pass α :=
  { p with error := p.error <|> some fault }

/-- The fault that was kept, and the pass without it. -/
def takeError (p : Pass α) : Option Template.Fault × Pass α :=
  (p.error, { p with error := none })

/-- A template value placed as the handle it should be.  A fault is also recorded. -/
def placeValue (p : Pass α) (value : Json) : Except (Template.Fault × Pass α) (Pass α) :=
  let placed :=
    match p.ticketOf? value with
    | some ticket => p.place ticket
    | none => .error (.notDeferred value.render)
  match placed with
  | .ok p => .ok p
  | .error fault => .error (fault, p.recordError fault)

/-- Whether a ticket is placed anywhere. -/
def isPlaced (p : Pass α) (ticket : Nat) : Bool :=
  p.segments.any (Segment.isFor ticket)

/-- The tickets that are placed with their values, in the order of the tickets. -/
def placed (p : Pass α) : List (Nat × α) :=
  (p.pending.zipIdx.filter fun (_, ticket) => p.isPlaced ticket).map fun (value, ticket) =>
    (ticket, value)

/-- What is left of a pass when it is resolved. -/
def emptied (p : Pass α) : Pass α :=
  { p with segments := [], pending := [] }

/-- The text that stands for a value: a string itself, any other value as data. -/
def valueText : Json → String
  | .string s => s
  | value => value.render

/-- The output with resolved values in their places. -/
def joinSegments (p : Pass α) (resolved : List (Nat × Json)) :
    List Segment → Except Template.Fault ByteArray
  | [] => .ok ByteArray.empty
  | .text bytes :: rest => do
    let after ← p.joinSegments resolved rest
    .ok (bytes ++ after)
  | .pending ticket :: rest =>
    match resolved.lookup ticket with
    | none => .error (.notDeferred (p.handle ticket).render)
    | some value => do
      let after ← p.joinSegments resolved rest
      .ok ((valueText value).toUTF8 ++ after)

/-- Awaits values in order, up to the first that fails. -/
def awaitAll {m : Type → Type} [Monad m] (await : α → m (Except Template.Fault Json)) :
    List (Nat × α) → m (Except Template.Fault (List (Nat × Json)))
  | [] => pure (.ok [])
  | (ticket, value) :: rest => do
    match ← await value with
    | .error fault => pure (.error fault)
    | .ok value => do
      match ← awaitAll await rest with
      | .error fault => pure (.error fault)
      | .ok values => pure (.ok ((ticket, value) :: values))

/-- The output once every placed value is known. -/
def resolve {m : Type → Type} [Monad m] (await : α → m (Except Template.Fault Json))
    (p : Pass α) : m (Except Template.Fault String) := do
  match ← awaitAll await p.placed with
  | .error fault => pure (.error fault)
  | .ok resolved =>
    match p.joinSegments resolved p.segments with
    | .error fault => pure (.error fault)
    | .ok bytes =>
      match String.fromUTF8? bytes with
      | some text => pure (.ok text)
      | none => pure (.error .encoding)

end Pass
end Deferred
end Frontispiece
