import Frontispiece.Deferred.Pass
import Frontispiece.Template.Parse
import Frontispiece.Template.Render

/-!
# Compiling templates

`compile` evaluates a template and fills in the statistics that it asked for.  While it is
evaluated, a statistic is a handle of a `Deferred.Pass`; when it is done, the pass is resolved with
the provider of the build.

What a compilation leaves behind for the next is the `Desk`: the memo of the provider, the number of
passes so far, and the lines of the log.
-/

set_option autoImplicit false

namespace Frontispiece
namespace Template

/-- What templates are compiled with. -/
structure Compiler where
  version : String
  time : Calendar.Instant
  static : String
  provider : Stats.Provider
  /-- The nonce of each pass by its number. -/
  nonce : Nat → UInt64

/-- What is kept from one compilation to the next. -/
structure Desk where
  memo : Stats.Memo
  passes : Nat
  /-- What was logged, latest first. -/
  log : List String

/-- Nothing compiled yet. -/
def Desk.empty : Desk := ⟨.empty, 0, []⟩

/-- The output of a template while statistics are to come. -/
structure Draft where
  pass : Deferred.Pass Stats.Request
  desk : Desk

/-- Writing to a pass, and asking a provider for what it will need. -/
def draftOutput (provider : Stats.Provider) : Output Draft where
  write text d := { d with pass := d.pass.pushText text.toUTF8 }
  fetch request d :=
    let (isNew, memo) := provider.request d.desk.memo request.user
    let log :=
      if isNew then ("fetching github statistics for '" ++ request.user ++ "'") :: d.desk.log
      else d.desk.log
    let (pass, ticket) := d.pass.enqueue request
    (pass.handle ticket, { pass, desk := { d.desk with memo, log } })
  place value d :=
    match d.pass.placeValue value with
    | .ok pass => (.ok (), { d with pass })
    | .error (fault, pass) => (.error fault, { d with pass })

/-- Awaits a statistic. -/
def await (provider : Stats.Provider) (request : Stats.Request) :
    StateM Stats.Memo (Except Fault Json) := do
  let (answer, memo) := provider.stat (← get) request
  set memo
  pure (answer.mapError .stats)

/-- The output with its statistics filled in. -/
def settle (provider : Stats.Provider) (d : Draft) : Except Fault String × Desk :=
  let awaited := d.pass.placed.length
  let log := ("awaiting " ++ toString awaited ++ " deferred value(s)") :: d.desk.log
  let (result, memo) := (d.pass.resolve (await provider)).run d.desk.memo
  (result, { d.desk with memo, log })

/-- The text of a template with its data, when `files` are there to be read. -/
def compile (c : Compiler) (files : Files.FileTree) (source : String) (data : Json) (desk : Desk) :
    Except Fault String × Desk :=
  let draft : Draft := ⟨.new (c.nonce desk.passes), { desk with passes := desk.passes + 1 }⟩
  match ofText? source.toList with
  | none => (.error .evaluation, draft.desk)
  | some template =>
    let setting : Setting := ⟨c.version, c.time, c.static, files⟩
    match render setting (draftOutput c.provider) data template draft with
    | (.ok (), draft) => settle c.provider draft
    | (.error fault, draft) => (.error ((draft.pass.takeError).1.getD fault), draft.desk)

end Template
end Frontispiece
