import Frontispiece.Stats.Record

/-!
# The provider of statistics

A `Provider` asks a `Source` for the records of users, each user at most once: what a source
answered, also when it failed, is kept in the `Memo`.  Without a token that the source needs, and
in debug mode, the provider answers with placeholder records and asks nobody.

A request is first made and later awaited.  `request` only notes the user; the source is asked
when a request for the user is first awaited.
-/

set_option autoImplicit false

namespace Frontispiece
namespace Stats

/-- Where records come from. -/
structure Source where
  fetch : String → Except Fault Record
  /-- Whether a token is needed. -/
  needsToken : Bool

/-- The source of placeholder records. -/
def Source.placeholder : Source where
  fetch user := .ok (Record.placeholder user)
  needsToken := false

/-- A source in front of a provider. -/
structure Provider where
  source : Source
  token : Option String
  debug : Bool

/-- The users that were asked for, with the answer for those that were awaited, and the number of
times the source was asked. -/
structure Memo where
  users : Fields (Option (Except Fault Record))
  fetches : Nat

/-- Nothing asked for yet. -/
def Memo.empty : Memo := ⟨[], 0⟩

/-- One statistic of one user. -/
structure Request where
  user : String
  field : String
  deriving DecidableEq, Repr

namespace Provider

/-- The variables that may hold a token, in the order in which they are looked at. -/
def tokenVariables : List String := ["PERSONAL_ACCESS_TOKEN", "GITHUB_TOKEN"]

/-- The token in an environment: what the first variable that is set holds, unless that is
empty. -/
def token? (environment : String → Option String) : Option String :=
  (tokenVariables.findSome? environment).filter fun token => !token.isEmpty

/-- A provider in an environment. -/
def ofEnvironment (environment : String → Option String) (source : Source) : Provider :=
  ⟨source, token? environment, false⟩

/-- Whether placeholder records are used. -/
def usesPlaceholder (p : Provider) : Bool :=
  p.debug || (p.source.needsToken && p.token.isNone)

/-- The memo after a user was asked for, and whether the user is new. -/
def request (p : Provider) (memo : Memo) (user : String) : Bool × Memo :=
  if p.usesPlaceholder || memo.users.contains user then (false, memo)
  else (true, { memo with users := memo.users.insert user none })

/-- The record of a user, and the memo after it was awaited. -/
def record (p : Provider) (memo : Memo) (user : String) : Except Fault Record × Memo :=
  if p.usesPlaceholder then (.ok (Record.placeholder user), memo)
  else
    match memo.users.get? user with
    | some (some answer) => (answer, memo)
    | _ =>
      let answer := p.source.fetch user
      (answer, ⟨memo.users.insert user (some answer), memo.fetches + 1⟩)

/-- A statistic, and the memo after it was awaited. -/
def stat (p : Provider) (memo : Memo) (r : Request) : Except Fault Json × Memo :=
  let (answer, memo) := p.record memo r.user
  (answer.bind fun record => record.stat r.field, memo)

/-- Statistics in order up to the first that fails, and the memo after they were awaited
together. -/
def joinStats (p : Provider) (memo : Memo) : List Request → Except Fault (List Json) × Memo
  | [] => (.ok [], memo)
  | r :: rest =>
    match p.stat memo r with
    | (.error fault, memo) => (.error fault, memo)
    | (.ok value, memo) =>
      let (values, memo) := p.joinStats memo rest
      (values.map (value :: ·), memo)

end Provider
end Stats
end Frontispiece
