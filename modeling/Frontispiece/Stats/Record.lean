import Frontispiece.Files.Tree
import Frontispiece.Json.Reader

/-!
# Statistics of a user

A `Record` holds the counts of one user.  In data it is an object with one field for each count;
`Record.stat` looks a count up by the name of its field.

A `Snapshot` is a set of records by user name.  It is read from an object of records; a record may
be written as an object, in which unknown fields are skipped and no field comes twice, or as an
array of its values in order.
-/

set_option autoImplicit false

namespace Frontispiece
namespace Stats

/-- Why there is no statistic. -/
inductive Fault where
  /-- The snapshot could not be read. -/
  | unreadable (path : String) (cause : Files.Fault)
  /-- The snapshot is none. -/
  | malformed (path : String)
  | unknownUser (user : String)
  | missingStat (name : String)
  deriving DecidableEq, Repr

/-- The text of a fault; that of a malformed snapshot names only its path. -/
def Fault.message : Fault → String
  | .unreadable path cause =>
    "failed to read statistics from " ++ "'" ++ path ++ "': " ++ cause.message
  | .malformed path => "invalid statistics in '" ++ path ++ "'"
  | .unknownUser user => "no statistics for user '" ++ user ++ "'"
  | .missingStat name => "missing github stat: '" ++ name ++ "'"

/-- The counts of one user. -/
structure Record where
  username : String
  repos : UInt64
  contributedRepos : UInt64
  commits : UInt64
  stars : UInt64
  followers : UInt64
  linesOfCode : Int64
  linesOfCodeAdded : UInt64
  linesOfCodeRemoved : UInt64
  deriving DecidableEq

namespace Record

/-- The record of a user of whom nothing is known. -/
def placeholder (username : String) : Record :=
  ⟨username, 0, 0, 0, 0, 0, 1, 2, 1⟩

/-- A count as data. -/
def count (n : UInt64) : Json := Json.int n.toNat

/-- The fields of a record. -/
def fields (r : Record) : Fields Json :=
  [("username", .string r.username), ("repos", count r.repos),
    ("contributedRepos", count r.contributedRepos), ("commits", count r.commits),
    ("stars", count r.stars), ("followers", count r.followers),
    ("linesOfCode", Json.int r.linesOfCode.toInt), ("linesOfCodeAdded", count r.linesOfCodeAdded),
    ("linesOfCodeRemoved", count r.linesOfCodeRemoved)]

/-- A record as data. -/
def toJson (r : Record) : Json := .object r.fields

/-- The field of a name. -/
def stat (r : Record) (name : String) : Except Fault Json :=
  match r.fields.get? name with
  | some value => .ok value
  | none => .error (.missingStat name)

/-- The names of the fields in order. -/
def names : List String :=
  (placeholder "").fields.keys

/-- A count from data. -/
def readCount? (value : Json) : Option UInt64 :=
  value.natural?.map UInt64.ofNat

/-- A signed count from data. -/
def readSigned? : Json → Option Int64
  | .number (.int n) => if -(Nat.pow 2 63 : Int) ≤ n ∧ n < Nat.pow 2 63 then some (Int64.ofInt n) else none
  | _ => none

/-- A record from the values of its fields in order. -/
def ofValues? : List Json → Option Record
  | [.string username, a, b, c, d, e, f, g, h] => do
    some ⟨username, ← readCount? a, ← readCount? b, ← readCount? c, ← readCount? d,
      ← readCount? e, ← readSigned? f, ← readCount? g, ← readCount? h⟩
  | _ => none

/-- The only field of a name. -/
def only? (fields : List (String × Json)) (name : String) : Option Json :=
  match fields.filter (·.1 == name) with
  | [(_, value)] => some value
  | _ => none

/-- A record from data in which repeated keys are kept apart. -/
def ofJson? : Json → Option Record
  | .array items => ofValues? items
  | .object fields => (names.mapM (only? fields)).bind ofValues?
  | _ => none

end Record

/-- Records by user name. -/
structure Snapshot where
  records : Fields Record

namespace Snapshot

/-- The snapshot of a text; of records with one name the last counts. -/
def ofText? (s : List Char) : Option Snapshot := do
  match Json.document? s with
  | .ok (.object fields) =>
    let records ← fields.mapM fun (name, value) => (Record.ofJson? value).map (name, ·)
    some ⟨Fields.ofList records⟩
  | _ => none

/-- The record of a user. -/
def fetch (s : Snapshot) (user : String) : Except Fault Record :=
  match s.records.get? user with
  | some r => .ok r
  | none => .error (.unknownUser user)

/-- The snapshot in a file. -/
def load (files : Files.FileTree) (path : String) : Except Fault Snapshot :=
  match files.readText path with
  | .error cause => .error (.unreadable path cause)
  | .ok text =>
    match ofText? text.toList with
    | some s => .ok s
    | none => .error (.malformed path)

end Snapshot
end Stats
end Frontispiece
