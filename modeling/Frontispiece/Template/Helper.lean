import Frontispiece.Calendar.Instant
import Frontispiece.Files.Media
import Frontispiece.Files.Tree
import Frontispiece.Json.Compare
import Frontispiece.Stats.Provider
import Frontispiece.Template.Fault
import Frontispiece.Template.Syntax
import Frontispiece.Text.Base64

/-!
# Helpers

A helper is called with values and answers with an `Act`: a value, or what is to be done with its
bodies.  `Helper.act` is a plain function of its arguments and of the `Setting` of the build; what
becomes of an act depends on where the call stands.

A `Scope` holds the values that paths start from: the data, and the blocks around the place,
innermost first.
-/

set_option autoImplicit false

namespace Frontispiece
namespace Template

/-! ## Values

A value may be missing, and it may lie in the data.  Where it lies is kept, since blocks and
partials start from there. -/

/-- What an expression stands for. -/
inductive Found where
  | missing
  /-- A value that lies in the data, under some keys. -/
  | inData (keys : List String) (value : Json)
  | value (value : Json)

namespace Found

/-- The value; null when it is missing. -/
def json : Found → Json
  | .missing => .null
  | .inData _ v => v
  | .value v => v

end Found

mutual

/-- The text by which a value is shown. -/
def shown : Json → String
  | .null => ""
  | .bool true => "true"
  | .bool false => "false"
  | .number n => String.ofList (Json.numberText n)
  | .string s => s
  | .array items => "[" ++ shownItems items ++ "]"
  | .object _ => "[object]"

/-- Shown values with commas between them. -/
def shownItems : List Json → String
  | [] => ""
  | [item] => shown item
  | item :: rest => shown item ++ ", " ++ shownItems rest

end

/-- The smallest double that has all its digits. -/
def leastNormal : Float := Float.scaleB 1.0 (-1022)

/-- Whether a value counts as true; zero, and a double next to it, only if it is `included`. -/
def isTruthy (included : Bool) : Json → Bool
  | .null => false
  | .bool b => b
  | .number n => included || leastNormal ≤ n.toFloat.abs
  | .string s => !s.isEmpty
  | .array items => !items.isEmpty
  | .object fields => !fields.isEmpty

/-! ## Scopes

A path is resolved in the innermost block.  It may go up to blocks around it, and names that a block
gives come before the keys of its value. -/

/-- What a block gives a name to. -/
inductive Binding where
  /-- The value of the block itself, by its place in the data. -/
  | here
  | value (value : Json)

/-- A block: what paths in it start from, and its names. -/
structure Block where
  /-- The keys of its value in the data. -/
  keys : List String := []
  /-- Its value, when it does not lie in the data. -/
  value : Option Json := none
  names : List (String × Binding) := []
  locals : Fields Json := []

/-- Where an expression is evaluated. -/
structure Scope where
  data : Json
  blocks : List Block := [{}]
  /-- The bodies that were handed to partials, innermost first. -/
  bodies : List (List Element) := []
  /-- How many of those bodies the place lies in. -/
  depth : Nat := 0
  indent : Option String := none

/-- The position that a text names in an array. -/
def position? (key : String) : Option Nat :=
  let digits := match key.toList with
    | '+' :: rest => rest
    | s => s
  if digits.isEmpty || !digits.all Char.isDigit then none
  else
    let n := digits.foldl (fun n c => n * 10 + (c.toNat - '0'.toNat)) 0
    if n < Nat.pow 2 64 then some n else none

/-- The value under a key.  An array has only positions. -/
def child (key : String) : Json → Except Fault (Option Json)
  | .array items =>
    match position? key with
    | some n => .ok items[n]?
    | none => .error .evaluation
  | .object fields => .ok (Fields.get? fields key)
  | _ => .ok none

/-- The value under keys, one below the other. -/
def descend (value : Json) : List String → Except Fault (Option Json)
  | [] => .ok (some value)
  | key :: rest => do
    match ← child key value with
    | none => .ok none
    | some value => descend value rest

namespace Scope

/-- What lies in the data under keys. -/
def absolute (scope : Scope) (keys : List String) : Except Fault Found := do
  match ← descend scope.data keys with
  | some value => .ok (.inData keys value)
  | none => .ok .missing

/-- What lies in a value under keys. -/
def inside (value : Json) (keys : List String) : Except Fault Found := do
  match ← descend value keys with
  | some value => .ok (.value value)
  | none => .ok .missing

/-- What a name stands for in the innermost block that has it, and the keys of that block. -/
def binding? (scope : Scope) (name : String) : Option (Binding × List String) :=
  scope.blocks.findSome? fun block => (block.names.lookup name).map (·, block.keys)

/-- What lies under keys from the block so many levels up. -/
def relative (scope : Scope) (up : Nat) (keys : List String) : Except Fault Found :=
  match scope.blocks[up]? <|> scope.blocks.head? with
  | some { value := some value, .. } => inside value keys
  | some block => scope.absolute (block.keys ++ keys)
  | none => scope.absolute keys

/-- What a path leads to.  Names that blocks give come before keys. -/
def resolve (scope : Scope) : Path → Except Fault Found
  | .loopVariable level name =>
    match (scope.blocks[level]?).bind fun block => Fields.get? block.locals name with
    | some value => .ok (.value value)
    | none => .ok .missing
  | .absolute keys => scope.absolute keys
  | .relative up keys =>
    match keys with
    | [] => scope.relative up keys
    | key :: rest =>
      match scope.binding? key with
      | some (.value value, _) => inside value rest
      | some (.here, base) => scope.absolute (base ++ rest)
      | none => scope.relative up keys

/-- The scope inside a further block. -/
def enter (scope : Scope) (block : Block) : Scope :=
  { scope with blocks := block :: scope.blocks }

end Scope

/-! ## Acts

A helper says what is to be done with its arguments, and the evaluation does it.  So helpers are
plain functions, although some of them write, choose a body or ask for a ticket. -/

/-- What a build gives to its templates. -/
structure Setting where
  version : String
  time : Calendar.Instant
  /-- The folder of static files. -/
  static : String
  files : Files.FileTree

/-- What a helper answers. -/
inductive Act where
  | value (value : Json)
  /-- A statistic that is known later. -/
  | statistic (request : Stats.Request)
  /-- A value to be put into the output; `helper` is the name of who says so. -/
  | place (helper : String) (value : Json)
  /-- The body, once in each scope. -/
  | body (scopes : List Scope)
  | opposite

/-- A helper. -/
inductive Helper where
  /-- Chooses a body by a condition that should be as given. -/
  | choose (truth : Bool)
  | each
  | within
  | lookup
  | verbatim
  | log
  | equal (truth : Bool)
  /-- Compares whole numbers. -/
  | order (holds : Int → Int → Bool)
  | all
  | any
  | negate
  | length
  | compare
  | embed
  | buildInfo
  | statistic
  | place

namespace Helper

/-- The helper of a name. -/
def ofName? (name : String) : Option Helper :=
  List.lookup name
    [("if", .choose true), ("unless", .choose false), ("each", .each), ("with", .within),
      ("lookup", .lookup), ("raw", .verbatim), ("log", .log), ("eq", .equal true),
      ("ne", .equal false), ("gt", .order fun a b => b < a), ("gte", .order fun a b => b ≤ a),
      ("lt", .order fun a b => a < b), ("lte", .order fun a b => a ≤ b), ("and", .all),
      ("or", .any), ("not", .negate), ("len", .length), ("ifCond", .compare), ("embed", .embed),
      ("build_info", .buildInfo), ("fetch_github_stats", .statistic), ("defer", .place),
      ("await", .place)]

/-- A call of a helper with its arguments evaluated. -/
structure Use where
  name : String
  args : List Found
  named : List (String × Found)
  /-- The names that are given to what is passed to the body. -/
  names : List String

namespace Use

/-- An argument that has to be there. -/
def arg (u : Use) (position : Nat) : Except Fault Found :=
  match u.args[position]? with
  | some found => .ok found
  | none => .error .evaluation

/-- An argument that is null when it is left out. -/
def argOrNull (u : Use) (position : Nat) : Json :=
  ((u.args[position]?).map Found.json).getD .null

/-- An argument that has to be a text. -/
def text (u : Use) (position : Nat) : Except Fault String :=
  match u.argOrNull position with
  | .string s => .ok s
  | other =>
    .error (.helper (u.name ++ ": parameter " ++ toString (position + 1)
      ++ " must be a string, got " ++ other.render))

/-- An argument that has to be a whole number of 64 bits with a sign. -/
def whole (u : Use) (position : Nat) : Except Fault Int := do
  match (← u.arg position).json with
  | .number (.int n) =>
    if -(Nat.pow 2 63 : Int) ≤ n ∧ n < Nat.pow 2 63 then .ok n else .error .evaluation
  | _ => .error .evaluation

/-- An argument by name. -/
def namedValue? (u : Use) (name : String) : Option Json :=
  (u.named.reverse.lookup name).map Found.json

end Use

/-- A boolean as the value of a helper. -/
def bool (b : Bool) : Act := .value (.bool b)

/-- The block of one item of a value that is gone through. -/
def itemBlock (u : Use) (whole : Found) (key : String) (index item : Json)
    (locals : Fields Json) : Block :=
  let inData := match whole with
    | .inData keys _ => some (keys ++ [key])
    | _ => none
  let itself := match inData with
    | some _ => Binding.here
    | none => .value item
  { keys := inData.getD []
    value := if inData.isSome then none else some item
    names := match u.names with
      | [name] => [(name, itself)]
      | [name, indexName] => [(indexName, .value index), (name, itself)]
      | _ => []
    locals }

/-- The blocks of the items of a value: of an array with their positions, of an object with their
keys.  Other values have none. -/
def itemBlocks (u : Use) (whole : Found) : List Block :=
  let locals (size position : Nat) (key : String) (index : Json) : Fields Json :=
    [("first", .bool (position == 0)), ("last", .bool (position + 1 == size)), (key, index)]
  match whole.json with
  | .array items =>
    items.zipIdx.map fun (item, position) =>
      let index := Json.int position
      itemBlock u whole (toString position) index item
        (locals items.length position "index" index)
  | .object fields =>
    fields.zipIdx.map fun ((key, item), position) =>
      itemBlock u whole key (.string key) item
        (locals fields.length position "key" (.string key))
  | _ => []

/-- The block of a value. -/
def valueBlock (u : Use) (whole : Found) : Block :=
  let (keys, value, itself) := match whole with
    | .inData keys _ => (keys, none, Binding.here)
    | found => ([], some found.json, .value found.json)
  { keys, value
    names := match u.names with
      | [name] => [(name, itself)]
      | _ => [] }

/-- The value in a collection at a position or under a key. -/
def lookedUp (collection index : Json) : Json :=
  match collection with
  | .array items => (index.natural?.bind (items[·]?)).getD .null
  | .object fields => (index.string?.bind (Fields.get? fields)).getD .null
  | _ => .null

/-- The size of a text in bytes, of an array or of an object. -/
def sizeOf : Json → Nat
  | .string s => s.utf8ByteSize
  | .array items => items.length
  | .object fields => fields.length
  | _ => 0

/-- The levels at which messages can be logged. -/
def logLevels : List String := ["error", "warn", "info", "debug", "trace"]

/-- A static file as an address that holds its content. -/
def embedded (setting : Setting) (file : String) : Except Fault Json :=
  let path := Files.join setting.static file
  match setting.files.read path with
  | .error cause =>
    .error (.helper ("embed: failed to read '" ++ path ++ "': " ++ cause.message))
  | .ok content =>
    .ok (.string ("data:" ++ Files.mediaType file ++ ";base64," ++ Text.Base64.encode content))

/-- A fact about the build. -/
def fact (setting : Setting) (kind : String) : Except Fault Json :=
  let date := setting.time.date
  if kind == "version" then .ok (.string setting.version)
  else if kind == "time" then .ok (.string setting.time.stamp)
  else if kind == "date" then .ok (.string date.text)
  else if kind == "date-month" then
    .ok (.string (toString date.month ++ "/" ++ toString date.day))
  else if kind == "year" then .ok (Json.int date.year)
  else .error (.helper ("build_info: not implemented: " ++ kind))

/-- What a helper does with its arguments. -/
def act (setting : Setting) (scope : Scope) (u : Use) : Helper → Except Fault Act
  | choose truth => do
    let condition := (← u.arg 0).json
    let zero := (u.namedValue? "includeZero").any fun
      | .bool b => b
      | _ => false
    .ok (if isTruthy zero condition == truth then .body [scope] else .opposite)
  | each => do
    let whole ← u.arg 0
    match itemBlocks u whole with
    | [] => .ok .opposite
    | blocks => .ok (.body (blocks.map scope.enter))
  | within => do
    let whole ← u.arg 0
    .ok (if isTruthy false whole.json then .body [scope.enter (valueBlock u whole)] else .opposite)
  | lookup => do
    .ok (.value (lookedUp (← u.arg 0).json (← u.arg 1).json))
  | verbatim => .ok (.body [scope])
  | log =>
    let level := ((u.namedValue? "level").bind Json.string?).getD "info"
    if logLevels.contains (level.map Char.toLower) then .ok (.body []) else .error .evaluation
  | equal truth => do
    .ok (bool (((← u.arg 0).json.equal (← u.arg 1).json) == truth))
  | order holds => do
    .ok (bool (holds (← u.whole 0) (← u.whole 1)))
  | all => do
    .ok (bool (isTruthy false (← u.arg 0).json && isTruthy false (← u.arg 1).json))
  | any => do
    .ok (bool (isTruthy false (← u.arg 0).json || isTruthy false (← u.arg 1).json))
  | negate => do
    .ok (bool !(isTruthy false (← u.arg 0).json))
  | length => do
    .ok (.value (Json.int (sizeOf (← u.arg 0).json)))
  | compare =>
    let holds := match u.argOrNull 1 with
      | .string op => Json.compareValues (u.argOrNull 0) op (u.argOrNull 2)
      | _ => false
    .ok (if holds then .body [scope] else .opposite)
  | embed => do
    .ok (.value (← embedded setting (← u.text 0)))
  | buildInfo => do
    .ok (.value (← fact setting (← u.text 0)))
  | statistic => do
    .ok (.statistic ⟨← u.text 0, ← u.text 1⟩)
  | place => .ok (.place u.name (u.argOrNull 0))

end Helper
end Template
end Frontispiece
