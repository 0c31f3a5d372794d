import Frontispiece.Decimal.Read

/-!
# Data values

`Json` is the type of template data, scene arguments and statistics.  An object keeps its fields
in the order in which their keys first came; `Fields.insert` gives an existing key its new value
in the old place.

* `Number` tells whole numbers from doubles: `1` and `1.0` are different values, and
  `Json.equal` is the equality that keeps them apart.  A double in data is finite, which the type
  carries.
* `Fields.get?`, `Fields.insert` and `Fields.erase` are the operations on objects.
-/

set_option autoImplicit false

namespace Frontispiece

/-- A number in data: whole, or a finite double. -/
inductive Number where
  | int (value : Int)
  | float (value : Float) (finite : value.isFinite = true)

namespace Number

/-- A finite double as a number. -/
def ofFloat? (x : Float) : Option Number :=
  if h : x.isFinite = true then some (.float x h) else none

/-- The nearest double. -/
def toFloat : Number → Float
  | .int n => if n < 0 then -Decimal.ofNat n.natAbs else Decimal.ofNat n.natAbs
  | .float x _ => x

/-- Equal numbers of one kind. -/
def equal : Number → Number → Bool
  | .int m, .int n => m == n
  | .float x _, .float y _ => x == y
  | _, _ => false

end Number

/-- A data value. -/
inductive Json where
  | null
  | bool (value : Bool)
  | number (value : Number)
  | string (value : String)
  | array (items : List Json)
  | object (fields : List (String × Json))
  deriving Inhabited

/-- The fields of an object, or any other list of named values, in order. -/
abbrev Fields (α : Type) : Type := List (String × α)

namespace Fields

variable {α : Type}

/-- The value of a key. -/
def get? (fields : Fields α) (key : String) : Option α :=
  (fields.find? fun field => field.1 == key).map Prod.snd

/-- Whether there is a value of a key. -/
def contains (fields : Fields α) (key : String) : Bool :=
  fields.any fun field => field.1 == key

/-- The fields with a key set: a new key goes to the end, an old one keeps its place. -/
def insert (key : String) (value : α) : Fields α → Fields α
  | [] => [(key, value)]
  | field :: rest => if field.1 == key then (key, value) :: rest else field :: insert key value rest

/-- The fields without a key, the others in their order. -/
def erase (fields : Fields α) (key : String) : Fields α :=
  fields.filter fun field => field.1 != key

/-- The fields put in one after the other. -/
def ofList (fields : List (String × α)) : Fields α :=
  fields.foldl (fun kept field => kept.insert field.1 field.2) []

/-- The keys in order. -/
def keys (fields : Fields α) : List String :=
  fields.map Prod.fst

end Fields

namespace Json

/-- A whole number as data. -/
def int (n : Int) : Json := .number (.int n)

/-- A double as data; one that is not finite is null. -/
def ofFloat (x : Float) : Json :=
  match Number.ofFloat? x with
  | some n => .number n
  | none => .null

/-- A natural number of at most 64 bits. -/
def natural? : Json → Option Nat
  | .number (.int n) => if 0 ≤ n ∧ n < Nat.pow 2 64 then some n.toNat else none
  | _ => none

/-- A number as a double. -/
def float? : Json → Option Float
  | .number n => some n.toFloat
  | _ => none

/-- The text of a string. -/
def string? : Json → Option String
  | .string s => some s
  | _ => none

/-- The value of a key, in an object that has it. -/
def get? (value : Json) (key : String) : Option Json :=
  match value with
  | .object fields => Fields.get? fields key
  | _ => none

/-- Whether a value is an array. -/
def isArray : Json → Bool
  | .array _ => true
  | _ => false

mutual

/-- Equality of values: numbers of one kind, arrays item by item, objects field by field in any
order. -/
def equal : Json → Json → Bool
  | .null, .null => true
  | .bool a, .bool b => a == b
  | .number a, .number b => a.equal b
  | .string a, .string b => a == b
  | .array a, .array b => equalItems a b
  | .object a, .object b => a.length == b.length && equalFields a b
  | _, _ => false

/-- Equality item by item. -/
def equalItems : List Json → List Json → Bool
  | [], [] => true
  | a :: as, b :: bs => equal a b && equalItems as bs
  | _, _ => false

/-- Whether each field on the left has an equal value on the right. -/
def equalFields : List (String × Json) → List (String × Json) → Bool
  | [], _ => true
  | (key, a) :: rest, bs =>
    (match Fields.get? bs key with
      | some b => equal a b
      | none => false) && equalFields rest bs

end

mutual

/-- The value with the fields of each object put in one after the other, so that a repeated key
keeps its first place and its last value. -/
def merged : Json → Json
  | .array items => .array (mergedItems items)
  | .object fields => .object (Fields.ofList (mergedFields fields))
  | value => value

/-- `merged` on each item. -/
def mergedItems : List Json → List Json
  | [] => []
  | item :: rest => merged item :: mergedItems rest

/-- `merged` on the value of each field. -/
def mergedFields : List (String × Json) → List (String × Json)
  | [] => []
  | (key, value) :: rest => (key, merged value) :: mergedFields rest

end

end Json
end Frontispiece
