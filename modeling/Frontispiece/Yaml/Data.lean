import Frontispiece.Decimal.Read
import Frontispiece.Json.Basic
import Frontispiece.Yaml.Node

/-!
# Data in YAML

A plain scalar is null, a boolean, a whole number, a double or a text, by its spelling; any other
scalar is a text.  The tags for these kinds ask for one of them, other tags of the standard leave
a text, and tags of the document's own are refused.

* `readMapping?` reads a whole text as the fields of a mapping.
* Keys are the texts of scalars; a repeated key keeps its first place and its last value.
* Collections nest at most 128 deep.
-/

set_option autoImplicit false

namespace Frontispiece
namespace Yaml

/-- Whether a text is a spelling of null. -/
def isNull (s : String) : Bool :=
  ["", "~", "null", "Null", "NULL"].contains s

/-- The boolean that a text spells. -/
def bool? (s : String) : Option Bool :=
  if ["true", "True", "TRUE"].contains s then some true
  else if ["false", "False", "FALSE"].contains s then some false
  else none

/-- Whether digits start with a zero that does not stand alone: such a text is no number. -/
def hasIdleZero (s : List Char) : Bool :=
  let digits :=
    match s with
    | '-' :: rest => rest
    | '+' :: rest => rest
    | rest => rest
  match digits with
  | '0' :: rest => !rest.isEmpty && rest.all Char.isDigit
  | _ => false

/-- The whole number that a text spells: decimal, or in base 16, 8 or 2 after `0x`, `0o`, `0b`. -/
def integer? (s : List Char) : Option Int :=
  let based (negative : Bool) (s : List Char) : Option Int :=
    let value :=
      match s with
      | '0' :: 'x' :: digits => Text.numeral? 16 digits
      | '0' :: 'o' :: digits => Text.numeral? 8 digits
      | '0' :: 'b' :: digits => Text.numeral? 2 digits
      | digits => if hasIdleZero digits then none else Text.numeral? 10 digits
    value.map fun n => if negative then -(n : Int) else n
  match s with
  | '-' :: rest => based true rest
  | '+' :: rest => based false rest
  | rest => based false rest

/-- The number that a text spells as a double; a spelling beyond the range of doubles is none. -/
def double? (s : List Char) : Option Float :=
  let text := String.ofList s
  let unsigned :=
    match s with
    | '+' :: rest => rest
    | rest => rest
  if s.head? == some '+' && unsigned.head?.any fun c => c == '+' || c == '-' then none
  else if [".inf", ".Inf", ".INF"].contains (String.ofList unsigned) then
    some (Float.ofScientific 1 false 400)
  else if ["-.inf", "-.Inf", "-.INF"].contains text then some (-Float.ofScientific 1 false 400)
  else if [".nan", ".NaN", ".NAN"].contains text then some (0 / 0)
  else (Decimal.read? unsigned).filter Float.isFinite

/-- A whole number as data.  One of more than 64 bits but not more than 128 is refused. -/
def integerData? (n : Int) : Option (Option Json) :=
  if -(Nat.pow 2 63 : Int) ≤ n ∧ n < Nat.pow 2 64 then some (some (Json.int n))
  else if -(Nat.pow 2 127 : Int) ≤ n ∧ n < Nat.pow 2 128 then some none
  else none

/-- A plain scalar as data. -/
def plainData? (text : String) : Option Json :=
  let s := text.toList
  if isNull text then some .null
  else
    match bool? text with
    | some b => some (.bool b)
    | none =>
      match (integer? s).bind integerData? with
      | some data => data
      | none =>
        if hasIdleZero s then some (.string text)
        else
          match double? s with
          | some x => some (Json.ofFloat x)
          | none => some (.string text)

/-- A scalar as data. -/
def scalarData? (tag : Option String) (text : String) (plain : Bool) : Option Json :=
  match tag with
  | none => if plain then plainData? text else some (.string text)
  | some tag =>
    if tag.startsWith "!" then none
    else if tag == "tag:yaml.org,2002:bool" then (bool? text).map .bool
    else if tag == "tag:yaml.org,2002:int" then ((integer? text.toList).bind integerData?).join
    else if tag == "tag:yaml.org,2002:float" then (double? text.toList).map Json.ofFloat
    else if tag == "tag:yaml.org,2002:null" then
      if isNull text && !text.isEmpty then some .null else none
    else some (.string text)

/-- Whether a collection may have a tag: one of the document's own is refused. -/
def collectionTag (tag : Option String) : Bool :=
  !tag.any (·.startsWith "!")

/-- The text of a key. -/
def keyText? : Node → Option String
  | .scalar _ text _ => some text
  | _ => none

mutual

/-- A node as data, with `depth` more levels of collections allowed. -/
def data? (depth : Nat) : Node → Option Json
  | .scalar tag text plain => scalarData? tag text plain
  | .sequence tag items =>
    match depth with
    | 0 => none
    | depth + 1 => if collectionTag tag then (itemData? depth items).map .array else none
  | .mapping tag entries =>
    match depth with
    | 0 => none
    | depth + 1 =>
      if collectionTag tag then
        (fieldData? depth entries).map fun fields => .object (Fields.ofList fields)
      else none

/-- The items of a sequence as data. -/
def itemData? (depth : Nat) : List Node → Option (List Json)
  | [] => some []
  | n :: rest => do
    let v ← data? depth n
    let vs ← itemData? depth rest
    some (v :: vs)

/-- The entries of a mapping as data. -/
def fieldData? (depth : Nat) : List (Node × Node) → Option (List (String × Json))
  | [] => some []
  | (k, n) :: rest => do
    let key ← keyText? k
    let v ← data? depth n
    let fields ← fieldData? depth rest
    some ((key, v) :: fields)

end

/-- The fields of the mapping that a text holds; a text without a document, or with null as its
document, holds none. -/
def readMapping? (s : List Char) : Option (Fields Json) := do
  match ← document? s with
  | none => some []
  | some (.mapping _ entries) => (fieldData? 127 entries).map Fields.ofList
  | some (.scalar tag text true) =>
    if tag.isNone && isNull text then some []
    else if tag == some "tag:yaml.org,2002:null" && isNull text && !text.isEmpty then some []
    else none
  | some _ => none

end Yaml
end Frontispiece
