import Frontispiece.Decimal.Read
import Frontispiece.Json.Printer
import Frontispiece.Text.Split

/-!
# Comparing data values

`compareValues` evaluates an operator that a template names by its text.  There are three
relations below the ten operators:

* `strictEqual` compares values of one kind, numbers by their doubles;
* `looseEqual` also compares values of different kinds: null equals only itself, a boolean
  compares by number, an array or object compares with a number or string as its text;
* `order?` compares two texts by their characters and everything else by number.

`primitive` is the value that an array or object stands for: the texts of its items with commas
between them, and one fixed text for every object.
-/

set_option autoImplicit false

namespace Frontispiece
namespace Json

/-- How two doubles compare; a NaN compares with nothing. -/
def floatOrder? (x y : Float) : Option Ordering :=
  if x < y then some .lt
  else if x == y then some .eq
  else if y < x then some .gt
  else none

mutual

/-- The text that a value is compared by. -/
def primitiveText : Json → String
  | .null => ""
  | .bool true => "true"
  | .bool false => "false"
  | .number n => String.ofList (numberText n)
  | .string s => s
  | .array items => ",".intercalate (primitiveTexts items)
  | .object _ => "[object Object]"

/-- The texts of items. -/
def primitiveTexts : List Json → List String
  | [] => []
  | item :: rest => primitiveText item :: primitiveTexts rest

end

/-- An array or object as the string it is compared by; any other value itself. -/
def primitive : Json → Json
  | .array items => .string (primitiveText (.array items))
  | .object fields => .string (primitiveText (.object fields))
  | value => value

/-- The number a text denotes: zero for a blank one, NaN for one that is no number. -/
def textNumber (s : String) : Float :=
  let s := Text.trim s.toList
  if s.isEmpty then 0 else (Decimal.read? s).getD (0 / 0)

/-- The number a value is compared by. -/
def toFloat : Json → Float
  | .null => 0
  | .bool true => 1
  | .bool false => 0
  | .number n => n.toFloat
  | .string s => textNumber s
  | .array items => textNumber (primitiveText (.array items))
  | .object _ => 0 / 0

/-- Whether a value counts as true. -/
def truthy : Json → Bool
  | .null => false
  | .bool b => b
  | .number n => n.toFloat != 0
  | .string s => !s.isEmpty
  | .array _ => true
  | .object _ => true

/-- Equality of values of one kind; numbers by their doubles, at the top level only. -/
def strictEqual : Json → Json → Bool
  | .number a, .number b => a.toFloat == b.toFloat
  | a, b => equal a b

/-- Equality across kinds. -/
def looseEqual (a b : Json) : Bool :=
  match a, b with
  | .null, .null => true
  | .null, _ => false
  | _, .null => false
  | .bool _, _ => a.toFloat == b.toFloat
  | _, .bool _ => a.toFloat == b.toFloat
  | .number _, .number _ => strictEqual a b
  | .number _, _ => a.toFloat == (primitive b).toFloat
  | _, .number _ => (primitive a).toFloat == b.toFloat
  | .string s, _ => s == primitiveText b
  | _, .string t => primitiveText a == t
  | _, _ => strictEqual a b

/-- How two values compare in order, if they do. -/
def order? (a b : Json) : Option Ordering :=
  match primitive a, primitive b with
  | .string s, .string t => some (compare s t)
  | a, b => floatOrder? a.toFloat b.toFloat

/-- The value of `a op b`; an operator that is not known never holds. -/
def compareValues (a : Json) (op : String) (b : Json) : Bool :=
  match op with
  | "==" => looseEqual a b
  | "===" => strictEqual a b
  | "!=" => !looseEqual a b
  | "!==" => !strictEqual a b
  | "<" => (order? a b).any (· == .lt)
  | "<=" => (order? a b).any (· != .gt)
  | ">" => (order? a b).any (· == .gt)
  | ">=" => (order? a b).any (· != .lt)
  | "&&" => truthy a && truthy b
  | "||" => truthy a || truthy b
  | _ => false

end Json
end Frontispiece
