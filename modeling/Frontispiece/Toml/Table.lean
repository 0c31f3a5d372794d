import Frontispiece.Json.Basic

/-!
# Tables of a TOML document

A table may be written in parts: by headers, by dotted keys, and by the headers of tables below it.
`Item` keeps how a table came about, because that settles which further parts it may get.

* `descend` changes the table at the end of a path, making tables on the way.
* `openTable` and `openTables` prepare the table of a header, `closeTable` puts it in its place,
  and `assign` gives a key its value.
-/

set_option autoImplicit false

namespace Frontispiece
namespace Toml

/-- What a key stands for. -/
inductive Item where
  /-- A value, to which nothing can be added. -/
  | value (value : Json)
  /-- A table.  `implicit` tells that no header of its own made it, `dotted` that a dotted key
  did. -/
  | table (implicit dotted : Bool) (fields : List (String × Item))
  /-- A list of tables, latest last. -/
  | tables (items : List (List (String × Item)))

mutual

/-- An item as data. -/
def Item.toJson : Item → Json
  | .value v => v
  | .table _ _ fields => .object (Item.fieldsToJson fields)
  | .tables rows => .array (Item.itemsToJson rows)

/-- Fields as data. -/
def Item.fieldsToJson : List (String × Item) → List (String × Json)
  | [] => []
  | (key, item) :: rest => (key, item.toJson) :: Item.fieldsToJson rest

/-- Tables as data. -/
def Item.itemsToJson : List (List (String × Item)) → List Json
  | [] => []
  | fields :: rest => .object (Item.fieldsToJson fields) :: Item.itemsToJson rest

end

/-- The table at the end of a path changed; `f` also hears whether a dotted key made it.  Missing
tables are made; in a list of tables the last is meant.  A dotted path does not enter a table
that has a header. -/
def descend (dotted : Bool) (f : Bool → Fields Item → Option (Fields Item)) (isDotted : Bool)
    (fields : Fields Item) : List String → Option (Fields Item)
  | [] => f isDotted fields
  | key :: rest =>
    match Fields.get? fields key with
    | none => do
      let inner ← descend dotted f dotted [] rest
      some (Fields.insert key (.table true dotted inner) fields)
    | some (.value _) => none
    | some (.table implicit wasDotted inner) =>
      if dotted && !implicit then none
      else do
        let inner ← descend dotted f wasDotted inner rest
        some (Fields.insert key (.table implicit wasDotted inner) fields)
    | some (.tables items) =>
      match items.getLast? with
      | none => none
      | some last => do
        let last ← descend dotted f false last rest
        some (Fields.insert key (.tables (items.dropLast ++ [last])) fields)

/-- A value given to a dotted key.  A key of one part may not belong to a table of dotted keys,
and the last of several must. -/
def assign (fields : Fields Item) (path : List String) (key : String) (value : Item) :
    Option (Fields Item) :=
  descend true
    (fun isDotted inner =>
      if isDotted == path.isEmpty || Fields.contains inner key then none
      else some (inner ++ [(key, value)]))
    false fields path

/-- The fields that are already there for a header: those of a table that only headers of tables
below it made. -/
def present? (fields : Fields Item) (key : String) : Option (Fields Item) :=
  match Fields.get? fields key with
  | none => some []
  | some (.table true false inner) => some inner
  | some _ => none

/-- The fields of the table at the end of a path; none where there is no table. -/
def fieldsAt (fields : Fields Item) : List String → Fields Item
  | [] => fields
  | key :: rest =>
    match Fields.get? fields key with
    | some (.table _ _ inner) => fieldsAt inner rest
    | some (.tables items) => fieldsAt (items.getLast?.getD []) rest
    | _ => []

/-- The fields that are already there for a header, and the document without them. -/
def openTable (root : Fields Item) (path : List String) (key : String) :
    Option (Fields Item × Fields Item) := do
  let without ← descend false
    (fun _ inner => (present? inner key).map fun _ => Fields.erase inner key) false root path
  let present ← present? (fieldsAt root path) key
  some (present, without)

/-- The document with a place for a list of tables, where there is one or nothing. -/
def openTables (root : Fields Item) (path : List String) (key : String) : Option (Fields Item) :=
  descend false
    (fun _ inner =>
      match Fields.get? inner key with
      | none => some (inner ++ [(key, .tables [])])
      | some (.tables _) => some inner
      | some _ => none)
    false root path

/-- The document with the finished table of a header put in its place. -/
def closeTable (root : Fields Item) (path : List String) (key : String) (inList : Bool)
    (table : Fields Item) : Option (Fields Item) :=
  descend false
    (fun _ inner =>
      if inList then
        match Fields.get? inner key with
        | some (.tables items) => some (Fields.insert key (.tables (items ++ [table])) inner)
        | _ => none
      else some (Fields.insert key (.table false false table) inner))
    false root path

end Toml
end Frontispiece
