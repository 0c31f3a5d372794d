import Frontispiece.Json.Reader
import Frontispiece.Template.Syntax

/-!
# Expressions as they are written

The readers take an expression from the start of a text and give it back with the rest.  Between
the parts of a call there may be blanks; inside a path or a literal string there is none.

* `path?` reads a path: `name`, `a.b/c`, `../x`, `this.x`, `@index`, `@root.x`, `a.[any key]`.
* `literalValue?` reads a value of data; strings may have single quotes.
* `param?` and `arguments` read what follows the head of a call.
-/

set_option autoImplicit false

namespace Frontispiece
namespace Template

/-! ## Characters

What may stand in a name, and what may not. -/

/-- The blanks between the parts of a tag. -/
def isBlank (c : Char) : Bool := c == ' ' || c == '\t' || c == '\n' || c == '\r'

/-- The text after leading blanks. -/
def skipBlanks (s : List Char) : List Char := s.dropWhile isBlank

/-- A character of a name: a letter, a digit, one of three signs, or anything beyond ASCII. -/
def isSymbol (c : Char) : Bool :=
  c.isAlphanum || c == '-' || c == '_' || c == '$' || 0x80 ≤ c.toNat

/-- A character of the name of a partial. -/
def isPartialSymbol (c : Char) : Bool :=
  c.isAlphanum || c == '-' || c == '_' || c == '/' || c == '.' || 0x80 ≤ c.toNat

/-- Whether a name ends here. -/
def endsName (s : List Char) : Bool := !s.head?.any isSymbol

/-- The rest after an expected start. -/
def strip? : List Char → List Char → Option (List Char)
  | [], s => some s
  | _ :: _, [] => none
  | p :: ps, c :: cs => if p == c then strip? ps cs else none

/-- What was read, when `rest` is left of `s`. -/
def taken (s rest : List Char) : List Char := s.take (s.length - rest.length)

/-! ## Names and paths

A path is a start and keys, with separators between them. -/

/-- A name. -/
def identifier? (s : List Char) : Option (String × List Char) :=
  match s.takeWhile isSymbol with
  | [] => none
  | name => some (String.ofList name, s.dropWhile isSymbol)

/-- A key of a path: a name, or anything between square brackets. -/
def key? (s : List Char) : Option (String × List Char) :=
  match s with
  | '[' :: rest =>
    match rest.dropWhile (· != ']') with
    | ']' :: after => some (String.ofList (rest.takeWhile (· != ']')), after)
    | _ => none
  | s => identifier? s

/-- Whether a character separates keys. -/
def separatesKeys (c : Char) : Bool := c == '/' || c == '.'

/-- The rest after a start and a separator. -/
def stripKey? (start s : List Char) : Option (List Char) :=
  match strip? start s with
  | some (c :: rest) => if separatesKeys c then some rest else none
  | _ => none

/-- Steps up, each two dots and a separator. -/
def stepsUp (fuel : Nat) (s : List Char) : Nat × List Char :=
  match fuel with
  | 0 => (0, s)
  | fuel + 1 =>
    match stripKey? ['.', '.'] s with
    | some rest =>
      let (n, rest) := stepsUp fuel rest
      (n + 1, rest)
    | none => (0, s)

/-- Further keys, each after a separator. -/
def moreKeys (fuel : Nat) (s : List Char) : List String × List Char :=
  match fuel with
  | 0 => ([], s)
  | fuel + 1 =>
    match s with
    | c :: rest =>
      if separatesKeys c then
        match key? rest with
        | some (key, rest) =>
          let (keys, rest) := moreKeys fuel rest
          (key :: keys, rest)
        | none => ([], s)
      else ([], s)
    | [] => ([], s)

/-- A path; a key `this` stays where it is. -/
def path? (s : List Char) : Option (Path × List Char) := do
  let afterThis := (stripKey? "this".toList s <|> strip? ['.', '/'] s).getD s
  let (fromRoot, s) :=
    match stripKey? "@root".toList afterThis with
    | some rest => (true, rest)
    | none => (false, afterThis)
  let (isVariable, s) :=
    match s with
    | '@' :: rest => (true, rest)
    | s => (false, s)
  let (up, s) := stepsUp s.length s
  let (key, s) ← key? s
  let (keys, s) := moreKeys s.length s
  let keys := (key :: keys).filter (· != "this")
  if fromRoot then some (.absolute keys, s)
  else if isVariable then keys.head?.map fun name => (.loopVariable up name, s)
  else some (.relative up keys, s)

/-- A path as an expression. -/
def reference? (s : List Char) : Option (Expr × List Char) :=
  (path? s).map fun (path, rest) => (.path path (String.ofList (taken s rest)), rest)

/-! ## Literals

A literal is found by its form first.  Whether the form has a value is asked afterwards, as not
every one has. -/

/-- Whether a character may stand after a backslash in a string. -/
def isEscaped (quote c : Char) : Bool :=
  c == quote || ['\\', '/', 'b', 'f', 'n', 'r', 't'].contains c

/-- The characters of a string up to its closing quote, and the rest after it. -/
def quoted? (quote : Char) (read : List Char) : List Char → Option (List Char × List Char)
  | '\\' :: 'u' :: a :: b :: c :: d :: rest =>
    if [a, b, c, d].all Text.isHexDigit then
      quoted? quote (d :: c :: b :: a :: 'u' :: '\\' :: read) rest
    else none
  | '\\' :: c :: rest =>
    if isEscaped quote c then quoted? quote (c :: '\\' :: read) rest else none
  | c :: rest =>
    if c == quote then some (read.reverse, rest)
    else if c == '\\' then none
    else quoted? quote (c :: read) rest
  | [] => none

/-- A string with either quote: the characters inside, and the rest. -/
def string? (s : List Char) : Option (List Char × List Char) :=
  match s with
  | '"' :: rest => quoted? '"' [] rest
  | '\'' :: rest => quoted? '\'' [] rest
  | _ => none

/-- The rest after a number: digits, a point and digits, and an exponent with a capital letter. -/
def afterNumber? (s : List Char) : Option (List Char) := do
  let s := if s.head? == some '-' then s.drop 1 else s
  if !s.head?.any Char.isDigit then none
  else
    let s := s.dropWhile Char.isDigit
    let s := if s.head? == some '.' then s.drop 1 else s
    let s := s.dropWhile Char.isDigit
    let exponent := fun (s : List Char) =>
      let s := if s.head? == some '-' then s.drop 1 else s
      if s.head?.any Char.isDigit then some (s.dropWhile Char.isDigit) else none
    let s := ((strip? ['E'] s).bind exponent).getD s
    if endsName s then some s else none

/-- The rest after a word that ends here. -/
def afterWord? (word s : List Char) : Option (List Char) :=
  (strip? word s).bind fun rest => if endsName rest then some rest else none

mutual

/-- The rest after a literal. -/
def afterLiteral? : Nat → List Char → Option (List Char)
  | 0, _ => none
  | fuel + 1, s =>
    match s with
    | '[' :: rest => do
      let after := (afterLiteral? fuel (skipBlanks rest)).getD rest
      strip? [']'] (skipBlanks (afterItems fuel after))
    | '{' :: rest => do
      let after := (afterField? fuel (skipBlanks rest)).getD rest
      strip? ['}'] (skipBlanks (afterFields fuel after))
    | s => (string? s).map (·.2) <|> afterNumber? s <|> afterWord? "null".toList s
      <|> afterWord? "true".toList s <|> afterWord? "false".toList s

/-- The rest after further items. -/
def afterItems : Nat → List Char → List Char
  | 0, s => s
  | fuel + 1, s =>
    match (strip? [','] (skipBlanks s)).bind fun rest => afterLiteral? fuel (skipBlanks rest) with
    | some rest => afterItems fuel rest
    | none => s

/-- The rest after a field. -/
def afterField? : Nat → List Char → Option (List Char)
  | 0, _ => none
  | fuel + 1, s => do
    let (_, rest) ← string? s
    let rest ← strip? [':'] (skipBlanks rest)
    afterLiteral? fuel (skipBlanks rest)

/-- The rest after further fields. -/
def afterFields : Nat → List Char → List Char
  | 0, s => s
  | fuel + 1, s =>
    match (strip? [','] (skipBlanks s)).bind fun rest => afterField? fuel (skipBlanks rest) with
    | some rest => afterFields fuel rest
    | none => s

end

/-- The characters between single quotes as they stand between double quotes. -/
def doubleQuoted : List Char → List Char
  | '\\' :: '\'' :: rest => '\'' :: doubleQuoted rest
  | '"' :: rest => '\\' :: '"' :: doubleQuoted rest
  | c :: rest => c :: doubleQuoted rest
  | [] => []

/-- The value of a literal as written. -/
def literalValue? (s : List Char) : Option Json :=
  let s := match s with
    | '\'' :: _ =>
      match string? s with
      | some (inner, _) => '"' :: doubleQuoted inner ++ ['"']
      | none => s
    | s => s
  (Json.read? s).toOption

/-! ## Calls

What stands inside a tag: a name or a path, arguments by place and by name, and for a block the
names that it gives. -/

/-- The words that are no arguments. -/
def keywords : List (List Char) := ["as".toList, "else".toList]

/-- Whether a text starts with a keyword. -/
def startsWithKeyword (s : List Char) : Bool :=
  keywords.any fun word => (afterWord? word s).isSome

mutual

/-- An argument.  What has the form of a literal but no value is no argument. -/
def param? : Nat → List Char → Option (Expr × List Char)
  | 0, _ => none
  | fuel + 1, s =>
    if startsWithKeyword s then none
    else
      match afterLiteral? (s.length + 1) s with
      | some rest => (literalValue? (taken s rest)).map fun value => (.literal value, rest)
      | none => reference? s <|> group? fuel s

/-- A call in parentheses, of a name with arguments or of a path without. -/
def group? : Nat → List Char → Option (Expr × List Char)
  | 0, _ => none
  | fuel + 1, s => do
    let inside ← strip? ['('] s
    let s := skipBlanks inside
    let withArguments := do
      let (name, rest) ← identifier? s
      let (args, named, rest) := arguments fuel rest
      if args.isEmpty && named.isEmpty then none
      else
        let rest ← strip? [')'] (skipBlanks rest)
        some (Expr.call (.name name) args named, rest)
    let alone := do
      let (reference, rest) ← reference? s
      let rest ← strip? [')'] (skipBlanks rest)
      some (Expr.call reference [] [], rest)
    withArguments <|> alone

/-- An argument by name. -/
def named? : Nat → List Char → Option ((String × Expr) × List Char)
  | 0, _ => none
  | fuel + 1, s => do
    let (name, rest) ← identifier? s
    let rest ← strip? ['='] (skipBlanks rest)
    let (value, rest) ← param? fuel (skipBlanks rest)
    some ((name, value), rest)

/-- As many arguments as there are. -/
def arguments : Nat → List Char → List Expr × List (String × Expr) × List Char
  | 0, s => ([], [], s)
  | fuel + 1, s =>
    match named? fuel (skipBlanks s) with
    | some (field, rest) =>
      let (args, named, rest) := arguments fuel rest
      (args, field :: named, rest)
    | none =>
      match param? fuel (skipBlanks s) with
      | some (arg, rest) =>
        let (args, named, rest) := arguments fuel rest
        (arg :: args, named, rest)
      | none => ([], [], s)

end

/-- A name with arguments. -/
def called? (s : List Char) : Option (Call × List Char) := do
  let (name, rest) ← identifier? s
  let (args, named, rest) := arguments (s.length + 1) rest
  if args.isEmpty && named.isEmpty then none
  else some ({ head := .name name, args, named }, rest)

/-- A path, or a call in parentheses. -/
def head? (s : List Char) : Option (Expr × List Char) :=
  group? (s.length + 1) s <|> reference? s

/-- What a tag for output holds. -/
def outputCall? (s : List Char) : Option (Call × List Char) :=
  called? s <|> (head? s).map fun (head, rest) => (⟨head, [], []⟩, rest)

/-- The names at the start of a block. -/
def blockNames? (s : List Char) : Option (List String × List Char) := do
  let rest ← strip? ['|'] (skipBlanks (← strip? "as".toList s))
  let (first, rest) ← identifier? (skipBlanks rest)
  let (second, rest) :=
    match identifier? (skipBlanks rest) with
    | some (second, rest) => ([second], rest)
    | none => ([], rest)
  let rest ← strip? ['|'] (skipBlanks rest)
  some (first :: second, rest)

/-- The start of a block: a name, arguments, and names for the body. -/
def line? (s : List Char) : Option (Call × List String × List Char) := do
  let (name, rest) ← identifier? s
  let (args, named, rest) := arguments (s.length + 1) rest
  let (names, rest) := (blockNames? (skipBlanks rest)).getD ([], rest)
  some ({ head := .name name, args, named }, names, rest)

/-- The name of a partial: symbols, or a text in single quotes that keeps them. -/
def partialName? (s : List Char) : Option (String × List Char) :=
  match s.takeWhile isPartialSymbol with
  | [] =>
    match s with
    | '\'' :: rest =>
      let inside := rest.takeWhile (· != '\'')
      match rest.dropWhile (· != '\'') with
      | '\'' :: after =>
        if inside.isEmpty then none else some (String.ofList ('\'' :: inside ++ ['\'']), after)
      | _ => none
    | _ => none
  | name => some (String.ofList name, s.dropWhile isPartialSymbol)

/-- The name of a partial with arguments. -/
def partialLine? (s : List Char) : Option (Call × List Char) := do
  let (head, rest) ←
    match partialName? s with
    | some (name, rest) => some (Expr.name name, rest)
    | none => head? s
  let (args, named, rest) := arguments (s.length + 1) rest
  some ({ head, args, named }, rest)

end Template
end Frontispiece
