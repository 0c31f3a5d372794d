import Frontispiece.Json.Basic
import Frontispiece.Text.Digits
import Frontispiece.Text.Offset
import Frontispiece.Text.Split

/-!
# Markup events

A markup text is a sequence of events: tags, pieces of text, and parts that carry no content
(comments, processing instructions, declarations).  `events` cuts a text into them, each with the
offset at which it starts; a part that is no markup ends the list with `Event.broken`.

* `reference?` and `unescape?` resolve references; a text with a bad or unknown reference has
  no resolved form, and stays as written.
* `attributes?` reads the attributes of a start tag; names must be distinct, values quoted.

Offsets leave a byte order mark at the start of the text out of account.
-/

set_option autoImplicit false

namespace Frontispiece
namespace Markup

/-- A part of a markup text.  The attributes of a tag are missing when they are malformed. -/
inductive Event where
  /-- A start tag. -/
  | start (tag : String) (attrs : Option (Fields String))
  /-- A tag that closes itself. -/
  | empty (tag : String) (attrs : Option (Fields String))
  /-- An end tag. -/
  | finish (tag : String)
  /-- Character data. -/
  | text (content : String)
  /-- A part without content. -/
  | silent
  /-- The start of a part that is no markup. -/
  | broken

/-- The four characters that separate the parts of a tag. -/
def isSpace (c : Char) : Bool :=
  c == ' ' || c == '\r' || c == '\n' || c == '\t'

/-! ## References

A reference names a character, or gives its number.  A bad one makes a text an error or is left as
written, which depends on who reads the text. -/

/-- A number below `2 ^ 32` in a base; a text without digits is none. -/
def codePoint? (base : Nat) (digits : List Char) : Option Nat :=
  (Text.numeral? base digits).filter (· < Nat.pow 2 32)

/-- The character of a code point other than zero. -/
def scalar? (n : Nat) : Option Char :=
  if n ≠ 0 ∧ (n < 0xD800 ∨ (0xDFFF < n ∧ n < 0x110000)) then some (Char.ofNat n) else none

/-- What a reference stands for, given what is between the ampersand and the semicolon. -/
def reference? : List Char → Option Char
  | ['l', 't'] => some '<'
  | ['g', 't'] => some '>'
  | ['a', 'm', 'p'] => some '&'
  | ['a', 'p', 'o', 's'] => some '\''
  | ['q', 'u', 'o', 't'] => some '"'
  | '#' :: 'x' :: digits => (codePoint? 16 digits).bind scalar?
  | '#' :: digits => (codePoint? 10 digits).bind scalar?
  | _ => none

/-- A text with its references resolved, when `name` is the reversed start of a reference that
is being read. -/
def unescapeFrom? (name : Option (List Char)) : List Char → Option (List Char)
  | [] => if name.isSome then none else some []
  | c :: rest =>
    match name with
    | none =>
      if c == '&' then unescapeFrom? (some []) rest else (unescapeFrom? none rest).map (c :: ·)
    | some read =>
      if c == '&' then none
      else if c == ';' then do
        let c ← reference? read.reverse
        let rest ← unescapeFrom? none rest
        some (c :: rest)
      else unescapeFrom? (some (c :: read)) rest

/-- A text with its references resolved, if all of them are good. -/
def unescape? (s : List Char) : Option (List Char) :=
  unescapeFrom? none s

/-- A text with its references resolved, or as written if one of them is bad. -/
def resolve (s : List Char) : String :=
  String.ofList ((unescape? s).getD s)

/-! ## Tags

The end of a tag is found first, and only then is the inside taken apart into a name and attributes.
-/

/-- The inside of a tag and what stands after it: a tag ends at the first `>` outside quotes. -/
def tagEnd? (quote : Option Char) : List Char → Option (List Char × List Char)
  | [] => none
  | c :: rest =>
    if quote.isNone && c == '>' then some ([], rest)
    else
      let quote :=
        match quote with
        | some q => if c == q then none else some q
        | none => if c == '"' || c == '\'' then some c else none
      (tagEnd? quote rest).map fun (inside, after) => (c :: inside, after)

/-- One attribute at the start of the text, which starts with no space: its name, its value and
the rest. -/
def attribute? (s : List Char) : Option (List Char × List Char × List Char) :=
  match s with
  | [] => none
  | c :: rest =>
    let name := c :: rest.takeWhile fun c => !(c == '=' || isSpace c)
    let rest := rest.dropWhile fun c => !(c == '=' || isSpace c)
    match rest.dropWhile isSpace with
    | '=' :: rest =>
      match rest.dropWhile isSpace with
      | quote :: rest =>
        if quote == '"' || quote == '\'' then
          (Text.cutWhere? (· == quote) rest).map fun (value, after) => (name, value, after)
        else none
      | [] => none
    | _ => none

/-- The attributes in the inside of a start tag after its name, when `read` are those before. -/
def attributesFrom? : Nat → Fields String → List Char → Option (Fields String)
  | 0, _, _ => none
  | fuel + 1, read, s =>
    match s.dropWhile isSpace with
    | [] => some read
    | s => do
      let (name, value, rest) ← attribute? s
      let name := String.ofList name
      if read.contains name then none
      else attributesFrom? fuel (read ++ [(name, resolve value)]) rest

/-- The attributes in the inside of a start tag after its name. -/
def attributes? (s : List Char) : Option (Fields String) :=
  attributesFrom? (s.length + 1) [] s

/-- The event of a start tag with this inside. -/
def startEvent (inside : List Char) : Event :=
  match inside.reverse with
  | '/' :: before =>
    let inside := before.reverse
    .empty (String.ofList (inside.takeWhile (!isSpace ·)))
      (attributes? (inside.dropWhile (!isSpace ·)))
  | _ =>
    .start (String.ofList (inside.takeWhile (!isSpace ·)))
      (attributes? (inside.dropWhile (!isSpace ·)))

/-! ## Parts without content

Comments, instructions and declarations are events as well, although a drawing keeps nothing of
them. -/

/-- What stands after a document type declaration: it ends at the `>` that closes as many `<` as
were opened.  The result also tells what it holds. -/
def doctypeEnd? (level : Nat) : List Char → Option (List Char × List Char)
  | [] => none
  | c :: rest =>
    if c == '>' && level == 0 then some ([], rest)
    else
      let level := if c == '<' then level + 1 else if c == '>' then level - 1 else level
      (doctypeEnd? level rest).map fun (inside, after) => (c :: inside, after)

/-- The rest of the text after `lead` in any case of ASCII letters. -/
def dropLeadAnyCase? (lead s : List Char) : Option (List Char) :=
  (Text.dropLead? (lead.map Char.toLower) ((s.take lead.length).map Char.toLower)).map fun _ =>
    s.drop lead.length

/-- The event after `<!`, and the rest. -/
def bangEvent? (s : List Char) : Option (Event × List Char) :=
  match s with
  | '-' :: '-' :: rest => (Text.cutAt? ['-', '-', '>'] rest).map fun (_, rest) => (.silent, rest)
  | '[' :: _ => do
    let rest ← dropLeadAnyCase? "[CDATA[".toList s
    let (content, rest) ← Text.cutAt? [']', ']', '>'] rest
    some (.text (String.ofList content), rest)
  | _ => do
    let rest ← dropLeadAnyCase? "DOCTYPE".toList s
    let (inside, rest) ← doctypeEnd? 0 rest
    if inside.all isSpace then none else some (.silent, rest)

/-- The event after `<`, and the rest. -/
def markupEvent? (s : List Char) : Option (Event × List Char) :=
  match s with
  | [] => none
  | '!' :: rest => bangEvent? rest
  | '/' :: rest =>
    (tagEnd? none rest).map fun (inside, rest) =>
      (.finish (String.ofList (Text.dropTrailing isSpace inside)), rest)
  | '?' :: '>' :: _ => none
  | '?' :: rest => (Text.cutAt? ['?', '>'] rest).map fun (_, rest) => (.silent, rest)
  | s => (tagEnd? none s).map fun (inside, rest) => (startEvent inside, rest)

/-- The events of a text, each with the rest of the text at which it starts. -/
def eventsWithin : Nat → List Char → List (List Char × Event)
  | 0, _ => []
  | fuel + 1, s =>
    match s with
    | [] => []
    | '<' :: rest =>
      match markupEvent? rest with
      | some (event, after) => (s, event) :: eventsWithin fuel after
      | none => [(s, .broken)]
    | s =>
      (s, .text (resolve (s.takeWhile (· != '<')))) :: eventsWithin fuel (s.dropWhile (· != '<'))

/-- The text without a byte order mark at its start. -/
def dropByteOrderMark : List Char → List Char
  | '\ufeff' :: rest => rest
  | s => s

/-- The events of a text, each with the offset at which it starts. -/
def events (s : List Char) : List (Nat × Event) :=
  let s := dropByteOrderMark s
  (eventsWithin (s.length + 1) s).map fun (rest, event) => (Text.offsetOf s rest, event)

end Markup
end Frontispiece
