import Frontispiece.Yaml.Token

/-!
# Nodes of a YAML text

A document is a tree of nodes: scalars, sequences and mappings, each with an optional tag.
`document?` builds the tree of the only document of a text from its tokens; an alias stands for a
copy of the node with its anchor, which must come before and be complete.

The parser follows the grammar of the token list.  A node may be missing where the grammar lets
it: then it is an empty plain scalar.
-/

set_option autoImplicit false

namespace Frontispiece
namespace Yaml

/-- A node. -/
inductive Node where
  | scalar (tag : Option String) (text : String) (plain : Bool)
  | sequence (tag : Option String) (items : List Node)
  | mapping (tag : Option String) (entries : List (Node × Node))
  deriving Inhabited

/-- The missing node. -/
def Node.missing : Node := .scalar none "" true

/-- What is known while nodes are read: the tokens to come, the tag handles of the document and
the anchored nodes, latest first. -/
structure Progress where
  tokens : List Token
  handles : List (String × String)
  anchors : List (String × Node)

namespace Progress

/-- The token to come. -/
def peek (p : Progress) : Option Token :=
  p.tokens.head?

/-- The token to come left behind. -/
def skip (p : Progress) : Progress :=
  { p with tokens := p.tokens.tail }

/-- Whether the token to come is one of these; the end of the text is none of them. -/
def sees (p : Progress) (ts : List Token) : Bool :=
  p.peek.any ts.contains

/-- A node remembered under an anchor. -/
def remember (p : Progress) (anchor : Option String) (n : Node) : Progress :=
  match anchor with
  | some name => { p with anchors := (name, n) :: p.anchors }
  | none => p

end Progress

/-- The properties before a node: its anchor and its tag, in either order. -/
def properties (p : Progress) : Option String × Option (String × String) × Progress :=
  match p.tokens with
  | .anchor a :: .tag h s :: rest => (some a, some (h, s), { p with tokens := rest })
  | .tag h s :: .anchor a :: rest => (some a, some (h, s), { p with tokens := rest })
  | .anchor a :: rest => (some a, none, { p with tokens := rest })
  | .tag h s :: rest => (none, some (h, s), { p with tokens := rest })
  | _ => (none, none, p)

/-- The full tag of a handle and a suffix; the handle must be declared. -/
def resolveTag? (p : Progress) : Option (String × String) → Option (Option String)
  | none => some none
  | some (handle, suffix) =>
    if handle.isEmpty then some (some suffix)
    else (p.handles.find? (·.1 == handle)).map fun (_, start) => some (start ++ suffix)

mutual

/-- A node.  Block collections may stand where `block` is set, and entries without indentation of
their own where `indentless` is. -/
def node : Nat → Bool → Bool → Progress → Option (Node × Progress)
  | 0, _, _, _ => none
  | fuel + 1, block, indentless, p =>
    match p.peek with
    | some (.alias name) => (p.anchors.find? (·.1 == name)).map fun (_, n) => (n, p.skip)
    | _ => do
      let (anchor, tag, p) := properties p
      let hasProperties := anchor.isSome || tag.isSome
      let tag ← resolveTag? p tag
      let (n, p) ←
        match p.peek with
        | some .entry =>
          if indentless then do
            let (items, p) ← plainEntries fuel p
            some (Node.sequence tag items, p)
          else if hasProperties then some (Node.scalar tag "" true, p)
          else none
        | some (.scalar text plain) =>
          some (Node.scalar (if tag == some "!" then none else tag) text plain, p.skip)
        | some .flowSequenceStart => do
          let (items, p) ← flowItems fuel true p.skip
          some (Node.sequence tag items, p)
        | some .flowMappingStart => do
          let (entries, p) ← flowEntries fuel true p.skip
          some (Node.mapping tag entries, p)
        | some .blockSequenceStart =>
          if block then do
            let (items, p) ← blockEntries fuel p.skip
            some (Node.sequence tag items, p)
          else if hasProperties then some (Node.scalar tag "" true, p)
          else none
        | some .blockMappingStart =>
          if block then do
            let (entries, p) ← blockPairs fuel p.skip
            some (Node.mapping tag entries, p)
          else if hasProperties then some (Node.scalar tag "" true, p)
          else none
        | _ => if hasProperties then some (Node.scalar tag "" true, p) else none
      some (n, p.remember anchor n)

/-- A node, or the missing node before one of the given tokens. -/
def nodeUnless : Nat → Bool → Bool → List Token → Progress → Option (Node × Progress)
  | 0, _, _, _, _ => none
  | fuel + 1, block, indentless, ends, p =>
    if p.sees ends then some (Node.missing, p) else node fuel block indentless p

/-- The entries of a block sequence and its end. -/
def blockEntries : Nat → Progress → Option (List Node × Progress)
  | 0, _ => none
  | fuel + 1, p =>
    match p.peek with
    | some .entry => do
      let (n, p) ← nodeUnless fuel true false [.entry, .blockEnd] p.skip
      let (ns, p) ← blockEntries fuel p
      some (n :: ns, p)
    | some .blockEnd => some ([], p.skip)
    | _ => none

/-- The entries of a sequence without indentation of its own. -/
def plainEntries : Nat → Progress → Option (List Node × Progress)
  | 0, _ => none
  | fuel + 1, p =>
    match p.peek with
    | some .entry => do
      let (n, p) ← nodeUnless fuel true false [.entry, .key, .value, .blockEnd] p.skip
      let (ns, p) ← plainEntries fuel p
      some (n :: ns, p)
    | _ => some ([], p)

/-- The entries of a block mapping and its end. -/
def blockPairs : Nat → Progress → Option (List (Node × Node) × Progress)
  | 0, _ => none
  | fuel + 1, p =>
    match p.peek with
    | some .key => do
      let (k, p) ← nodeUnless fuel true true [.key, .value, .blockEnd] p.skip
      let (v, p) ←
        match p.peek with
        | some .value => nodeUnless fuel true true [.key, .value, .blockEnd] p.skip
        | _ => some (Node.missing, p)
      let (rest, p) ← blockPairs fuel p
      some ((k, v) :: rest, p)
    | some .blockEnd => some ([], p.skip)
    | _ => none

/-- The items of a flow sequence and its end.  An item may be a mapping of one entry. -/
def flowItems : Nat → Bool → Progress → Option (List Node × Progress)
  | 0, _, _ => none
  | fuel + 1, first, p =>
    match p.peek with
    | some .flowSequenceEnd => some ([], p.skip)
    | t => do
      let p ← if first then some p else if t == some .flowEntry then some p.skip else none
      match p.peek with
      | some .flowSequenceEnd => some ([], p.skip)
      | some .key => do
        let p := p.skip
        let (k, p) ←
          if p.sees [.value, .flowEntry, .flowSequenceEnd] then some (Node.missing, p.skip)
          else node fuel false false p
        let (v, p) ←
          match p.peek with
          | some .value => nodeUnless fuel false false [.flowEntry, .flowSequenceEnd] p.skip
          | _ => some (Node.missing, p)
        let (rest, p) ← flowItems fuel false p
        some (Node.mapping none [(k, v)] :: rest, p)
      | _ => do
        let (n, p) ← node fuel false false p
        let (rest, p) ← flowItems fuel false p
        some (n :: rest, p)

/-- The entries of a flow mapping and its end. -/
def flowEntries : Nat → Bool → Progress → Option (List (Node × Node) × Progress)
  | 0, _, _ => none
  | fuel + 1, first, p =>
    match p.peek with
    | some .flowMappingEnd => some ([], p.skip)
    | t => do
      let p ← if first then some p else if t == some .flowEntry then some p.skip else none
      match p.peek with
      | some .flowMappingEnd => some ([], p.skip)
      | some .key => do
        let (k, p) ← nodeUnless fuel false false [.value, .flowEntry, .flowMappingEnd] p.skip
        let (v, p) ←
          match p.peek with
          | some .value => nodeUnless fuel false false [.flowEntry, .flowMappingEnd] p.skip
          | _ => some (Node.missing, p)
        let (rest, p) ← flowEntries fuel false p
        some ((k, v) :: rest, p)
      | _ => do
        let (k, p) ← node fuel false false p
        let (rest, p) ← flowEntries fuel false p
        some ((k, Node.missing) :: rest, p)

end

/-- The directives before a document: at most one version, which must be 1.1 or 1.2, and tag
handles, each declared once. -/
def directives? : Bool → List (String × String) → List Token →
    Option (List (String × String) × List Token)
  | seen, handles, .version major minor :: rest =>
    if seen || major != 1 || (minor != 1 && minor != 2) then none
    else directives? true handles rest
  | seen, handles, .tagHandle handle start :: rest =>
    if handles.any (·.1 == handle) then none
    else directives? seen (handles ++ [(handle, start)]) rest
  | _, handles, rest => some (handles, rest)

/-- The tag handles of every document. -/
def standardHandles : List (String × String) :=
  [("!", "!"), ("!!", "tag:yaml.org,2002:")]

/-- The root of the only document of a token list; nothing when there is no document at all. -/
def documentOf? (tokens : List Token) : Option (Option Node) :=
  if tokens.isEmpty then some none
  else do
    let (handles, rest) ← directives? false [] tokens
    let declared := rest.length < tokens.length
    let explicit := rest.head? == some .documentStart
    if declared && !explicit then none
    else
      let p : Progress :=
        ⟨if explicit then rest.tail else rest, handles ++ standardHandles, []⟩
      let fuel := 4 * tokens.length + 4
      let (n, p) ←
        if explicit then
          match p.peek with
          | none => some (Node.missing, p)
          | some .documentEnd => some (Node.missing, p)
          | some .documentStart => some (Node.missing, p)
          | some (.version ..) => some (Node.missing, p)
          | some (.tagHandle ..) => some (Node.missing, p)
          | some _ => node fuel true false p
        else node fuel true false p
      if p.tokens.all (· == .documentEnd) then some (some n) else none

/-- The root of the only document of a text. -/
def document? (s : List Char) : Option (Option Node) :=
  (tokens? s).bind documentOf?

end Yaml
end Frontispiece
