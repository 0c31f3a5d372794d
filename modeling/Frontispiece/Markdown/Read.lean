import Frontispiece.Markdown.Inline
import Frontispiece.Markdown.Outline

/-!
# Reading a document

`read` gives the blocks of a text with their content, and the labels that links use although no
definition has them, in the order of the text.
-/

set_option autoImplicit false

namespace Frontispiece
namespace Markdown

mutual

/-- A block with `f` applied to its contents, from first to last; `f` is told whether a content is
that of a cell. -/
def Block.mapM {m : Type → Type} [Monad m] {α β : Type} (f : Bool → α → m β) :
    Block α → m (Block β)
  | .paragraph task content => return .paragraph task (← f false content)
  | .checkbox checked => return .checkbox checked
  | .heading level content => return .heading level (← f false content)
  | .rule => return .rule
  | .code info text => return .code info text
  | .html text => return .html text
  | .quote blocks => return .quote (← Block.mapBlocks f blocks)
  | .list start tight items => return .list start tight (← Block.mapItems f items)
  | .table columns header rows => do
    let header ← header.mapM (f true)
    let rows ← rows.mapM (·.mapM (f true))
    return .table columns header rows

/-- `Block.mapM` on blocks. -/
def Block.mapBlocks {m : Type → Type} [Monad m] {α β : Type} (f : Bool → α → m β) :
    List (Block α) → m (List (Block β))
  | [] => return []
  | b :: rest => do
    let b ← Block.mapM f b
    let rest ← Block.mapBlocks f rest
    return b :: rest

/-- `Block.mapM` on the blocks of items. -/
def Block.mapItems {m : Type → Type} [Monad m] {α β : Type} (f : Bool → α → m β) :
    List (List (Block α)) → m (List (List (Block β)))
  | [] => return []
  | item :: rest => do
    let item ← Block.mapBlocks f item
    let rest ← Block.mapItems f rest
    return item :: rest

end

/-- A document. -/
structure Document where
  blocks : List (Block (List Inline))
  /-- The labels that links use although no definition has them. -/
  undefined : List (List Char)

/-- The content of a block, in a state that holds the undefined labels met so far. -/
def readContent (definitions : Definitions) (inTable : Bool) (content : List Char) :
    StateM (List (List Char)) (List Inline) := do
  let (inlines, undefined) := readInlines ⟨definitions, inTable⟩ content
  modify (· ++ undefined)
  return inlines

/-- The document that a text writes. -/
def read (s : List Char) : Document :=
  let (raw, definitions) := outline s
  let (blocks, undefined) := (Block.mapBlocks (readContent definitions) raw).run []
  ⟨blocks, undefined⟩

end Markdown
end Frontispiece
