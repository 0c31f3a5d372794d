import Frontispiece.Artifact.Svg
import Frontispiece.Proofs.Markup.Pretty

/-!
# Minified drawings

A drawing that is minified is read, changed and written again.  Nothing in between adds a name that
the drawing did not have, other than that of the merged style, so the result is valid when the names
that were read can be written.  The reader takes more names than that: the tag `<g/ >` opens an
element named `g/`, and once the space is gone `<g/>` is one that closes itself.

## What is here

* `dropBlankText_each`, `withoutStyles_each`, `mergeStyles_each` — what minifying keeps of names.
* `validateSvg_minifySvg` — a valid drawing is minified without an error, and the result is valid
  when the names of the drawing are plain.
* `exists_minifySvg_not_valid` — not so for all names that are read.

That something is written for every valid drawing is the easy half, since neither pass can fail.
The other half is the round trip of markup, for which names have to be plain: the reader takes names
that end in a slash, and the writer puts its own slash behind such a name.  No condition on texts,
values or stylesheets is needed.
-/

set_option autoImplicit false

namespace Frontispiece
namespace Artifact

open Markup (Tree Plain Writable)

variable {p : String → Fields String → Prop}

/-! ## Names that are kept

Neither pass changes a tag or adds one but that of styles.  So if the names of a drawing can be
written, those of the minified one can. -/

mutual

theorem dropBlankText_each : ∀ {tree : Tree}, tree.Each p → (dropBlankText tree).Each p
  | .text _, _ => trivial
  | .element _ _ _, ⟨htag, hchildren⟩ => ⟨htag, dropBlankTexts_each _ hchildren⟩

theorem dropBlankTexts_each (shown : Bool) : ∀ {trees : List Tree}, Tree.EachIn p trees →
    Tree.EachIn p (dropBlankTexts shown trees)
  | [], _ => trivial
  | child :: rest, ⟨hchild, hrest⟩ => by
    rw [dropBlankTexts]
    split
    · exact dropBlankTexts_each shown hrest
    · exact ⟨dropBlankText_each hchild, dropBlankTexts_each shown hrest⟩

end

mutual

theorem withoutStyles_each : ∀ {tree : Tree}, tree.Each p → (withoutStyles tree).Each p
  | .text _, _ => trivial
  | .element _ _ _, ⟨htag, hchildren⟩ => ⟨htag, withoutStylesOf_each hchildren⟩

theorem withoutStylesOf_each : ∀ {trees : List Tree}, Tree.EachIn p trees →
    Tree.EachIn p (withoutStylesOf trees)
  | [], _ => trivial
  | child :: rest, ⟨hchild, hrest⟩ => by
    rw [withoutStylesOf]
    split
    · exact withoutStylesOf_each hrest
    · exact ⟨withoutStyles_each hchild, withoutStylesOf_each hrest⟩

end

/-- The merged style is the only new element. -/
theorem mergeStyles_each (hstyle : p "style" []) (debug : Bool) {tree : Tree} (h : tree.Each p) :
    (mergeStyles debug tree).Each p := by
  cases tree with
  | text content => exact trivial
  | element tag attrs children =>
    rw [mergeStyles]
    split
    · exact h
    · have hkept : Tree.EachIn p (withoutStylesOf children) := withoutStylesOf_each h.2
      dsimp only
      generalize (if debug then _ else _ : List Char) = css
      have hnew : Tree.EachIn p [.element "style" [] [.text (String.ofList css)]] :=
        ⟨⟨hstyle, trivial, trivial⟩, trivial⟩
      refine ⟨h.1, ?_⟩
      split
      · exact hkept
      · exact hkept.append hnew

theorem tag?_minified (debug : Bool) (tree : Tree) :
    (mergeStyles debug (dropBlankText tree)).tag? = tree.tag? := by
  cases tree with
  | text content => rfl
  | element tag attrs children =>
    rw [dropBlankText, mergeStyles]
    split
    · rfl
    · rfl

/-! ## Valid drawings

A drawing is valid if it can be read, and it can be read if it was written from names that are
names.  The reader takes more for a name than can be written, and there a minified drawing may be
refused. -/

theorem validateSvg_eq_ok_iff {s : List Char} :
    validateSvg s = .ok () ↔ ∃ tree, Markup.parseSvg s = .ok tree := by
  rw [validateSvg]
  cases Markup.parseSvg s with
  | error e => simp [Except.map]
  | ok tree => simp [Except.map]

theorem minifySvg_of_parseSvg {s : List Char} {tree : Tree} (h : Markup.parseSvg s = .ok tree)
    (debug : Bool) :
    minifySvg debug s = .ok ((mergeStyles debug (dropBlankText tree)).render debug) := by
  rw [minifySvg, h]
  rfl

/-- Names that were read and are plain can be written. -/
theorem writable_of_parse {s : List Char} {tree : Tree} (h : Markup.parse s = .ok tree)
    (hplain : tree.Each Plain) : tree.Each Writable :=
  (Markup.parse_readable h).imp₂ (fun _ _ => Writable.mk) hplain

/-- **Minified drawings are valid.**  A valid drawing is minified without an error, to be read or to
be small.  What comes out is valid as well when the names of its tags and attributes are plain: no
tag is empty or ends in a slash, and no name has a quote or a closing angle bracket in it. -/
theorem validateSvg_minifySvg {s : List Char} (h : validateSvg s = .ok ()) (debug : Bool) :
    ∃ tree out, Markup.parseSvg s = .ok tree ∧ minifySvg debug s = .ok out ∧
      (tree.Each Plain → validateSvg out.toList = .ok ()) := by
  obtain ⟨tree, htree⟩ := validateSvg_eq_ok_iff.1 h
  obtain ⟨hparse, htag⟩ := Markup.parseSvg_eq_ok_iff.1 htree
  refine ⟨tree, _, htree, minifySvg_of_parseSvg htree debug, fun hplain => ?_⟩
  have hstyle : Writable "style" [] := .of_isName rfl (by simp) List.nodup_nil
  have heach : (mergeStyles debug (dropBlankText tree)).Each Writable :=
    mergeStyles_each hstyle debug (dropBlankText_each (writable_of_parse hparse hplain))
  have hsvg := (tag?_minified debug tree).trans htag
  refine validateSvg_eq_ok_iff.2 ⟨_, Markup.parseSvg_eq_ok_iff.2
    ⟨Markup.parse_rendered hsvg heach debug, ?_⟩⟩
  rw [Tree.tag?_normal, Tree.tag?_layout, hsvg]

/-- A drawing with names that no XML has, a reference that means nothing, two styles and text that
the tree does not keep. -/
def oddDrawing : String :=
  "<!DOCTYPE svg><svg 1='&what;'><style>a\x7b\x7d</style>\n<-g =x='\"'/><![CDATA[<a>]]><style/></svg>"

/-- It is minified to a drawing that is valid. -/
theorem oddDrawing_minifySvg : validateSvg oddDrawing.toList = .ok () ∧
    ∃ out, minifySvg true oddDrawing.toList = .ok out ∧ validateSvg out.toList = .ok () := by
  have hparse : Markup.parseSvg oddDrawing.toList = .ok (.element "svg" [("1", "&what;")]
      [.element "style" [] [.text "a\x7b\x7d"], .text "\n", .element "-g" [("=x", "\"")] [],
        .text "<a>", .element "style" [] []]) := by rfl
  have hvalid : validateSvg oddDrawing.toList = .ok () := validateSvg_eq_ok_iff.2 ⟨_, hparse⟩
  obtain ⟨tree, out, htree, hout, himp⟩ := validateSvg_minifySvg hvalid true
  rw [hparse] at htree
  obtain rfl := Except.ok.inj htree
  refine ⟨hvalid, out, hout, himp ?_⟩
  have hstyle : Plain "style" [] := ⟨rfl, by simp⟩
  exact ⟨⟨rfl, by decide⟩, ⟨hstyle, trivial, trivial⟩, trivial, ⟨⟨rfl, by decide⟩, trivial⟩, trivial,
    ⟨hstyle, trivial⟩, trivial⟩

/-- A drawing with an element named `g/`. -/
def slashedDrawing : String :=
  "<svg><g/ >x</g/></svg>"

/-- **Not every valid drawing is minified to a valid one.** -/
theorem exists_minifySvg_not_valid : ¬∀ (s : List Char) (debug : Bool), validateSvg s = .ok () →
    ∃ out, minifySvg debug s = .ok out ∧ validateSvg out.toList = .ok () := by
  intro h
  have hvalid : validateSvg slashedDrawing.toList = .ok () := by rfl
  have hout : minifySvg false slashedDrawing.toList = .ok "<svg><g/>x</g/></svg>" := by
    decide +kernel
  obtain ⟨out, hminified, hagain⟩ := h slashedDrawing.toList false hvalid
  rw [hout] at hminified
  obtain rfl := Except.ok.inj hminified
  have hinvalid : validateSvg "<svg><g/>x</g/></svg>".toList = .error ⟨10, .malformed⟩ := by rfl
  rw [hinvalid] at hagain
  cases hagain

end Artifact
end Frontispiece
