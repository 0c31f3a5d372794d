import Frontispiece.Proofs.Artifact.Compact
import Frontispiece.Proofs.Artifact.Reread

/-!
# Minified drawings minified again

A minified drawing has no blank texts left that do not show, and one style at most, at its end.  So
minifying what is read back of it takes nothing away, and puts the style where it was.  What may
differ is how it is written, where an element is hollow, and the style: it loses a semicolon more
when it had two before a closing brace.

## What is here

* `dropBlankText_minified` — no blank texts are left that do not show.
* `minified_layout` — what is read back of a minified drawing is what minifying it again gives, if its
  style is written again as it was.
* `stylesheet_stays_iff` — when the style is written again as it was.
* `minifySvg_twice` — when a minified drawing is minified to itself.
* `exists_minifySvg_changed` — not all of them are.

Three things could change in a second pass: blank texts, the style, and the form in which elements
are written.  The first cannot: no blank text is left that would be dropped, and the indentation
that is read back is either dropped again or written in the place from which it was read.  The other
two can, and each has its condition in the theorem: no hollow elements, and a stylesheet that stays
as it is.
-/

set_option autoImplicit false

namespace Frontispiece
namespace Artifact

open Markup (Tree textTrees)

variable {children : List Tree} {pretty : Bool} {depth : Nat}

/-! ## What is left alone

A second minification reads the first one's output: it drops blank texts, of which there are none,
and joins styles, of which there is one.  What is left is to ask when the joined stylesheet is the
same when it is compacted again. -/

mutual

theorem dropBlankText_dropBlankText : ∀ tree : Tree,
    dropBlankText (dropBlankText tree) = dropBlankText tree
  | .text _ => rfl
  | .element tag attrs children => by
    rw [dropBlankText, dropBlankText, dropBlankTexts_dropBlankTexts _ children]

/-- There are no blank texts left to drop. -/
theorem dropBlankTexts_dropBlankTexts (shown : Bool) : ∀ trees : List Tree,
    dropBlankTexts shown (dropBlankTexts shown trees) = dropBlankTexts shown trees
  | [] => rfl
  | child :: rest => by
    rw [dropBlankTexts]
    split
    · exact dropBlankTexts_dropBlankTexts shown rest
    · next hkept =>
      have hsame : isBlankText (dropBlankText child) = isBlankText child := by cases child <;> rfl
      rw [dropBlankTexts, hsame, if_neg hkept, dropBlankText_dropBlankText child,
        dropBlankTexts_dropBlankTexts shown rest]

end

mutual

theorem dropBlankText_withoutStyles : ∀ tree : Tree,
    dropBlankText tree = tree → dropBlankText (withoutStyles tree) = withoutStyles tree
  | .text _, _ => rfl
  | .element tag attrs children, h => by
    rw [dropBlankText, Tree.element.injEq] at h
    rw [withoutStyles, dropBlankText, dropBlankTexts_withoutStylesOf _ children h.2.2]

/-- Without styles, no blank text comes to be one that does not show. -/
theorem dropBlankTexts_withoutStylesOf (shown : Bool) : ∀ trees : List Tree,
    dropBlankTexts shown trees = trees →
    dropBlankTexts shown (withoutStylesOf trees) = withoutStylesOf trees
  | [], _ => rfl
  | child :: rest, h => by
    obtain ⟨hsolid, hchild, hrest⟩ := dropBlankTexts_cons_iff.1 h
    have hkept := dropBlankTexts_withoutStylesOf shown rest hrest
    rw [withoutStylesOf]
    split
    · exact hkept
    · refine dropBlankTexts_cons_iff.2 ⟨hsolid.imp_right fun hsolid => ?_,
        dropBlankText_withoutStyles child hchild, hkept⟩
      cases child with
      | text content => exact hsolid
      | element tag attrs children => rfl

end

/-- The new stylesheet is not blank, so it stays. -/
theorem dropBlankTexts_styleElement {debug : Bool} {texts : List (List Char)} (shown : Bool) :
    dropBlankTexts shown (styleElement (stylesheet debug texts))
      = styleElement (stylesheet debug texts) := by
  rw [styleElement]
  split
  · rfl
  · next hsome =>
    have hsolid := allBlank_stylesheet (by simpa using hsome)
    have htext : isBlankText (.text (String.ofList (stylesheet debug texts))) = false := by
      rw [isBlankText, String.toList_ofList, hsolid]
    refine dropBlankTexts_cons_iff.2 ⟨.inr rfl, ?_, rfl⟩
    rw [dropBlankText, dropBlankTexts_cons_iff.2 ⟨.inr htext, rfl, rfl⟩]

/-- A minified drawing has no blank text that does not show. -/
theorem dropBlankText_minified (debug : Bool) (tree : Tree) :
    dropBlankText (minified debug tree) = minified debug tree := by
  cases tree with
  | text content => rfl
  | element tag attrs children =>
    rw [minified, dropBlankText, mergeStyles_eq, dropBlankText, dropBlankTexts_append,
      dropBlankTexts_withoutStylesOf _ _ (dropBlankTexts_dropBlankTexts _ children),
      dropBlankTexts_styleElement]

/-- What the styles say that are read back is what the styles say that were written. -/
theorem map_styleText_laidOut {tree : Tree} (h : dropBlankText tree = tree) (pretty : Bool)
    (depth : Nat) : (styles (laidOut pretty depth tree).normal).map styleText
      = (styles tree).map styleText := by
  rw [← styleTexts_dropBlankText, dropBlankText_laidOut pretty tree depth h, styleTexts_reread,
    ← styleTexts_dropBlankText, h]

/-- The new element holds the whole stylesheet, and is not made for an empty one. -/
theorem map_styleText_styleElement (debug : Bool) (texts : List (List Char)) :
    (styleElement (stylesheet debug texts)).map styleText
      = if stylesheet debug texts = [] then [] else [stylesheet debug texts] := by
  rw [styleElement]
  by_cases hcss : stylesheet debug texts = []
  · rw [hcss]
    rfl
  · have hsolid := allBlank_stylesheet hcss
    rw [if_neg (by simpa using hcss), if_neg hcss, List.map_singleton, styleText, Tree.children,
      solidText]
    simp [hsolid]

/-- A style that says something says one thing. -/
theorem stylesheet_inj (debug : Bool) {texts others : List (List Char)}
    (h : (styleElement (stylesheet debug texts)).map styleText
      = (styleElement (stylesheet debug others)).map styleText) :
    stylesheet debug texts = stylesheet debug others := by
  rw [map_styleText_styleElement, map_styleText_styleElement] at h
  split at h
  · next htexts =>
    split at h
    · next hothers => rw [htexts, hothers]
    · cases h
  · split at h
    · cases h
    · exact (List.cons.inj h).1

/-- A style that was written is written again as it is when it is trimmed, or made compact again. -/
theorem stylesheet_styleElement (debug : Bool) (texts : List (List Char)) :
    stylesheet debug ((styleElement (stylesheet debug texts)).map styleText)
      = if debug then Text.trim (stylesheet debug texts) else compactCss (stylesheet debug texts) := by
  rw [map_styleText_styleElement]
  split
  · next hcss =>
    rw [hcss]
    cases debug <;> rfl
  · cases debug <;> rfl

/-- The new element is read back behind whatever text comes before it. -/
theorem rereadIn_styleElement (css : List Char) (read : String) :
    rereadIn pretty false depth read (styleElement css) = textTrees read ++ styleElement css := by
  rw [styleElement]
  split
  · rw [rereadIn, List.append_nil]
  · next hcss =>
    have hindent : (pretty && [Tree.text (String.ofList css)].all Tree.isElement) = false :=
      Bool.and_false pretty
    have htext : textTrees (String.ofList css) = [.text (String.ofList css)] :=
      if_neg (by simpa using hcss)
    rw [rereadIn_element rfl, if_neg Bool.false_ne_true, List.append_nil, reread_plain hindent,
      rereadIn_text, String.empty_append, rereadIn, rereadIn, htext]
    rfl

/-- Behind other children as well it is read back as it was. -/
theorem rereadIn_append_styleElement (css : List Char) : ∀ (trees : List Tree) (read : String),
    rereadIn pretty false depth read (trees ++ styleElement css)
      = rereadIn pretty false depth read trees ++ styleElement css
  | [], read => rereadIn_styleElement css read
  | .text content :: rest, read => rereadIn_append_styleElement css rest (read ++ content)
  | .element tag attrs children :: rest, read => by
    rw [List.cons_append, rereadIn_element rfl, rereadIn_element rfl,
      rereadIn_append_styleElement css rest]
    simp only [List.append_assoc, List.cons_append]

/-- No style is left to say something. -/
theorem styleTextsOf_withoutStylesOf (children : List Tree) :
    styleTextsOf (withoutStylesOf (dropBlankTexts false children)) = [] := by
  have hsame := dropBlankTexts_withoutStylesOf false _ (dropBlankTexts_dropBlankTexts false children)
  have htexts := styleTextsOf_dropBlankTexts false
    (withoutStylesOf (dropBlankTexts false children))
  rw [hsame, elementsIn_withoutStylesOf] at htexts
  exact List.map_eq_nil_iff.1 htexts

theorem withoutStylesOf_append (trees more : List Tree) :
    withoutStylesOf (trees ++ more) = withoutStylesOf trees ++ withoutStylesOf more := by
  induction trees with
  | nil => rfl
  | cons child rest ih =>
    rw [List.cons_append, withoutStylesOf, withoutStylesOf, ih]
    split <;> rfl

theorem withoutStylesOf_styleElement (css : List Char) : withoutStylesOf (styleElement css) = [] := by
  rw [styleElement]
  split <;> rfl

/-- What a minified drawing is read back as is minified to what is read back of it, if its style is
written again as it was. -/
theorem minified_layout (debug : Bool) {tree : Tree} (h : tree.tag? = some "svg")
    (hcss : stylesheet debug ((styles (minified debug tree)).map styleText)
      = stylesheet debug ((styles tree).map styleText)) :
    minified debug ((minified debug tree).layout debug).normal
      = reread debug 0 (minified debug tree) := by
  have hkept := dropBlankText_minified debug tree
  have hagain : dropBlankText ((minified debug tree).layout debug).normal
      = reread debug 0 (minified debug tree) := dropBlankText_laidOut debug _ 0 hkept
  have htexts := styleTexts_dropBlankText (minified debug tree)
  rw [hkept] at htexts
  rw [minified, hagain]
  cases tree with
  | text content => cases h
  | element tag attrs children =>
    obtain rfl : tag = "svg" := Option.some.inj h
    have hmerged : minified debug (.element "svg" attrs children) = .element "svg" attrs
        (withoutStylesOf (dropBlankTexts false children) ++ styleElement (stylesheet debug
          ((styles (.element "svg" attrs children)).map styleText))) := by
      rw [minified, dropBlankText, mergeStyles_eq, styleTextsOf_dropBlankTexts]
      rfl
    rw [← htexts, hmerged] at hcss
    rw [hmerged]
    generalize stylesheet debug ((styles (.element "svg" attrs children)).map styleText) = css
      at hcss ⊢
    have hnone : styleTextsOf (rereadIn debug false 1 ""
        (withoutStylesOf (dropBlankTexts false children))) = [] := by
      rw [styleTextsOf_rereadIn, styleTextsOf_withoutStylesOf]
    have hsheet : stylesheet debug ((styleTextsOf (styleElement css)).map String.toList) = css := by
      refine Eq.trans ?_ hcss
      rw [styleTexts, styleTextsOf_append, styleTextsOf_withoutStylesOf]
      rfl
    have hshows : ∀ children, indentShows debug "svg" children = false :=
      fun children => Bool.and_false _
    rw [reread, hshows, rereadIn_append_styleElement, if_neg Bool.false_ne_true, List.append_nil,
      mergeStyles_eq, styleTextsOf_append, hnone, List.nil_append, hsheet, withoutStylesOf_append,
      withoutStylesOf_styleElement, withoutStylesOf_of_nil hnone, List.append_nil]

theorem trim_trim (s : List Char) : Text.trim (Text.trim s) = Text.trim s := by
  by_cases htrim : Text.trim s = []
  · rw [htrim]
    rfl
  · obtain ⟨c, rest, hc, heq⟩ := exists_trim_eq htrim
    rw [heq, Text.trim, Text.trimStart, List.dropWhile_cons_of_neg (by simp [hc]), trimEnd_cons hc,
      trimEnd_eq, trimEnd_eq, List.rdropWhile_idempotent]

/-- Whether the style of a minified drawing is written again as it was. -/
theorem stylesheet_stays_iff (debug : Bool) (texts : List (List Char)) :
    stylesheet debug ((styleElement (stylesheet debug texts)).map styleText) = stylesheet debug texts ↔
      (debug = false → ¬[.char ';', .char ';', .char '}'] <:+:
        (pieces (Text.join ['\n'] texts)).map CssPiece.item) := by
  rw [stylesheet_styleElement]
  cases debug with
  | true => exact iff_of_true (trim_trim _) nofun
  | false =>
    refine (compactCss_compactCss_iff (Text.join ['\n'] texts)).trans ?_
    simp

/-- **Minifying a minified drawing.**  A drawing that is valid and has plain names is minified, and so
is what comes out.  It is then left as it is just when

* none of its elements has texts without characters and nothing else, or, where the drawing is
  indented, nothing else but elements, and
* in the text of its styles no two semicolons stand before a closing brace, blanks and comments
  aside, or the style is only trimmed. -/
theorem minifySvg_twice {s : List Char} {tree : Tree} (h : Markup.parseSvg s = .ok tree)
    (hplain : tree.Each Markup.Plain) (debug : Bool) :
    minifySvg debug s = .ok ((minified debug tree).render debug) ∧
      ∃ again, minifySvg debug ((minified debug tree).render debug).toList = .ok again ∧
        (again = (minified debug tree).render debug ↔
          Filled debug (minified debug tree).elements ∧
          (debug = false → ¬[.char ';', .char ';', .char '}'] <:+:
            (pieces (Text.join ['\n'] ((styles tree).map styleText))).map CssPiece.item)) := by
  have hstyle : Markup.Plain "style" [] := ⟨rfl, by simp⟩
  have hplain' : ((minified debug tree).layout debug).normal.Each Markup.Plain :=
    ((mergeStyles_each hstyle debug (dropBlankText_each hplain)).layout debug).normal
  -- what is written is read back as the tree that it lays out, and so is what is written from that
  have hread := parseSvg_minified h hplain debug
  have hreread := parseSvg_minified hread hplain' debug
  have htexts : (styles ((minified debug tree).layout debug).normal).map styleText
      = (styles (minified debug tree)).map styleText :=
    map_styleText_laidOut (dropBlankText_minified debug tree) debug 0
  have hstays := stylesheet_stays_iff debug ((styles tree).map styleText)
  rw [← styles_minified h, ← htexts] at hstays
  refine ⟨minifySvg_of_parseSvg h debug, _, minifySvg_of_parseSvg hread debug, ?_⟩
  rw [← minified, ← hstays]
  -- with one stylesheet, the two texts differ in nothing but how the elements are laid out
  have hfilled (hcss : stylesheet debug
      ((styles ((minified debug tree).layout debug).normal).map styleText)
        = stylesheet debug ((styles tree).map styleText)) :
      (minified debug ((minified debug tree).layout debug).normal).render debug
          = (minified debug tree).render debug ↔ Filled debug (minified debug tree).elements := by
    have hwritten := chars_reread_iff debug (minified debug tree) 0 [] []
    rw [List.append_nil, List.append_nil, and_iff_left rfl] at hwritten
    rw [htexts] at hcss
    rw [minified_layout debug (Markup.parseSvg_eq_ok_iff.1 h).2 hcss, Tree.render_eq, Tree.render_eq,
      String.ofList_inj, hwritten]
  refine ⟨fun heq => ?_, fun hboth => (hfilled hboth.2).2 hboth.1⟩
  have hcss : stylesheet debug ((styles ((minified debug tree).layout debug).normal).map styleText)
      = stylesheet debug ((styles tree).map styleText) := by
    -- what is written alike is read alike, and says the same
    rw [heq, hread] at hreread
    have hsame := congrArg (fun tree => (styles tree).map styleText) (Except.ok.inj hreread)
    have htwice := map_styleText_laidOut
      (dropBlankText_minified debug ((minified debug tree).layout debug).normal) debug 0
    refine stylesheet_inj debug ?_
    rw [← styles_minified hread, ← styles_minified h, ← htexts]
    exact htwice.symm.trans hsame.symm
  exact ⟨(hfilled hcss).1 heq, hcss⟩

/-- A drawing with a style at its end. -/
def styled (children : List Tree) (text : String) : Tree :=
  .element "svg" [] (children ++ [.element "style" [] [.text text]])

/-- Where the only style stands at the end, it is made small there. -/
theorem minified_styled {debug : Bool} {text : String} (css : String)
    (hkept : dropBlankTexts false children = children) (hnone : styleTextsOf children = [])
    (htext : Text.allBlank text.toList = false)
    (hcss : stylesheet debug [text.toList] = css.toList) (hsome : css.toList.isEmpty = false) :
    minified debug (styled children text) = styled children css := by
  have hshown : textTags.contains "svg" = false := rfl
  have hstyle : dropBlankTexts false [.element "style" [] [.text text]]
      = [.element "style" [] [.text text]] := by
    simp [dropBlankTexts, dropBlankText, isBlankText, htext]
  have hdropped : dropBlankText (styled children text) = styled children text := by
    rw [styled, dropBlankText, hshown, dropBlankTexts_append, hkept, hstyle]
  have htexts : styleTextsOf [.element "style" [] [.text text]] = [text] := by
    simp [styleTextsOf, styleTexts, directText]
  rw [minified, hdropped, styled, mergeStyles_eq, styleTextsOf_append, hnone, htexts,
    withoutStylesOf_append, withoutStylesOf_of_nil hnone, List.nil_append, List.map_singleton, hcss,
    styleElement, hsome, String.ofList_toList]
  exact congrArg (Tree.element "svg" []) (congrArg (· ++ _) (List.append_nil children))

/-- A drawing with a text and a style. -/
def letteredDrawing : String :=
  "<svg><text>a<tspan/></text><style> b\x7bc: d;\x7d </style></svg>"

/-- It is left as it is once it was minified, to be read or to be small. -/
theorem letteredDrawing_minifySvg_twice :
    (∃ out, minifySvg true letteredDrawing.toList = .ok out ∧ minifySvg true out.toList = .ok out) ∧
      ∃ out, minifySvg false letteredDrawing.toList = .ok out ∧
        minifySvg false out.toList = .ok out := by
  suffices h : ∀ debug, ∃ out, minifySvg debug letteredDrawing.toList = .ok out ∧
      minifySvg debug out.toList = .ok out from ⟨h true, h false⟩
  intro debug
  have hparse : Markup.parseSvg letteredDrawing.toList = .ok (styled
      [.element "text" [] [.text "a", .element "tspan" [] []]] " b\x7bc: d;\x7d ") := by rfl
  have hbare {tag : String} (h : Markup.isPlainTag tag = true) : Markup.Plain tag [] :=
    ⟨h, by simp⟩
  obtain ⟨hout, again, hagain, hiff⟩ := minifySvg_twice hparse ⟨hbare rfl,
    ⟨hbare rfl, trivial, ⟨hbare rfl, trivial⟩, trivial⟩, ⟨hbare rfl, trivial, trivial⟩, trivial⟩ debug
  refine ⟨_, hout, hagain.trans (congrArg _ (hiff.2 ⟨?filled, fun _ => ?single⟩))⟩
  case filled =>
    cases debug with
    | true =>
      have hcss : stylesheet true [" b\x7bc: d;\x7d ".toList] = "b\x7bc: d;\x7d".toList := by rfl
      rw [minified_styled _ rfl rfl (by rfl) hcss rfl]
      decide
    | false =>
      have hcss : stylesheet false [" b\x7bc: d;\x7d ".toList] = "b\x7bc:d\x7d".toList := by
        decide +kernel
      rw [minified_styled _ rfl rfl (by rfl) hcss rfl]
      decide
  case single => decide +kernel

/-- A drawing whose style has two semicolons before a closing brace. -/
def doubledDrawing : String :=
  "<svg><style>a\x7bb:c;;\x7d</style></svg>"

/-- **Not every minified drawing is left as it is when it is minified again.** -/
theorem exists_minifySvg_changed : ¬∀ (s : List Char) (debug : Bool) (out : String),
    validateSvg s = .ok () → minifySvg debug s = .ok out → minifySvg debug out.toList = .ok out := by
  intro h
  have hdoubled : Markup.parseSvg doubledDrawing.toList = .ok (styled [] "a\x7bb:c;;\x7d") := by rfl
  have hout := minifySvg_of_parseSvg hdoubled false
  rw [← minified, minified_styled "a\x7bb:c;\x7d" rfl rfl (by rfl) (by decide +kernel) rfl] at hout
  have hsingle : Markup.parseSvg ((styled [] "a\x7bb:c;\x7d").render false).toList
      = .ok (styled [] "a\x7bb:c;\x7d") := by rfl
  have hagain := minifySvg_of_parseSvg hsingle false
  rw [← minified, minified_styled "a\x7bb:c\x7d" rfl rfl (by rfl) (by decide +kernel) rfl] at hagain
  have hsame := hagain.symm.trans (h _ _ _ (validateSvg_eq_ok_iff.2 ⟨_, hdoubled⟩) hout)
  rw [Except.ok.injEq, Tree.render_eq, Tree.render_eq, String.ofList_inj] at hsame
  exact absurd hsame (by decide)

end Artifact
end Frontispiece
