import Frontispiece.Proofs.Files.Part
import Frontispiece.Proofs.Template.Congruence
import Frontispiece.Proofs.Template.Immediate

/-!
# Compilations apart

One compiler serves many templates.  What it keeps from one compilation to the next, the memo of
its provider, changes no statistic; and files that a template does not read do not matter to it.

## What is here

* `Advances` — where one evaluation gets to its end, another gets to the same end.
* `compile_of_part` — what compiles on a fresh desk and with a part of the files compiles to the
  same text on any other desk, and with all files.
* `compile_keeps` — a compilation leaves a memo that leads to the same statistics.
* `compile_of_immediate` — a direct template compiles to one text under every nonce.

Compilations of one build share a compiler, and a theorem about one descriptor needs that this does
not show.  What they share is the memo of statistics and the counter from which nonces are drawn.
The first is harmless since a statistic is what the source says.  The second is harmless to
templates whose text does not depend on the nonce, which has to be assumed or comes from the
template being direct.
-/

set_option autoImplicit false

namespace Frontispiece
namespace Template

open Files (FileTree)
open Deferred.Pass (ticketCount)
open Stats (Memo Provider Request)

variable {σ τ α β : Type}

/-! ## Evaluations that get to the same end

Two evaluations with different outputs and different files.  Only one direction is claimed: where
the first gets to an end, the second gets there too.  The other one fails, since the second has more
files to find. -/

/-- Two outputs that do the same with what is related. -/
structure Output.Alike (R : σ → τ → Prop) (out : Output σ) (out' : Output τ) : Prop where
  write : ∀ text s s', R s s' → R (out.write text s) (out'.write text s')
  fetch : ∀ request s s', R s s' → (out.fetch request s).1 = (out'.fetch request s').1 ∧
    R (out.fetch request s).2 (out'.fetch request s').2
  place : ∀ value s s', R s s' → (out.place value s).1 = (out'.place value s').1 ∧
    R (out.place value s).2 (out'.place value s').2

/-- Where the first evaluation gets to an end, the second gets to the same, and what they wrote is
still related. -/
def Advances (R : σ → τ → Prop) (x : Eval σ α) (y : Eval τ α) : Prop :=
  ∀ p q, R p.written q.written → p.partials = q.partials → ∀ a p', x.run p = (.ok a, p') →
    ∃ q', y.run q = (.ok a, q') ∧ R p'.written q'.written ∧ p'.partials = q'.partials

namespace Advances

variable {R : σ → τ → Prop}

/-- A result that the second evaluation has if the first one has it. -/
theorem pureResult {first second : Except Fault α} (h : ∀ a, first = .ok a → second = .ok a) :
    Advances R (pureResult first) (pureResult second) := by
  intro p q hR hpartials a p' hx
  cases hfirst : first with
  | error fault =>
    rw [hfirst] at hx
    cases hx
  | ok b =>
    rw [hfirst] at hx
    cases hx
    exact ⟨q, by rw [h a hfirst]; rfl, hR, hpartials⟩

theorem bind {x : Eval σ α} {y : Eval τ α} {f : α → Eval σ β} {g : α → Eval τ β}
    (h : Advances R x y) (hf : ∀ a, Advances R (f a) (g a)) : Advances R (x >>= f) (y >>= g) := by
  intro p q hR hpartials b p' hx
  have hfirst := h p q hR hpartials
  rw [Eval.run_bind] at hx
  generalize x.run p = first at hfirst hx
  obtain ⟨result, p₁⟩ := first
  cases result with
  | error fault => cases hx
  | ok a =>
    obtain ⟨q₁, hy, hR₁, hpartials₁⟩ := hfirst a p₁ rfl
    rw [Eval.run_bind, hy]
    exact hf a p₁ q₁ hR₁ hpartials₁ b p' hx

theorem partials {f : Fields (List Element) → Eval σ α} {g : Fields (List Element) → Eval τ α}
    (h : ∀ partials, Advances R (f partials) (g partials)) :
    Advances R (do let p ← get; f p.partials) (do let q ← get; g q.partials) := by
  intro p q hR hpartials a p' hx
  show ∃ q', (g q.partials).run q = _ ∧ _
  rw [← hpartials]
  exact h p.partials p q hR hpartials a p' hx

theorem changePartials (change : Fields (List Element) → Fields (List Element)) :
    Advances R (modify fun p => { p with partials := change p.partials })
      (modify fun q => { q with partials := change q.partials }) := by
  intro p q hR hpartials a p' hx
  cases hx
  exact ⟨_, rfl, hR, congrArg change hpartials⟩

theorem write {out : Output σ} {out' : Output τ} (h : out.Alike R out') (scope : Scope)
    (text : String) : Advances R (write out scope text) (write out' scope text) := by
  intro p q hR hpartials a p' hx
  cases hx
  exact ⟨_, rfl, h.write _ _ _ hR, hpartials⟩

theorem fetch {out : Output σ} {out' : Output τ} (h : out.Alike R out') (request : Request) :
    Advances R (fetch out request) (fetch out' request) := by
  intro p q hR hpartials a p' hx
  obtain ⟨hvalue, hR'⟩ := h.fetch request _ _ hR
  cases hx
  refine ⟨{ q with written := (out'.fetch request q.written).2 }, ?_, hR', hpartials⟩
  rw [fetch_run, hvalue]

theorem place {out : Output σ} {out' : Output τ} (h : out.Alike R out') (value : Json) :
    Advances R (place out value) (place out' value) := by
  intro p q hR hpartials a p' hx
  obtain ⟨hresult, hR'⟩ := h.place value _ _ hR
  rw [place_run] at hx
  obtain ⟨hok, rfl⟩ := Prod.mk.inj hx
  refine ⟨{ q with written := (out'.place value q.written).2 }, ?_, hR', hpartials⟩
  rw [place_run, ← hresult, hok]

end Advances

/-! ## Files

Only one helper reads a file.  What it finds in a part of the files it finds in all of them, and no
other helper looks at them. -/

/-- A setting with other files. -/
def Setting.withFiles (setting : Setting) (files : FileTree) : Setting := { setting with files }

/-- **What a helper answers from a part of the files, it answers from all of them.** -/
theorem answer_of_extends {setting : Setting} {files : FileTree}
    (h : setting.files.Extends files) {scope : Scope} {u : Helper.Use} {act : Act}
    (hact : answer setting scope u = .ok act) :
    answer (setting.withFiles files) scope u = .ok act := by
  rw [answer] at hact ⊢
  cases hname : Helper.ofName? u.name with
  | none =>
    rw [hname] at hact
    cases hact
  | some helper =>
    rw [hname] at hact
    cases helper with
    | embed =>
      obtain ⟨file, hfile, hact⟩ := exists_of_bind_ok hact
      obtain ⟨value, hvalue, hact⟩ := exists_of_bind_ok hact
      have hagain : Helper.embedded (setting.withFiles files) file = .ok value := by
        rw [Helper.embedded] at hvalue ⊢
        cases hread : setting.files.read (Files.join setting.static file) with
        | error cause =>
          simp only [hread] at hvalue
          cases hvalue
        | ok content =>
          simp only [hread] at hvalue
          simp only [Setting.withFiles, h.read hread]
          exact hvalue
      simp only [Helper.act, hfile]
      show (Helper.embedded (setting.withFiles files) file >>= fun value => _) = _
      rw [hagain]
      exact hact
    | _ => exact hact

/-! ## Desks

A draft knows its pass and its provider.  When the providers lead to the same statistics, what the
drafts write is the same, whatever was asked for before. -/

/-- Two drafts with the same pass, when no answer of the provider has changed for either. -/
def SamePass (provider : Provider) (memo : Memo) (d d' : Draft) : Prop :=
  d.pass = d'.pass ∧ provider.Keeps memo d.desk.memo ∧ provider.Keeps memo d'.desk.memo

/-- Placing looks at nothing but the pass. -/
theorem draft_place_eq (provider : Provider) (value : Json) (d : Draft) :
    (draftOutput provider).place value d = match d.pass.placeValue value with
      | .ok pass => (.ok (), ⟨pass, d.desk⟩)
      | .error (fault, pass) => (.error fault, ⟨pass, d.desk⟩) := rfl

/-- **Drafts of the same pass go the same way**, whatever else is on their desks. -/
theorem draft_alike (provider : Provider) (memo : Memo) :
    (draftOutput provider).Alike (SamePass provider memo) (draftOutput provider) where
  write text d d' h := ⟨by rw [draft_write, draft_write, h.1], h.2⟩
  fetch request d d' h := by
    refine ⟨by rw [draft_fetch_value, draft_fetch_value, h.1],
      by rw [draft_fetch_pass, draft_fetch_pass, h.1], ?_, ?_⟩
    · exact h.2.1.trans (provider.request_keeps _ _)
    · exact h.2.2.trans (provider.request_keeps _ _)
  place value d d' h := by
    rw [draft_place_eq, draft_place_eq, ← h.1]
    cases d.pass.placeValue value with
    | ok pass => exact ⟨rfl, rfl, h.2⟩
    | error refused => exact ⟨rfl, rfl, h.2⟩

/-- Evaluations with outputs that do the same, the second with more files. -/
def advances {R : σ → τ → Prop} {out : Output σ} {out' : Output τ} (hout : out.Alike R out')
    (setting : Setting) {files : FileTree} (h : setting.files.Extends files) :
    Congruence setting (setting.withFiles files) out out' where
  Rel := Advances R
  result _ := .pureResult fun _ hok => hok
  bind := .bind
  answer _ _ := .pureResult fun _ => answer_of_extends h
  write := .write hout
  fetch := .fetch hout
  place := .place hout
  partials := .partials
  changePartials := .changePartials

/-- Whatever an evaluation does, `P` stays true of what was written. -/
def stays {P : σ → Prop} {out : Output σ} (hout : out.Keeps P) (setting : Setting) :
    Congruence setting setting out out where
  Rel x _ := ∀ p, P p.written → P (x.run p).2.written
  result result p h := by cases result <;> exact h
  bind {_ _ x _ f _} hx hf p h := by
    have hfirst := hx p h
    rw [Eval.run_bind]
    generalize x.run p = first at hfirst
    obtain ⟨result, q⟩ := first
    cases result with
    | error fault => exact hfirst
    | ok a => exact hf a q hfirst
  answer scope u p h := by cases answer setting scope u <;> exact h
  write scope text p h := hout.write _ _ h
  fetch request p h := hout.fetch request _ h
  place value p h := by
    rw [place_run]
    exact hout.place value _ h
  partials {_ f _} hf p h := by
    show P ((f p.partials).run p).2.written
    exact hf p.partials p h
  changePartials _ _ h := h

/-! ## Whole compilations

A compilation is a run of the evaluation and then the settling of the draft.  What it leaves behind
for the next one is the memo, which changes no statistic. -/

/-- A compiler whose passes all draw one nonce. -/
def Compiler.withNonce (c : Compiler) (nonce : UInt64) : Compiler :=
  { c with nonce := fun _ => nonce }

/-- How a compilation evaluates a template. -/
def Compiler.evaluate (c : Compiler) (files : FileTree) (data : Json) (template : Template)
    (desk : Desk) : Except Fault Unit × Progress Draft :=
  (renderWithin ⟨c.version, c.time, c.static, files⟩ (draftOutput c.provider) maxDepth { data }
    template).run ⟨⟨.new (c.nonce desk.passes), { desk with passes := desk.passes + 1 }⟩, []⟩

variable {c : Compiler} {files files' : FileTree} {source text : String} {data : Json} {desk : Desk}
  {template : Template}

/-- What a compilation comes to, and what it leaves. -/
theorem compile_eq (c : Compiler) (files : FileTree) (data : Json) (desk : Desk)
    (h : ofText? source.toList = some template) : compile c files source data desk
      = match c.evaluate files data template desk with
        | (.ok (), p) => settle c.provider p.written
        | (.error fault, p) =>
          (.error ((p.written.pass.takeError).1.getD fault), p.written.desk) := by
  rw [compile, Compiler.evaluate]
  simp only [h, render]
  generalize (renderWithin _ (draftOutput c.provider) maxDepth { data } template).run _ = rendered
  obtain ⟨_ | _, p⟩ := rendered <;> rfl

/-- An evaluation by itself, and the same in company. -/
theorem evaluate_of_part (hfiles : files.Extends files')
    (hmemo : c.provider.Keeps .empty desk.memo) {p : Progress Draft}
    (h : (c.withNonce (c.nonce desk.passes)).evaluate files data template .empty = (.ok (), p)) :
    ∃ q, c.evaluate files' data template desk = (.ok (), q) ∧
      SamePass c.provider .empty p.written q.written := by
  obtain ⟨q, hq, hsame, -⟩ := (advances (draft_alike c.provider .empty)
    ⟨c.version, c.time, c.static, files⟩ hfiles).renderWithin maxDepth { data } template
    ⟨⟨.new (c.nonce desk.passes), ⟨.empty, 1, []⟩⟩, []⟩
    ⟨⟨.new (c.nonce desk.passes), { desk with passes := desk.passes + 1 }⟩, []⟩
    ⟨rfl, .refl _ _, hmemo⟩ rfl () p h
  exact ⟨q, hq, hsame⟩

/-- A draft settles to the same text whatever is on its desk. -/
theorem settle_of_samePass {d d' : Draft} (h : SamePass c.provider .empty d d') :
    (settle c.provider d).1 = (settle c.provider d').1 := by
  rw [@settle_fst c .empty d h.2.1, @settle_fst c .empty d' h.2.2, h.1]

/-- **What compiles by itself compiles to the same text in company.**  By itself it has a fresh
desk, the nonce that it will draw, and a part of the files. -/
theorem compile_of_part (hfiles : files.Extends files')
    (hmemo : c.provider.Keeps .empty desk.memo)
    (h : (compile (c.withNonce (c.nonce desk.passes)) files source data .empty).1 = .ok text) :
    (compile c files' source data desk).1 = .ok text := by
  cases htemplate : ofText? source.toList with
  | none =>
    rw [compile, htemplate] at h
    cases h
  | some template =>
    rw [compile_eq _ _ _ _ htemplate] at h ⊢
    have hcompany := fun p => @evaluate_of_part c files files' data desk template hfiles hmemo p
    generalize (c.withNonce _).evaluate files data template .empty = alone at h hcompany
    obtain ⟨_ | _, p⟩ := alone
    · cases h
    · obtain ⟨q, hq, hsame⟩ := hcompany p rfl
      rw [hq]
      exact (settle_of_samePass hsame).symm.trans h

/-- What is done with a draft changes no statistic. -/
theorem memo_kept (provider : Provider) (memo : Memo) :
    (draftOutput provider).Keeps fun d => provider.Keeps memo d.desk.memo where
  write _ _ h := h
  fetch request _ h := h.trans (provider.request_keeps _ request.user)
  place value d h := by
    rw [(draft_place provider d value).1]
    exact h

/-- Neither does settling it. -/
theorem settle_keeps {d : Draft} (h : c.provider.Keeps desk.memo d.desk.memo) :
    c.provider.Keeps desk.memo (settle c.provider d).2.memo := by
  have hawaited := (Deferred.Pass.awaitAll_run (await_answers c desk) d.pass.placed h).2
  have hresolved : ((d.pass.resolve (await c.provider)).run d.desk.memo).2
      = ((Deferred.Pass.awaitAll (await c.provider) d.pass.placed).run d.desk.memo).2 := by
    rw [Deferred.Pass.resolve, Deferred.Pass.run_bind]
    cases ((Deferred.Pass.awaitAll (await c.provider) d.pass.placed).run d.desk.memo).1 with
    | error fault => rfl
    | ok resolved =>
      dsimp only
      cases d.pass.joinSegments resolved d.pass.segments with
      | error fault => rfl
      | ok bytes =>
        dsimp only
        cases String.fromUTF8? bytes <;> rfl
  rw [← hresolved] at hawaited
  exact hawaited

/-- **A compilation changes no statistic** for those after it. -/
theorem compile_keeps (c : Compiler) (files : FileTree) (source : String) (data : Json)
    (desk : Desk) : c.provider.Keeps desk.memo (compile c files source data desk).2.memo := by
  cases htemplate : ofText? source.toList with
  | none =>
    rw [compile, htemplate]
    exact .refl _ _
  | some template =>
    have hrendered : c.provider.Keeps desk.memo
        (c.evaluate files data template desk).2.written.desk.memo :=
      (stays (memo_kept c.provider desk.memo) ⟨c.version, c.time, c.static, files⟩).renderWithin
        maxDepth { data } template _ (.refl _ _)
    rw [compile_eq _ _ _ _ htemplate]
    generalize c.evaluate files data template desk = rendered at hrendered
    obtain ⟨_ | _, p⟩ := rendered
    · exact hrendered
    · exact settle_keeps hrendered

/-- What a compilation under a nonce comes to, by the run of its template. -/
theorem compile_withNonce_fst (nonce : UInt64) {template : Template}
    (h : ofText? source.toList = some template) :
    (compile (c.withNonce nonce) files source data desk).1
      = match (renderWithin ⟨c.version, c.time, c.static, files⟩ (draftOutput c.provider) maxDepth
          { data } template).run ⟨⟨.new nonce, { desk with passes := desk.passes + 1 }⟩, []⟩ with
        | (.ok (), p) => (settle c.provider p.written).1
        | (.error fault, p) => .error ((p.written.pass.takeError).1.getD fault) :=
  compile_fst (c.withNonce nonce) files data desk h

/-- **A direct template compiles to one text under every nonce**, when it can be written with its
statistics put in at once. -/
theorem compile_of_immediate {page : Page}
    (hdirect : (ofText? source.toList).all Element.areDirect = true)
    (hpage : immediate c files source data desk = .ok page) (hcalls : page.calls ≤ ticketCount)
    (nonce : UInt64) : (compile (c.withNonce nonce) files source data desk).1 = .ok page.text := by
  cases htemplate : ofText? source.toList with
  | none =>
    rw [immediate, htemplate] at hpage
    cases hpage
  | some template =>
    rw [htemplate] at hdirect
    rw [immediate_eq c files data desk htemplate] at hpage
    rw [compile_withNonce_fst nonce htemplate]
    have hout := (Comparison.renderWithin_follows ⟨c.version, c.time, c.static, files⟩
      (deferral_fits c desk nonce) maxDepth { data } template (by intro body hbody; cases hbody)
      (by simpa using hdirect)).outcome
      ⟨⟨.new nonce, { desk with passes := desk.passes + 1 }⟩, []⟩ ⟨.blank, []⟩
      ⟨⟨rfl, .refl _ _, rfl, rfl, fun _ => .null, by simp [Deferred.Pass.items, Deferred.Pass.new],
        rfl⟩, rfl, by intro entry he; cases he⟩
    generalize (renderWithin _ (draftOutput _) maxDepth _ _).run _ = first at hout ⊢
    generalize (renderWithin _ (immediateOutput _) maxDepth _ _).run _ = second at hout hpage
    cases hout with
    | meet a hmeet =>
      cases hpage
      exact settle_of_agree hmeet.agree
    | @beyond fault p second hq hbeyond =>
      obtain ⟨_ | _, q⟩ := second
      · cases hpage
      · cases hpage
        exact absurd hbeyond (Nat.not_lt.2 hcalls)
    | lost _ => cases hpage

/-- A template that embeds one file is the address that holds this file. -/
theorem immediate_embed {file : String} {content : ByteArray}
    (h : ofText? source.toList
      = some [.output ⟨.name "embed", [.literal (.string file)], []⟩])
    (hread : files.read (Files.join c.static file) = .ok content) :
    immediate c files source data desk = .ok
      ⟨"data:" ++ Files.mediaType file ++ ";base64," ++ Text.Base64.encode content, 0, .empty⟩ := by
  have hname : Helper.ofName? "embed" = some .embed := rfl
  have hembedded : Helper.embedded ⟨c.version, c.time, c.static, files⟩ file = .ok (.string
      ("data:" ++ Files.mediaType file ++ ";base64," ++ Text.Base64.encode content)) := by
    rw [Helper.embedded]
    simp only [hread]
  have hact : ∀ scope : Scope, (actOf ⟨c.version, c.time, c.static, files⟩ scope
      ⟨"embed", [.value (.string file)], [], []⟩ : Eval Page Act) = pure (.value (.string
        ("data:" ++ Files.mediaType file ++ ";base64," ++ Text.Base64.encode content))) := by
    intro scope
    simp only [actOf, hname]
    show pureResult (Helper.embedded _ file >>= _) = _
    rw [hembedded]
    rfl
  have hdepth : maxDepth = 999 + 1 := rfl
  rw [immediate_eq _ _ _ _ h]
  simp only [hdepth, renderWithin, renderAll, renderElement, nameOf, pure_bind, hname, evalCall,
    evalAll, evalNamed, eval, hact]
  rfl

end Template
end Frontispiece
