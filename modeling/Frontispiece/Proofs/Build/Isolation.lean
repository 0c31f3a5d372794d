import Frontispiece.Proofs.Build.Run
import Frontispiece.Proofs.Scene.Alone

/-!
# Builds do not leak

Two builds of one project may have quite different descriptors.  A descriptor that is in both of
them is produced after different ones, with other files written, other results in memory, other
statistics in the memo and another nonce.  None of this shows in its text, provided that its
template reads only what belongs to the project.

What the tools make of the text is another matter, as tools may remember the texts before, or look
into the files.  It is the same where the tools always answer in the same way.

## What is here

* `Plan.SameProject`, `Plan.Clear` — two builds of one project, and a build whose artifacts are not
  among its templates or static files.
* `Plan.Secluded` — a descriptor whose template compiles to a text with only the files of the
  project there, on a fresh desk.
* `Plan.Secluded.renders` — such a descriptor renders to the same in both builds.
* `Plan.produce_isolated` — it comes to the same in both builds.

What a descriptor comes to depends on its workspace, in which other descriptors have left files,
results and statistics.  Each of these is dealt with once.  Files: a secluded template reads only
files that no descriptor writes.  Results: they are reused by imports, and the scene has none.
Statistics: what is kept of them leads to the same ones.

The conditions cannot be left out.  A template may well read the artifacts of the same build, by a
path that leads out of the folder of static files, and tools may remember what they were asked
before.
-/

set_option autoImplicit false

namespace Frontispiece
namespace Build

open Files (FileTree Ground)
open Project (Descriptor Expansion)

namespace Plan

/-! ## Builds of one project

Two builds are compared that share everything but their lists of descriptors and where they write.
A descriptor is secluded when its template, compiled in the project alone, comes to a text that
names no nonce. -/

/-- Two builds of the same project with the same tools. -/
structure SameProject (p p' : Plan) : Prop where
  layout : p'.layout = p.layout
  version : p'.version = p.version
  time : p'.time = p.time
  provider : p'.provider = p.provider
  debug : p'.debug = p.debug
  tools : p'.tools = p.tools

/-- Whether a place belongs to the templates or the static files of a project. -/
def owns (p : Plan) (ground : Ground) (place : List String) : Bool :=
  (ground.absolute (ground.placeOf p.layout.templates)).isPrefixOf (ground.absolute place)
    || (ground.absolute (ground.placeOf p.layout.static)).isPrefixOf (ground.absolute place)

/-- No artifact of a build is among the templates or the static files. -/
def Clear (p : Plan) (ground : Ground) : Prop :=
  ∀ d ∈ p.templates, ∀ name, d.out = some name →
    p.owns ground (ground.placeOf (p.artifactPath name)) = false

/-- The files of a project alone. -/
def ownFiles (p : Plan) (files : FileTree) : FileTree :=
  files.only (p.owns files.ground)

/-- With only the files of the project there, the template of a descriptor compiles to a text, the
same whatever nonce its pass draws; and if that is a scene, the scene imports nothing. -/
structure Secluded (p : Plan) (files : FileTree) (d : Descriptor) (text : String) : Prop where
  base : d.kind.isVariant = false
  compiles : ∃ source,
    (p.ownFiles files).readText (p.layout.templatePath d.input) = .ok source ∧
      ∀ nonce, (Template.compile (p.compiler.withNonce nonce) (p.ownFiles files) source d.data
        .empty).1 = .ok text
  imports : d.kind = .svg → ∀ scene, Scene.read text = .ok scene → scene.imports = []

variable {p p' : Plan} {files : FileTree} {d : Descriptor} {text : String} {w w' : Workspace}
  {k k' : Nat}

theorem SameProject.ownFiles (h : p.SameProject p') (files : FileTree) :
    p'.ownFiles files = p.ownFiles files := by
  have howns : p'.owns files.ground = p.owns files.ground := by
    funext place
    rw [Plan.owns, Plan.owns, h.layout]
  rw [Plan.ownFiles, Plan.ownFiles, howns]

/-- Compilers of one project differ in their nonces at most. -/
theorem SameProject.compiler (h : p.SameProject p') (nonce : UInt64) :
    p'.compiler.withNonce nonce = p.compiler.withNonce nonce := by
  simp only [Plan.compiler, Template.Compiler.withNonce, h.layout, h.version, h.time, h.provider,
    h.debug]

theorem Secluded.of_sameProject (hsecluded : p.Secluded files d text) (h : p.SameProject p') :
    p'.Secluded files d text where
  base := hsecluded.base
  compiles := by
    rw [h.ownFiles, h.layout]
    simp only [h.compiler]
    exact hsecluded.compiles
  imports := hsecluded.imports

/-- A descriptor is secluded if its template asks for statistics only to write them and can be
worked out with only the files of the project there. -/
theorem Secluded.of_immediate {source : String} {page : Template.Page}
    (hbase : d.kind.isVariant = false)
    (hsource : (p.ownFiles files).readText (p.layout.templatePath d.input) = .ok source)
    (hdirect : (Template.ofText? source.toList).all Template.Element.areDirect = true)
    (hpage : Template.immediate p.compiler (p.ownFiles files) source d.data .empty = .ok page)
    (hcalls : page.calls ≤ Deferred.Pass.ticketCount) (htext : page.text = text)
    (himports : d.kind = .svg → ∀ scene, Scene.read text = .ok scene → scene.imports = []) :
    p.Secluded files d text where
  base := hbase
  compiles := ⟨source, hsource, fun nonce =>
    htext ▸ Template.compile_of_immediate hdirect hpage hcalls nonce⟩
  imports := himports

/-! ## Files at a position

A build changes the files that it writes, and these are not the project's.  So what belongs to the
project is at every position as it was at first. -/

/-- The contents at a place that is not written are as they were. -/
theorem overwrite_of_notMem {place : List String} : ∀ (written : List (List String × ByteArray))
    (contents : List String → Option ByteArray), (∀ file ∈ written, file.1 ≠ place) →
    FileTree.overwrite contents written place = contents place
  | [], _, _ => rfl
  | file :: rest, contents, h => by
    have hne : place ≠ file.1 := (h file List.mem_cons_self).symm
    rw [FileTree.overwrite, List.foldl_cons]
    refine (overwrite_of_notMem rest _ fun other hother =>
      h other (List.mem_cons_of_mem _ hother)).trans ?_
    rw [FileTree.overwriteOne, if_neg hne]

/-- What belongs to the project is never written. -/
theorem artifacts_of_clear (hclear : p.Clear files.ground) {place : List String}
    (hplace : p.owns files.ground place = true) :
    ∀ file ∈ p.artifacts files k, file.1 ≠ place := by
  intro file hfile
  obtain ⟨i, -, hfile⟩ := List.mem_flatMap.mp hfile
  rw [artifact] at hfile
  split at hfile
  · next name text hname _ =>
    obtain ⟨d, hd, hout⟩ := Option.bind_eq_some_iff.mp hname
    rw [FileTree.written] at hfile
    split at hfile
    · cases hfile
    · rw [List.mem_singleton] at hfile
      rintro rfl
      have hfalse := hclear d (List.mem_of_getElem? hd) name hout
      rw [hfile] at hplace
      exact absurd hplace (by simp [hfalse])
  · cases hfile

/-- **At every position the files of the project are there as they were.** -/
theorem upTo_extends (hclear : p.Clear files.ground)
    (hupTo : runFrom (p.upTo k) (p.start files) = (.ok (), w)) :
    (p.ownFiles files).Extends w.files := by
  refine FileTree.extends_only (upTo_grows hupTo) fun place hplace => ?_
  rw [(upTo_built hupTo).contents]
  exact overwrite_of_notMem _ _ (artifacts_of_clear hclear hplace)

/-! ## What is rendered

A text that is compiled does not know the build around it if the files that it reads are those of
the project and the statistics are those of the source.  A scene without imports adds nothing to
that. -/

/-- **At every position the template compiles to the text that it compiles to by itself.** -/
theorem Secluded.compiles_at (hsecluded : p.Secluded files d text) (hclear : p.Clear files.ground)
    (hupTo : runFrom (p.upTo k) (p.start files) = (.ok (), w)) :
    ∃ desk, p.Compiles w ⟨d, true⟩ text desk := by
  obtain ⟨source, hsource, hcompile⟩ := hsecluded.compiles
  have hfiles := upTo_extends hclear hupTo
  have hcompany := Template.compile_of_part hfiles (upTo_recalls hupTo)
    (hcompile (p.compiler.nonce w.desk.passes))
  exact ⟨_, source, hfiles.readText hsource, Prod.ext hcompany rfl⟩

/-- A scene that imports nothing is drawn the same in both builds. -/
theorem drawn_alone (h : p.SameProject p') {scene : Scene} (himports : scene.imports = [])
    (w w' : Workspace) (e : Expansion) : p.drawn w e scene = p'.drawn w' e scene := by
  obtain ⟨result, hresult⟩ := Scene.render_alone { pretty := p.debug } e.animations himports
  rw [drawn, drawn, hresult _ rfl, hresult _ (by rw [h.debug])]

/-- **What a secluded descriptor renders to in one build, it renders to in the other.** -/
theorem Secluded.renders (hsecluded : p.Secluded files d text) (h : p.SameProject p')
    {desk desk' : Template.Desk} (hcompiles : p.Compiles w ⟨d, true⟩ text desk)
    (hcompiles' : p'.Compiles w' ⟨d, true⟩ text desk') {outcome : Except Failure String}
    (hrenders : p.Renders w ⟨d, true⟩ outcome) : p'.Renders w' ⟨d, true⟩ outcome := by
  cases hrenders with
  | unreadTemplate hsource =>
    obtain ⟨source, hread, -⟩ := hcompiles
    cases hsource.symm.trans hread
  | uncompiled hsource hcompile =>
    obtain ⟨source, hread, hcompiled⟩ := hcompiles
    cases hsource.symm.trans hread
    cases hcompile.symm.trans hcompiled
  | note hcompiled hkind =>
    obtain ⟨rfl, -⟩ := hcompiled.unique hcompiles
    exact .note hcompiles' hkind
  | unreadScene hcompiled hkind hscene =>
    obtain ⟨rfl, -⟩ := hcompiled.unique hcompiles
    exact .unreadScene hcompiles' hkind hscene
  | undrawn hcompiled hkind hscene hdrawn =>
    obtain ⟨rfl, -⟩ := hcompiled.unique hcompiles
    refine .undrawn hcompiles' hkind hscene ?_
    rw [← drawn_alone h (hsecluded.imports hkind _ hscene)]
    exact hdrawn
  | drawing hcompiled hkind hscene hdrawn =>
    obtain ⟨rfl, -⟩ := hcompiled.unique hcompiles
    refine .drawing hcompiles' hkind hscene ?_
    rw [← drawn_alone h (hsecluded.imports hkind _ hscene)]
    exact hdrawn

/-! ## What is produced

The tools see the rendered text.  What they make of it is the same in both builds if they go by the
text, which tools that remember need not do. -/

theorem expansion_base (hbase : d.kind.isVariant = false) : p.expansion w d = .ok ⟨d, true⟩ := by
  rw [expansion, if_neg (by simp [hbase])]

/-- With tools that always answer in the same way, a descriptor that renders to the same in two
builds comes to the same in both. -/
theorem produces_of_renders (h : p.SameProject p') (hbase : d.kind.isVariant = false)
    {tools : Toolchain} (htools : p.tools = tools)
    (hrenders : ∀ outcome, p.Renders w ⟨d, true⟩ outcome → p'.Renders w' ⟨d, true⟩ outcome)
    {outcome : Except Failure (Descriptor × String)} (hproduces : p.Produces w d outcome) :
    p'.Produces w' d outcome := by
  have htools' : p'.tools = tools := h.tools.trans htools
  have hexpansion := expansion_base (p := p) (w := w) hbase
  have hexpansion' := expansion_base (p := p') (w := w') hbase
  have happroves : ∀ text, p'.approves w' d text = p.approves w d text := by
    intro text
    rw [approves, approves, htools, htools']
    rfl
  have hfinished : ∀ text, p'.finished w' d text = p.finished w d text := by
    intro text
    rw [finished, finished, htools, htools', h.debug]
    rfl
  cases hproduces with
  | unexpanded hfault => cases hexpansion.symm.trans hfault
  | unrendered hexpanded hrendered =>
    cases hexpansion.symm.trans hexpanded
    exact .unrendered hexpansion' (hrenders _ hrendered)
  | @refused _ text hexpanded hrendered hrefused =>
    cases hexpansion.symm.trans hexpanded
    exact .refused hexpansion' (hrenders _ hrendered) ((happroves text).trans hrefused)
  | @finished _ text hexpanded hrendered happroved =>
    cases hexpansion.symm.trans hexpanded
    rw [← hfinished]
    exact .finished hexpansion' (hrenders _ hrendered) ((happroves text).trans happroved)

/-- **A secluded descriptor comes to the same in every build of its project.**  Take two builds of
one project, with the same version, time, statistics, tools and debug switch, that write no artifact
among the templates and static files; the descriptors, the folders of artifacts and the nonces may
be others.  Take a descriptor that is no variant, whose template, with only the templates and static
files of the project there, compiles to a text that does not depend on the nonce, and is no scene
with imports.  Then, whenever both builds come to this descriptor,

* they render the same text for it, or fail with the same failure;
* if the tools always answer in the same way, they produce the same text, or fail with the same
  failure, and so what they have produced for it is the same. -/
theorem produce_isolated (p p' : Plan) (files : FileTree) (d : Descriptor) (text : String)
    (hsame : p.SameProject p') (hclear : p.Clear files.ground) (hclear' : p'.Clear files.ground)
    (hsecluded : p.Secluded files d text) (k k' : Nat) (w w' : Workspace)
    (hupTo : runFrom (p.upTo k) (p.start files) = (.ok (), w))
    (hupTo' : runFrom (p'.upTo k') (p'.start files) = (.ok (), w'))
    (hd : p.templates[k]? = some d) (hd' : p'.templates[k']? = some d) :
    (runFrom (p.render true d) w).1 = (runFrom (p'.render true d) w').1 ∧
      ∀ tools : Toolchain, p.tools = tools →
        (runFrom (p.produce p.index d) w).1 = (runFrom (p'.produce p'.index d) w').1 ∧
          p.produced files k = p'.produced files k' := by
  obtain ⟨desk, hcompiles⟩ := hsecluded.compiles_at hclear hupTo
  obtain ⟨desk', hcompiles'⟩ := (hsecluded.of_sameProject hsame).compiles_at hclear' hupTo'
  have hrenders : ∀ outcome, p.Renders w ⟨d, true⟩ outcome → p'.Renders w' ⟨d, true⟩ outcome :=
    fun _ => hsecluded.renders hsame hcompiles hcompiles'
  have hbase : (Expansion.mk d true).descriptor.kind.isVariant = false := hsecluded.base
  refine ⟨((render_iff hbase).2 (hrenders _ (renders_render hbase))).symm, fun tools htools => ?_⟩
  have hproduce : (runFrom (p.produce p.index d) w).1 = (runFrom (p'.produce p'.index d) w').1 :=
    (produce_iff.2 (produces_of_renders hsame hbase htools hrenders (p.produces_produce w d))).symm
  refine ⟨hproduce, ?_⟩
  simp only [produced, hupTo, hupTo', hd, hd']
  generalize runFrom (p.produce p.index d) w = first at hproduce
  generalize runFrom (p'.produce p'.index d) w' = second at hproduce
  obtain ⟨result, w₁⟩ := first
  obtain ⟨result', w₁'⟩ := second
  obtain rfl : result = result' := hproduce
  cases result <;> rfl

/-! ## A note that quotes another

One note embeds a static file and another note embeds an artifact of the same build.  The first is
secluded; the second shows why seclusion is asked for.  Last, tools that count what they saw show
why the theorem says what it says about them. -/

/-- A note that embeds a file. -/
def quote : Descriptor := ⟨"q", some "q", .markdown, .null, false, none⟩

/-- A note, and one that quotes it. -/
def quoting : Plan :=
  { notes with
    templates := [⟨"a", some "a", .markdown, .null, false, none⟩, quote]
    layout := ⟨"", "t", "s", "o", "d"⟩ }

/-- The same project with the second note alone. -/
def quotingAlone : Plan := { quoting with templates := [quote] }

/-- The files of the project: the second note has the given template, and an earlier build has
written the given artifact of the first. -/
def quotingFiles (source artifact : String) : FileTree where
  entries := [(["t"], .folder), (["t", "a"], .file "".toUTF8), (["t", "q"], .file source.toUTF8),
    (["s"], .folder), (["s", "f"], .file "old".toUTF8), (["o"], .folder),
    (["o", "a"], .file artifact.toUTF8)]

theorem quoting_sameProject : quoting.SameProject quotingAlone := ⟨rfl, rfl, rfl, rfl, rfl, rfl⟩

/-- The artifacts of the project are in a folder of their own. -/
theorem clear_of_outs (hlayout : p.layout = quoting.layout) (hfolder : p.folder = "")
    (houts : ∀ d ∈ p.templates, d.out = some "a" ∨ d.out = some "b" ∨ d.out = some "q") :
    p.Clear {} := by
  intro d hd name hname
  rw [owns, artifactPath, hlayout, hfolder]
  obtain h | h | h := houts d hd <;> rw [h] at hname <;> cases hname <;> with_unfolding_all rfl

theorem quoting_clear : quoting.Clear {} ∧ quotingAlone.Clear {} :=
  ⟨clear_of_outs rfl rfl (by simp [quoting, quote]),
    clear_of_outs rfl rfl (by simp [quotingAlone, quote])⟩

/-- A template that quotes one file calls one helper with one text. -/
theorem ofText_quote {source file : String} (h : (match Template.ofText? source.toList with
    | some [.output ⟨.name name, [.literal (.string s)], []⟩] => name == "embed" && s == file
    | _ => false) = true) : Template.ofText? source.toList
      = some [.output ⟨.name "embed", [.literal (.string file)], []⟩] := by
  split at h
  · next heq =>
    simp only [Bool.and_eq_true, beq_iff_eq] at h
    rw [heq, h.1, h.2]
  · cases h

/-- A note that embeds a file is the address that holds this file. -/
theorem produced_quote {source file : String} {content : ByteArray} (htools : p.tools = notes.tools)
    (hupTo : runFrom (p.upTo k) (p.start files) = (.ok (), w)) (hd : p.templates[k]? = some quote)
    (hsource : w.files.readText (p.layout.templatePath "q") = .ok source)
    (htemplate : Template.ofText? source.toList
      = some [.output ⟨.name "embed", [.literal (.string file)], []⟩])
    (hread : w.files.read (Files.join p.layout.static file) = .ok content) :
    p.produced files k = some
      ("data:" ++ Files.mediaType file ++ ";base64," ++ Text.Base64.encode content) := by
  have himmediate := @Template.immediate_embed p.compiler w.files source .null w.desk file content
    htemplate hread
  have hcompile := Template.compile_of_immediate (by rw [htemplate]; rfl) himmediate
    (Nat.zero_le _) (p.compiler.nonce w.desk.passes)
  have hcompiles : p.Compiles w ⟨quote, true⟩ ("data:" ++ Files.mediaType file ++ ";base64,"
      ++ Text.Base64.encode content) (Template.compile p.compiler w.files source .null w.desk).2 :=
    ⟨source, hsource, Prod.ext hcompile rfl⟩
  have happroved : p.approves w quote ("data:" ++ Files.mediaType file ++ ";base64,"
      ++ Text.Base64.encode content) = true := by
    rw [approves, htools]
    rfl
  have hanswer := produce_iff.2
    (.finished (expansion_base (p := p) (d := quote) rfl) (.note hcompiles rfl) happroved)
  simp only [produced, hupTo, hd]
  generalize runFrom (p.produce p.index quote) w = outcome at hanswer
  obtain ⟨result, w'⟩ := outcome
  obtain rfl := hanswer
  rfl

/-- A template that embeds a static file. -/
def staticQuote : String := "\x7b\x7bembed \"f\"\x7d\x7d"

theorem ofText_staticQuote : Template.ofText? staticQuote.toList
    = some [.output ⟨.name "embed", [.literal (.string "f")], []⟩] :=
  ofText_quote (by decide +kernel)

/-- Without the artifact, the second note finds its template and the static file. -/
theorem quoting_ownFiles : quoting.ownFiles (quotingFiles staticQuote "old") = ⟨{},
    [(["t"], .folder), (["t", "a"], .file "".toUTF8), (["t", "q"], .file staticQuote.toUTF8),
      (["s"], .folder), (["s", "f"], .file "old".toUTF8), (["o"], .folder)]⟩ := by
  with_unfolding_all rfl

/-- A quoted file outside of the artifacts is the same whatever the artifacts say. -/
theorem quoting_secluded : quoting.Secluded (quotingFiles staticQuote "old") quote
    "data:application/octet-stream;base64,b2xk" := by
  have hread : (quoting.ownFiles (quotingFiles staticQuote "old")).read
      (Files.join quoting.compiler.static "f") = .ok "old".toUTF8 := by
    rw [quoting_ownFiles]
    with_unfolding_all rfl
  have htext : "data:" ++ Files.mediaType "f" ++ ";base64," ++ Text.Base64.encode "old".toUTF8
      = "data:application/octet-stream;base64,b2xk" := by
    with_unfolding_all rfl
  refine .of_immediate rfl (by rw [quoting_ownFiles]; with_unfolding_all rfl)
    (by rw [ofText_staticQuote]; rfl)
    (Template.immediate_embed ofText_staticQuote hread) (Nat.zero_le _) htext
    fun h => by cases h

set_option maxRecDepth 20000 in
/-- A note that quotes a static file has the same text after another note and by itself. -/
theorem quoting_produce_isolated :
    ∃ w w', runFrom (quoting.upTo 1) (quoting.start (quotingFiles staticQuote "old")) = (.ok (), w) ∧
      runFrom (quotingAlone.upTo 0) (quotingAlone.start (quotingFiles staticQuote "old"))
        = (.ok (), w') ∧
      quoting.produced (quotingFiles staticQuote "old") 1
        = quotingAlone.produced (quotingFiles staticQuote "old") 0 := by
  obtain ⟨_, w, hupTo⟩ : ∃ a w,
      runFrom (quoting.upTo 1) (quoting.start (quotingFiles staticQuote "old")) = (.ok a, w) :=
    exists_ok (by with_unfolding_all rfl)
  obtain ⟨_, w', hupTo'⟩ : ∃ a w, runFrom (quotingAlone.upTo 0)
      (quotingAlone.start (quotingFiles staticQuote "old")) = (.ok a, w) :=
    exists_ok (by with_unfolding_all rfl)
  obtain ⟨-, hproduced⟩ := produce_isolated quoting quotingAlone _ quote _ quoting_sameProject
    quoting_clear.1 quoting_clear.2 quoting_secluded 1 0 w w' hupTo hupTo' rfl rfl
  exact ⟨w, w', hupTo, hupTo', (hproduced lineTools rfl).2⟩

/-- A template that embeds the artifact of the first note. -/
def artifactQuote : String := "\x7b\x7bembed \"../o/a\"\x7d\x7d"

theorem ofText_artifactQuote : Template.ofText? artifactQuote.toList
    = some [.output ⟨.name "embed", [.literal (.string "../o/a")], []⟩] :=
  ofText_quote (by decide +kernel)

/-- The template is read from its own place, which no artifact has. -/
theorem readText_artifactQuote (artifact : String) :
    (quotingFiles artifactQuote artifact).readText (quoting.layout.templatePath "q")
      = .ok artifactQuote := by
  have hslash : Files.endsInSlash (quoting.layout.templatePath "q") = false := by
    with_unfolding_all rfl
  have hroute : Ground.route {} (quoting.layout.templatePath "q")
      = ⟨[[], ["t"]], some ["t", "q"]⟩ := by with_unfolding_all rfl
  refine FileTree.readText_of_read (FileTree.read_eq_ok_iff.2
    ⟨["t", "q"], ⟨by with_unfolding_all decide, ?_, ?_⟩, hslash, .inl ?_⟩)
  · simp [hroute, quotingFiles, FileTree.find?, Ground.isAround]
  · exact congrArg Files.Route.goal hroute
  · simp [quotingFiles, FileTree.find?, Ground.isAround]

/-- The path that leads out of the static files to the artifact of the first note. -/
theorem read_artifact (source artifact : String) :
    (quotingFiles source artifact).read (Files.join quoting.layout.static "../o/a")
      = .ok artifact.toUTF8 := by
  have hslash : Files.endsInSlash (Files.join quoting.layout.static "../o/a") = false := by
    with_unfolding_all rfl
  have hroute : Ground.route {} (Files.join quoting.layout.static "../o/a")
      = ⟨[[], ["s"], [], ["o"]], some ["o", "a"]⟩ := by with_unfolding_all rfl
  refine FileTree.read_eq_ok_iff.2
    ⟨["o", "a"], ⟨by with_unfolding_all decide, ?_, ?_⟩, hslash, .inl ?_⟩
  · simp [hroute, quotingFiles, FileTree.find?, Ground.isAround]
  · exact congrArg Files.Route.goal hroute
  · simp [quotingFiles, FileTree.find?, Ground.isAround]

set_option maxRecDepth 20000 in
/-- The first note, whose template is empty, gets an empty artifact. -/
theorem quoting_upTo : ∃ w,
    runFrom (quoting.upTo 1) (quoting.start (quotingFiles artifactQuote "old")) = (.ok (), w) ∧
      w.files = quotingFiles artifactQuote "" := by
  obtain ⟨_, w, hupTo⟩ : ∃ a w,
      runFrom (quoting.upTo 1) (quoting.start (quotingFiles artifactQuote "old")) = (.ok a, w) :=
    exists_ok (by with_unfolding_all rfl)
  have hfiles :
      (runFrom (quoting.upTo 1) (quoting.start (quotingFiles artifactQuote "old"))).2.files
        = quotingFiles artifactQuote "" := by with_unfolding_all rfl
  rw [hupTo] at hfiles
  exact ⟨w, hupTo, hfiles⟩

set_option maxRecDepth 20000 in
/-- By itself, the second note finds the artifact of the earlier build. -/
theorem quotingAlone_upTo : ∃ w,
    runFrom (quotingAlone.upTo 0) (quotingAlone.start (quotingFiles artifactQuote "old"))
      = (.ok (), w) ∧ w.files = quotingFiles artifactQuote "old" := by
  obtain ⟨_, w, hupTo⟩ : ∃ a w, runFrom (quotingAlone.upTo 0)
      (quotingAlone.start (quotingFiles artifactQuote "old")) = (.ok a, w) :=
    exists_ok (by with_unfolding_all rfl)
  have hfiles : (runFrom (quotingAlone.upTo 0)
      (quotingAlone.start (quotingFiles artifactQuote "old"))).2.files
        = quotingFiles artifactQuote "old" := by with_unfolding_all rfl
  rw [hupTo] at hfiles
  exact ⟨w, hupTo, hfiles⟩

/-- Tools that end each text with as many line breaks as they have been asked for something. -/
def tallyTools : Workshop where
  toolsAfter tasks _ :=
    ⟨fun _ _ => (true, []), fun _ _ text => (text ++ "".pushn '\n' tasks.length, [])⟩

/-- An empty note that is made small. -/
def tallied : Descriptor := ⟨"a", some "b", .markdown, .null, true, none⟩

/-- Two such notes. -/
def tallying : Plan :=
  { quoting with
    templates := [⟨"a", some "a", .markdown, .null, true, none⟩, tallied]
    tools := tallyTools }

/-- The same project with the second note alone. -/
def tallyingAlone : Plan := { tallying with templates := [tallied] }

/-- **What a template embeds from among the artifacts is not isolated, and what tools remember is
not.**  The builds of each pair are of one project, none writes an artifact among the templates or
the static files, and both come to the second note, which is no scene.  Still it has two texts. -/
theorem quoting_not_isolated :
    (quoting.SameProject quotingAlone ∧ quoting.Clear {} ∧ quotingAlone.Clear {} ∧
      quote.kind = .markdown ∧ quoting.templates[1]? = some quote ∧
      quotingAlone.templates[0]? = some quote ∧
      quoting.produced (quotingFiles artifactQuote "old") 1
        = some "data:application/octet-stream;base64," ∧
      quotingAlone.produced (quotingFiles artifactQuote "old") 0
        = some "data:application/octet-stream;base64,b2xk") ∧
    (tallying.SameProject tallyingAlone ∧ tallying.Clear {} ∧ tallyingAlone.Clear {} ∧
      tallied.kind = .markdown ∧ tallying.templates[1]? = some tallied ∧
      tallyingAlone.templates[0]? = some tallied ∧
      tallying.produced (quotingFiles "" "") 1 = some "\n\n\n" ∧
      tallyingAlone.produced (quotingFiles "" "") 0 = some "\n") := by
  have htype : Files.mediaType "../o/a" = "application/octet-stream" := by with_unfolding_all rfl
  refine ⟨⟨quoting_sameProject, quoting_clear.1, quoting_clear.2, rfl, rfl, rfl, ?_, ?_⟩,
    ⟨rfl, rfl, rfl, rfl, rfl, rfl⟩, ?_, ?_, rfl, rfl, rfl, ?_, ?_⟩
  · obtain ⟨w, hupTo, hfiles⟩ := quoting_upTo
    have htext := @produced_quote quoting _ w 1 _ _ _ rfl hupTo rfl
      (hfiles ▸ readText_artifactQuote "") ofText_artifactQuote
      (hfiles ▸ read_artifact artifactQuote "")
    rw [htext, htype]
    with_unfolding_all rfl
  · obtain ⟨w, hupTo, hfiles⟩ := quotingAlone_upTo
    have htext := @produced_quote quotingAlone _ w 0 _ _ _ rfl hupTo rfl
      (hfiles ▸ readText_artifactQuote "old") ofText_artifactQuote
      (hfiles ▸ read_artifact artifactQuote "old")
    rw [htext, htype]
    with_unfolding_all rfl
  · exact clear_of_outs rfl rfl (by simp [tallying, tallied])
  · exact clear_of_outs rfl rfl (by simp [tallyingAlone, tallied])
  · decide +kernel
  · with_unfolding_all rfl

end Plan
end Build
end Frontispiece
