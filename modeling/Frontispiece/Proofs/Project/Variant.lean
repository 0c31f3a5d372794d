import Frontispiece.Proofs.Json.Fields
import Frontispiece.Proofs.Project.Walk

/-!
# Expanding variants

`expand` follows the walk from a variant and changes the descriptor at its end on the way back.
Which descriptors have an output is looked up in an index, the steps are counted by fuel, and the
changes are made one after the other; here it is said what comes out of it in terms of the walk
alone.

## What is here

* `resolve_of_none`, `resolve_of_one`, `resolve_of_many` — the index finds the only producer of an
  output in the registry, or says how many there are.
* `remakeAll_ok`, `remakeAll_error` — the changes of all variants that were passed, made at once.
* `Outcome` — what a walk comes to, without index and fuel.  `Outcome.expandFrom_eq` says that this is
  what the walk with fuel gives.
* `expand_walk` — the whole.

The program computes the result on the way back: it goes down to the base first, and each variant
then changes what it got.  So the last variant that is passed is the first to change something, and
a fault in the data of the base is reported under the name of that variant.  The theorem says so in
terms of the walk, in which the order of variants can be seen.
-/

set_option autoImplicit false

namespace Frontispiece
namespace Project

variable {r r' : Registry} {v d e b : Descriptor} {vs : List Descriptor}

/-! ## The index

The program looks outputs up in an index of positions instead of walking the registry.  For each
output it has none, one or several positions, and so three lemmas tie it to the registry. -/

namespace OutputIndex

/-- The places of an output, read from the list of all outputs, are the places of the descriptors
that have it. -/
theorem positions_of_entries (output : String) (entries : List (Descriptor × Nat)) :
    ((entries.filterMap fun (d, position) => d.out.map (·, position)).filter
        fun entry => entry.1 == output).map Prod.snd
      = (entries.filter fun x => x.1.out == some output).map Prod.snd := by
  induction entries with
  | nil => rfl
  | cons x rest ih =>
    obtain ⟨d, position⟩ := x
    cases hout : d.out with
    | none => simpa [hout] using ih
    | some name =>
      by_cases hname : name = output
      · simpa [hout, hname] using ih
      · simpa [hout, hname] using ih

/-- The producers of an output with their positions. -/
theorem exists_entries (r : Registry) (output : String) : ∃ entries : List (Descriptor × Nat),
    (ofRegistry r).positions output = entries.map Prod.snd ∧
      r.producers output = entries.map Prod.fst ∧ ∀ x ∈ entries, r[x.2]? = some x.1 := by
  refine ⟨r.zipIdx.filter fun x => x.1.out == some output, ?_, ?_, fun x hx => ?_⟩
  · exact positions_of_entries output r.zipIdx
  · have hmap : r.zipIdx.map Prod.fst = r := List.zipIdx_map_fst 0 r
    rw [Registry.producers]
    conv_lhs => rw [← hmap]
    rw [List.filter_map]
    rfl
  · exact List.mk_mem_zipIdx_iff_getElem?.1 (List.mem_of_mem_filter hx)

theorem resolve_of_none {output : String} (h : r.producers output = []) :
    (ofRegistry r).resolve output = .error (.missingBase output) := by
  obtain ⟨entries, hpositions, hproducers, -⟩ := exists_entries r output
  rw [h] at hproducers
  rw [resolve, hpositions, List.map_eq_nil_iff.1 hproducers.symm]
  rfl

/-- An output that one descriptor has is resolved to that descriptor. -/
theorem resolve_of_one {output : String} (h : r.producers output = [e]) :
    ∃ position, (ofRegistry r).resolve output = .ok position ∧ r[position]? = some e := by
  obtain ⟨entries, hpositions, hproducers, hat⟩ := exists_entries r output
  rw [h] at hproducers
  obtain ⟨x, hentries, hx⟩ := List.map_eq_singleton_iff.1 hproducers.symm
  refine ⟨x.2, ?_, ?_⟩
  · rw [resolve, hpositions, hentries]
    rfl
  · rw [hat x (hentries ▸ List.mem_singleton_self x), hx]

theorem resolve_of_many {output : String} (h : 2 ≤ (r.producers output).length) :
    (ofRegistry r).resolve output
      = .error (.ambiguousBase output (r.producers output).length) := by
  obtain ⟨entries, hpositions, hproducers, -⟩ := exists_entries r output
  rw [hproducers] at h ⊢
  rw [resolve, hpositions]
  match entries, h with
  | x :: y :: rest, _ => simp

/-- **A position that is found is in the registry**, and the only one with the output. -/
theorem exists_of_resolve {output : String} {position : Nat}
    (h : (ofRegistry r).resolve output = .ok position) :
    ∃ d, r[position]? = some d ∧ r.producers output = [d] := by
  match hproducers : r.producers output with
  | [] =>
    rw [resolve_of_none hproducers] at h
    cases h
  | [d] =>
    obtain ⟨found, hfound, hat⟩ := resolve_of_one hproducers
    rw [hfound] at h
    cases h
    exact ⟨d, hat, rfl⟩
  | x :: y :: rest =>
    rw [resolve_of_many (by rw [hproducers]; simp)] at h
    cases h

end OutputIndex

/-! ## What variants change

On the way back from the base each variant sets its field in the data, which fails if the data
cannot have fields.  `themed?` and `remakeAll` do it for all variants of a walk at once. -/

/-- Whether variants of a kind are dark. -/
def Kind.darkens (kind : Kind) : Bool :=
  kind.transform?.any Transform.dark

/-- Whether variants of a kind have no animations. -/
def Kind.stills (kind : Kind) : Bool :=
  kind.transform?.any Transform.still

/-- Data with the field of dark variants; there is none unless the data is an object or nothing. -/
def darkened? : Json → Option Json
  | .null => some (.object (Fields.insert "darkThemeClass" (.string "dark") []))
  | .object fields => some (.object (Fields.insert "darkThemeClass" (.string "dark") fields))
  | _ => none

theorem darken_eq (d : Descriptor) (kind : Kind) : darken d kind =
    match darkened? d.data with
    | some data => .ok { d with data }
    | none => .error (.invalidVariantData kind d.input) := by
  rw [darken]
  cases d.data <;> rfl

/-- Data that is dark does not get darker. -/
theorem darkened?_darkened? {data dark : Json} (h : darkened? data = some dark) :
    darkened? dark = some dark := by
  cases data with
  | null =>
    cases h
    rfl
  | object fields =>
    cases h
    rw [darkened?, Fields.insert_insert_self]
  | bool _ | number _ | string _ | array _ => cases h

/-- The change that one variant makes. -/
def remake (d : Descriptor) (e : Expansion) : Except Fault Expansion := do
  let descriptor ← if d.kind.darkens then darken e.descriptor d.kind else .ok e.descriptor
  .ok ⟨{ descriptor with out := d.out }, e.animations && !d.kind.stills⟩

/-- The changes of variants, the last of them first. -/
def remakeAll (vs : List Descriptor) (x : Except Fault Expansion) : Except Fault Expansion :=
  vs.foldr (fun d x => x.bind (remake d)) x

/-- The data of a base after all variants that were passed. -/
def themed? (vs : List Descriptor) (data : Json) : Option Json :=
  if vs.any fun d => d.kind.darkens then darkened? data else some data

@[simp] theorem remakeAll_nil (x : Except Fault Expansion) : remakeAll [] x = x := rfl

@[simp] theorem remakeAll_cons (d : Descriptor) (vs : List Descriptor) (x : Except Fault Expansion) :
    remakeAll (d :: vs) x = (remakeAll vs x).bind (remake d) := rfl

/-- A fault stays. -/
theorem remakeAll_fault (vs : List Descriptor) (fault : Fault) :
    remakeAll vs (.error fault) = .error fault := by
  induction vs with
  | nil => rfl
  | cons d vs ih =>
    rw [remakeAll_cons, ih]
    rfl

theorem remake_of_light (hd : d.kind.darkens = false) (base : Descriptor) (animations : Bool) :
    remake d ⟨base, animations⟩ = .ok ⟨{ base with out := d.out }, animations && !d.kind.stills⟩ := by
  rw [remake, hd]
  rfl

theorem remake_of_dark (hd : d.kind.darkens = true) (base : Descriptor) (animations : Bool) :
    remake d ⟨base, animations⟩ =
      match darkened? base.data with
      | some data => .ok ⟨{ base with data, out := d.out }, animations && !d.kind.stills⟩
      | none => .error (.invalidVariantData d.kind base.input) := by
  rw [remake, hd, if_pos rfl, darken_eq]
  cases darkened? base.data <;> rfl

theorem themed?_cons_of_light (hd : d.kind.darkens = false) (vs : List Descriptor) (data : Json) :
    themed? (d :: vs) data = themed? vs data := by
  rw [themed?, List.any_cons, hd, Bool.false_or, themed?]

theorem themed?_cons_of_dark (hd : d.kind.darkens = true) (vs : List Descriptor) (data : Json) :
    themed? (d :: vs) data = (themed? vs data).bind darkened? := by
  rw [themed?, List.any_cons, hd, Bool.true_or, if_pos rfl, themed?]
  split
  · cases hdark : darkened? data with
    | none => rfl
    | some dark => exact (darkened?_darkened? hdark).symm
  · rfl

/-- Data that no dark variant on the way refuses is not refused. -/
theorem darkened?_of_themed? {data : Json} (h : themed? vs data = none) :
    darkened? data = none := by
  rw [themed?] at h
  split at h
  · exact h
  · cases h

theorem themed?_of_mem (hd : d ∈ vs.reverse) (hdark : d.kind.darkens = true) (data : Json) :
    themed? vs data = darkened? data :=
  if_pos (List.any_eq_true.2 ⟨d, List.mem_reverse.1 hd, hdark⟩)

theorem themed?_of_darkened? {data : Json}
    (hfind : vs.reverse.find? (fun d => d.kind.darkens) = some d) (h : darkened? data = none) :
    themed? vs data = none := by
  have hdark : d.kind.darkens = true := by simpa using List.find?_some hfind
  rw [themed?_of_mem (List.mem_of_find?_eq_some hfind) hdark, h]

/-- Only data that no variant has made dark can fail to become so. -/
theorem find?_darkens_eq_none {data after : Json} (h : themed? vs data = some after)
    (hafter : darkened? after = none) :
    vs.reverse.find? (fun d => d.kind.darkens) = none := by
  rw [List.find?_eq_none]
  intro d hd hdark
  rw [themed?_of_mem hd hdark] at h
  rw [darkened?_darkened? h] at hafter
  cases hafter

/-- What a walk to `b` makes of it, by induction on the walk. -/
theorem remakeAll_ok (h : Walk r v vs b) {data : Json} (hdata : themed? vs b.data = some data) :
    remakeAll vs (.ok ⟨{ b with rendered := none }, true⟩)
      = .ok ⟨{ b with rendered := none, out := v.out, data },
          !vs.any fun d => d.kind.stills⟩ := by
  induction h generalizing data with
  | here b =>
    cases hdata
    rfl
  | @step v e b vs hstep h ih =>
    rw [remakeAll_cons, List.any_cons, Bool.not_or, Bool.and_comm]
    cases hdark : v.kind.darkens with
    | false =>
      rw [themed?_cons_of_light hdark] at hdata
      rw [ih hdata]
      exact remake_of_light hdark _ _
    | true =>
      rw [themed?_cons_of_dark hdark] at hdata
      obtain ⟨before, hbefore, hdata⟩ := Option.bind_eq_some_iff.1 hdata
      rw [ih hbefore]
      refine (remake_of_dark hdark _ _).trans ?_
      rw [hdata]

/-- The fault of data that cannot be dark names the dark variant nearest to the base. -/
theorem remakeAll_error (h : Walk r v vs b) (hdata : themed? vs b.data = none) :
    ∃ d, vs.reverse.find? (fun d => d.kind.darkens) = some d ∧
      remakeAll vs (.ok ⟨{ b with rendered := none }, true⟩)
        = .error (.invalidVariantData d.kind b.input) := by
  induction h with
  | here b => cases hdata
  | @step v e b vs hstep h ih =>
    rw [remakeAll_cons, List.reverse_cons, List.find?_append]
    cases hrest : themed? vs b.data with
    | none =>
      obtain ⟨d, hfind, hfault⟩ := ih hrest
      rw [hfind, hfault]
      exact ⟨d, rfl, rfl⟩
    | some data =>
      cases hdark : v.kind.darkens with
      | false =>
        rw [themed?_cons_of_light hdark, hrest] at hdata
        cases hdata
      | true =>
        rw [themed?_cons_of_dark hdark, hrest, Option.bind_some] at hdata
        rw [remakeAll_ok h hrest, find?_darkens_eq_none hrest hdata]
        refine ⟨v, by simp [hdark], (remake_of_dark hdark _ _).trans ?_⟩
        rw [hdata]

/-! ## The walk with fuel

The program remembers the inputs that it has passed, and one that comes again is a cycle.  As long
as none does, the walk with fuel goes the way of the relation, one step for one unit of fuel. -/

theorem transform?_of_isVariant (h : d.kind.isVariant = true) :
    d.kind.transform? = some ⟨d.kind.darkens, d.kind.stills⟩ := by
  revert h
  cases d.kind <;> decide

section

variable (fuel : Nat) (chain : List String)

theorem expandFrom_base (hd : d.kind.isVariant = false) :
    expandFrom r (.ofRegistry r) (fuel + 1) chain d = .ok ⟨{ d with rendered := none }, true⟩ := by
  have hnone : d.kind.transform? = none := by
    revert hd
    cases d.kind <;> decide
  rw [expandFrom, hnone]

theorem expandFrom_loop (hd : d.kind.isVariant = true) (hmem : d.input ∈ chain) :
    expandFrom r (.ofRegistry r) (fuel + 1) chain d
      = .error (.variantCycle (chain ++ [d.input])) := by
  rw [expandFrom, transform?_of_isVariant hd]
  simp [hmem]

theorem expandFrom_stuck (hd : d.kind.isVariant = true) (hnew : d.input ∉ chain) {fault : Fault}
    (hfault : (OutputIndex.ofRegistry r).resolve d.input = .error fault) :
    expandFrom r (.ofRegistry r) (fuel + 1) chain d = .error fault := by
  rw [expandFrom, transform?_of_isVariant hd]
  simp only [List.contains_iff_mem, hnew, if_false, hfault]
  rfl

theorem expandFrom_step (hd : MadeFrom r d e) (hnew : d.input ∉ chain) :
    expandFrom r (.ofRegistry r) (fuel + 1) chain d
      = (expandFrom r (.ofRegistry r) fuel (chain ++ [d.input]) e).bind (remake d) := by
  obtain ⟨position, hposition, hat⟩ := OutputIndex.resolve_of_one hd.2
  rw [expandFrom, transform?_of_isVariant hd.1]
  simp only [List.contains_iff_mem, hnew, if_false, hposition, bind, Except.bind, hat]
  rfl

end

/-- **The walk with fuel follows the walk**, by induction on it. -/
theorem expandFrom_walk (h : Walk r v vs d) (fuel : Nat) {chain : List String}
    (hnodup : (chain ++ vs.map Descriptor.input).Nodup) :
    expandFrom r (.ofRegistry r) (vs.length + fuel) chain v
      = remakeAll vs
          (expandFrom r (.ofRegistry r) fuel (chain ++ vs.map Descriptor.input) d) := by
  induction h generalizing chain with
  | here d => simp
  | @step v e d vs hstep h ih =>
    have hnew : v.input ∉ chain := fun hmem => by
      rw [List.map_cons, List.nodup_append] at hnodup
      exact hnodup.2.2 v.input hmem v.input List.mem_cons_self rfl
    have hassoc : chain ++ (v :: vs).map Descriptor.input
        = (chain ++ [v.input]) ++ vs.map Descriptor.input := by simp
    rw [hassoc] at hnodup ⊢
    rw [List.length_cons, Nat.add_right_comm, expandFrom_step _ _ hstep hnew, ih hnodup]
    rfl

/-! ## What a walk comes to

There are five ways to end, and a descriptor has exactly one of them.  They are stated without the
index and without fuel, and then it is shown that the program finds the same. -/

/-- What a walk comes to. -/
inductive Outcome (r : Registry) (v : Descriptor) : Except Fault Expansion → Prop where
  /-- A base, with all changes. -/
  | base {vs : List Descriptor} {b : Descriptor} {data : Json} (h : Walk r v vs b)
      (hb : b.kind.isVariant = false) (hdata : themed? vs b.data = some data) :
      Outcome r v (.ok ⟨{ b with rendered := none, out := v.out, data },
        !vs.any fun d => d.kind.stills⟩)
  /-- A base with data that cannot be dark. -/
  | refused {vs : List Descriptor} {b d : Descriptor} (h : Walk r v vs b)
      (hb : b.kind.isVariant = false)
      (hfind : vs.reverse.find? (fun d => d.kind.darkens) = some d)
      (hdata : darkened? b.data = none) :
      Outcome r v (.error (.invalidVariantData d.kind b.input))
  /-- A variant of nothing. -/
  | missing {vs : List Descriptor} {d : Descriptor} (h : Walk r v vs d)
      (hd : d.kind.isVariant = true) (hnone : r.producers d.input = []) :
      Outcome r v (.error (.missingBase d.input))
  /-- A variant of more than one descriptor. -/
  | ambiguous {vs : List Descriptor} {d : Descriptor} (h : Walk r v vs d)
      (hd : d.kind.isVariant = true) (hmany : 2 ≤ (r.producers d.input).length) :
      Outcome r v (.error (.ambiguousBase d.input (r.producers d.input).length))
  /-- An input that was passed, and none before it. -/
  | loop {vs : List Descriptor} {d : Descriptor} (h : Walk r v vs d)
      (hd : d.kind.isVariant = true) (hnodup : (vs.map Descriptor.input).Nodup)
      (hrepeat : d.input ∈ vs.map Descriptor.input) :
      Outcome r v (.error (.variantCycle (vs.map Descriptor.input ++ [d.input])))

/-- Every descriptor has an outcome: its walk ends at one of four things, or it passes an input
twice, as there are only so many. -/
theorem exists_outcome (r : Registry) (v : Descriptor) : ∃ x, Outcome r v x := by
  obtain ⟨vs, d, hwalk, hnodup, hend⟩ := exists_end r v
  cases hend with
  | base hd =>
    cases hdata : themed? vs d.data with
    | some data => exact ⟨_, .base hwalk hd hdata⟩
    | none =>
      obtain ⟨dark, hfind, -⟩ := remakeAll_error hwalk hdata
      exact ⟨_, .refused hwalk hd hfind (darkened?_of_themed? hdata)⟩
  | loop hd hrepeat => exact ⟨_, .loop hwalk hd hnodup hrepeat⟩
  | stuck hd hnone =>
    match hproducers : r.producers d.input with
    | [] => exact ⟨_, .missing hwalk hd hproducers⟩
    | [e] => exact absurd hproducers (hnone e)
    | x :: y :: rest => exact ⟨_, .ambiguous hwalk hd (by rw [hproducers]; simp)⟩

theorem not_madeFrom_of_base (hd : d.kind.isVariant = false) (e : Descriptor) :
    ¬MadeFrom r d e := fun he => by
  have hvariant := he.1
  rw [hd] at hvariant
  cases hvariant

theorem not_madeFrom_of_length (hd : (r.producers d.input).length ≠ 1) (e : Descriptor) :
    ¬MadeFrom r d e := fun he => hd (by rw [he.2]; rfl)

/-- A walk that cannot go on passes no input twice. -/
theorem Walk.nodup_of_end (h : Walk r v vs d) (hd : ∀ e, ¬MadeFrom r d e) :
    (vs.map Descriptor.input).Nodup := by
  obtain ⟨ws, f, hwalk, hnodup, hend⟩ := exists_end r v
  have hsame (hf : ∀ e, ¬MadeFrom r f e) : (vs.map Descriptor.input).Nodup :=
    (h.unique hwalk hd hf).1 ▸ hnodup
  cases hend with
  | base hf => exact hsame (not_madeFrom_of_base hf)
  | stuck hf hnone => exact hsame fun e he => hnone e he.2
  | loop hf hrepeat =>
    obtain ⟨e, he⟩ := endless_of_repeat hwalk hf hrepeat vs d h
    exact absurd he (hd e)

/-- A walk to an end needs no more fuel than one for each descriptor and two. -/
theorem expandFrom_end (h : Walk r v vs d) (hnodup : (vs.map Descriptor.input).Nodup) {fuel : Nat}
    (hfuel : r.length + 2 ≤ fuel) : ∃ left, expandFrom r (.ofRegistry r) fuel [] v
      = remakeAll vs (expandFrom r (.ofRegistry r) (left + 1) (vs.map Descriptor.input) d) := by
  have hlength := h.length_le hnodup
  refine ⟨fuel - vs.length - 1, ?_⟩
  have hsplit : fuel = vs.length + (fuel - vs.length - 1 + 1) := by omega
  conv_lhs => rw [hsplit]
  exact expandFrom_walk h _ hnodup

/-- A walk that cannot go on from a variant fails as the index does. -/
theorem expandFrom_of_stuck (h : Walk r v vs d) (hd : d.kind.isVariant = true)
    (hlength : (r.producers d.input).length ≠ 1) {fault : Fault}
    (hfault : (OutputIndex.ofRegistry r).resolve d.input = .error fault) {fuel : Nat}
    (hfuel : r.length + 2 ≤ fuel) :
    expandFrom r (.ofRegistry r) fuel [] v = .error fault := by
  have hend : ∀ e, ¬MadeFrom r d e := not_madeFrom_of_length hlength
  have hnew : d.input ∉ vs.map Descriptor.input := fun hrepeat => by
    obtain ⟨e, he⟩ := endless_of_repeat h hd hrepeat vs d h
    exact hend e he
  obtain ⟨left, hleft⟩ := expandFrom_end h (h.nodup_of_end hend) hfuel
  rw [hleft, expandFrom_stuck left _ hd hnew hfault, remakeAll_fault]

/-- **The walk with fuel comes to the same**, when there is enough. -/
theorem Outcome.expandFrom_eq {x : Except Fault Expansion} (h : Outcome r v x) {fuel : Nat}
    (hfuel : r.length + 2 ≤ fuel) : expandFrom r (.ofRegistry r) fuel [] v = x := by
  cases h with
  | base h hb hdata =>
    obtain ⟨left, hleft⟩ := expandFrom_end h (h.nodup_of_end (not_madeFrom_of_base hb)) hfuel
    rw [hleft, expandFrom_base left _ hb, remakeAll_ok h hdata]
  | refused h hb hfind hdata =>
    obtain ⟨left, hleft⟩ := expandFrom_end h (h.nodup_of_end (not_madeFrom_of_base hb)) hfuel
    obtain ⟨dark, hdark, hfault⟩ := remakeAll_error h (themed?_of_darkened? hfind hdata)
    cases hfind.symm.trans hdark
    rw [hleft, expandFrom_base left _ hb, hfault]
  | missing h hd hnone =>
    exact expandFrom_of_stuck h hd (by simp [hnone]) (OutputIndex.resolve_of_none hnone) hfuel
  | ambiguous h hd hmany =>
    exact expandFrom_of_stuck h hd (by omega) (OutputIndex.resolve_of_many hmany) hfuel
  | loop h hd hnodup hrepeat =>
    obtain ⟨left, hleft⟩ := expandFrom_end h hnodup hfuel
    rw [hleft, expandFrom_loop left _ hd hrepeat, remakeAll_fault]

theorem Outcome.expand_eq {x : Except Fault Expansion} (h : Outcome r v x) :
    expand r (.ofRegistry r) v = x :=
  h.expandFrom_eq (Nat.le_refl _)

/-- The outcome does not depend on the order of the descriptors, because nothing in it is a
position. -/
theorem Outcome.of_perm (hperm : r.Perm r') {x : Except Fault Expansion} (h : Outcome r v x) :
    Outcome r' v x := by
  have hproducers (output : String) := Registry.producers_perm hperm output
  cases h with
  | base h hb hdata => exact .base (h.of_perm hperm) hb hdata
  | refused h hb hfind hdata => exact .refused (h.of_perm hperm) hb hfind hdata
  | @missing vs d h hd hnone =>
    have hsame := hproducers d.input
    rw [hnone] at hsame
    exact .missing (h.of_perm hperm) hd hsame.nil_eq.symm
  | @ambiguous vs d h hd hmany =>
    have hlength := (hproducers d.input).length_eq
    rw [hlength] at hmany ⊢
    exact .ambiguous (h.of_perm hperm) hd hmany
  | loop h hd hnodup hrepeat => exact .loop (h.of_perm hperm) hd hnodup hrepeat

/-- Expanding comes to what the walk comes to, and to nothing else. -/
theorem expand_eq_iff {x : Except Fault Expansion} :
    expand r (.ofRegistry r) v = x ↔ Outcome r v x := by
  refine ⟨fun h => ?_, Outcome.expand_eq⟩
  obtain ⟨y, hy⟩ := exists_outcome r v
  rwa [← h, hy.expand_eq]

/-! ## Each way to end

For each kind of result the condition under which it comes, in both directions.  The conditions
exclude each other since a walk has one end only. -/

/-- A cycle is reported exactly if the walk goes on for ever. -/
theorem expand_cycle_iff :
    (∃ chain, expand r (.ofRegistry r) v = .error (.variantCycle chain)) ↔ Endless r v := by
  constructor
  · rintro ⟨chain, h⟩
    rw [expand_eq_iff] at h
    cases h with
    | loop h hd hnodup hrepeat => exact endless_of_repeat h hd hrepeat
  · intro hendless
    obtain ⟨x, hx⟩ := exists_outcome r v
    cases hx with
    | base h hb | refused h hb =>
      obtain ⟨e, he⟩ := hendless _ _ h
      exact absurd he (not_madeFrom_of_base hb e)
    | missing h hd hnone =>
      obtain ⟨e, he⟩ := hendless _ _ h
      exact absurd he (not_madeFrom_of_length (by simp [hnone]) e)
    | ambiguous h hd hmany =>
      obtain ⟨e, he⟩ := hendless _ _ h
      exact absurd he (not_madeFrom_of_length (by omega) e)
    | loop h hd hnodup hrepeat => exact ⟨_, (Outcome.loop h hd hnodup hrepeat).expand_eq⟩

/-- A base is reported to be missing exactly if the walk comes to a variant of nothing. -/
theorem expand_missing_iff (output : String) :
    expand r (.ofRegistry r) v = .error (.missingBase output) ↔
      ∃ vs d, Walk r v vs d ∧ d.kind.isVariant = true ∧ d.input = output ∧
        r.producers output = [] := by
  rw [expand_eq_iff]
  constructor
  · intro h
    cases h with
    | missing h hd hnone => exact ⟨_, _, h, hd, rfl, hnone⟩
  · rintro ⟨vs, d, h, hd, rfl, hnone⟩
    exact .missing h hd hnone

/-- A base is reported to be ambiguous, with a number, exactly if the walk comes to a variant of
that many descriptors. -/
theorem expand_ambiguous_iff (output : String) (count : Nat) :
    expand r (.ofRegistry r) v = .error (.ambiguousBase output count) ↔
      ∃ vs d, Walk r v vs d ∧ d.kind.isVariant = true ∧ d.input = output ∧
        (r.producers output).length = count ∧ 2 ≤ count := by
  rw [expand_eq_iff]
  constructor
  · intro h
    cases h with
    | ambiguous h hd hmany => exact ⟨_, _, h, hd, rfl, rfl, hmany⟩
  · rintro ⟨vs, d, h, hd, rfl, rfl, hmany⟩
    exact .ambiguous h hd hmany

/-- Data are refused exactly if they cannot be dark and a variant that was passed asks for it; the
one closest to the base is named. -/
theorem expand_refused_iff (kind : Kind) (input : String) :
    expand r (.ofRegistry r) v = .error (.invalidVariantData kind input) ↔
      ∃ vs b d, Walk r v vs b ∧ b.kind.isVariant = false ∧ b.input = input ∧
        vs.reverse.find? (fun d => d.kind.darkens) = some d ∧ d.kind = kind ∧
        darkened? b.data = none := by
  rw [expand_eq_iff]
  constructor
  · intro h
    cases h with
    | refused h hb hfind hdata => exact ⟨_, _, _, h, hb, rfl, hfind, rfl, hdata⟩
  · rintro ⟨vs, b, d, h, hb, rfl, hfind, rfl, hdata⟩
    exact .refused h hb hfind hdata

/-- A walk that comes to a base gives its data with all changes, and the output of the variant. -/
theorem expand_ok_iff (e : Expansion) :
    expand r (.ofRegistry r) v = .ok e ↔
      ∃ vs b data, Walk r v vs b ∧ b.kind.isVariant = false ∧ themed? vs b.data = some data ∧
        e = ⟨{ b with rendered := none, out := v.out, data },
          !vs.any fun d => d.kind.stills⟩ := by
  rw [expand_eq_iff]
  constructor
  · intro h
    cases h with
    | base h hb hdata => exact ⟨_, _, _, h, hb, hdata, rfl⟩
  · rintro ⟨vs, b, data, h, hb, hdata, rfl⟩
    exact .base h hb hdata

/-! ## Variants

The theorem puts these together with what the index finds, and with the fact that the order of the
registry plays no part. -/

/-- **Expanding follows the walk.**  For every registry and descriptor:

1. the walk ends: more fuel changes nothing;
2. what the index finds is in the registry, the only descriptor with the output;
3. a cycle is found exactly when the walk is endless;
4. a base is missing exactly when the walk comes to a variant of no descriptor;
5. a base is ambiguous exactly when the walk comes to a variant of several descriptors, which the
   fault counts;
6. data is refused exactly when the walk comes to a base, one of the variants on the way is dark, and
   the data of the base is neither an object nor nothing.  The fault names the kind of the dark
   variant nearest to the base;
7. all else is a walk to a base, and the result is the base without what was rendered, with the
   output of the first variant, with the field of dark variants in its data if there is one on the
   way, and with animations unless there is a still one;
8. the order of the registry does not matter. -/
theorem expand_walk (r : Registry) (v : Descriptor) :
    let index := OutputIndex.ofRegistry r
    (∀ fuel, r.length + 2 ≤ fuel → expandFrom r index fuel [] v = expand r index v) ∧
    (∀ output position, index.resolve output = .ok position →
      ∃ d, r[position]? = some d ∧ r.producers output = [d]) ∧
    ((∃ chain, expand r index v = .error (.variantCycle chain)) ↔ Endless r v) ∧
    (∀ output, expand r index v = .error (.missingBase output) ↔
      ∃ vs d, Walk r v vs d ∧ d.kind.isVariant = true ∧ d.input = output ∧
        r.producers output = []) ∧
    (∀ output count, expand r index v = .error (.ambiguousBase output count) ↔
      ∃ vs d, Walk r v vs d ∧ d.kind.isVariant = true ∧ d.input = output ∧
        (r.producers output).length = count ∧ 2 ≤ count) ∧
    (∀ kind input, expand r index v = .error (.invalidVariantData kind input) ↔
      ∃ vs b d, Walk r v vs b ∧ b.kind.isVariant = false ∧ b.input = input ∧
        vs.reverse.find? (fun d => d.kind.darkens) = some d ∧ d.kind = kind ∧
        darkened? b.data = none) ∧
    (∀ e, expand r index v = .ok e ↔
      ∃ vs b data, Walk r v vs b ∧ b.kind.isVariant = false ∧ themed? vs b.data = some data ∧
        e = ⟨{ b with rendered := none, out := v.out, data },
          !vs.any fun d => d.kind.stills⟩) ∧
    ∀ r', r.Perm r' → expand r' (.ofRegistry r') v = expand r index v := by
  intro index
  obtain ⟨x, hx⟩ := exists_outcome r v
  have hexpand : expand r index v = x := hx.expand_eq
  refine ⟨fun fuel hfuel => ?_, fun output position => OutputIndex.exists_of_resolve,
    expand_cycle_iff, expand_missing_iff, expand_ambiguous_iff, expand_refused_iff, expand_ok_iff,
    fun r' hperm => ?_⟩
  · rw [hexpand, hx.expandFrom_eq hfuel]
  · rw [hexpand, (hx.of_perm hperm).expand_eq]

/-- A still variant of a dark variant. -/
def stillBanner : Descriptor := ⟨"dark", some "still", .stillSvg, .null, true, none⟩

/-- A drawing that was rendered before, its dark variant, and a still variant of that. -/
def banners : Registry :=
  [⟨"banner.hbs", some "banner", .svg, .object [("title", .string "hello")], true, some "<svg/>"⟩,
    ⟨"banner", some "dark", .darkSvg, .null, true, none⟩, stillBanner]

/-- The still variant of the dark variant is both, in either order of the registry. -/
theorem banners_expand_walk : banners.Perm banners.reverse ∧
    expand banners.reverse (.ofRegistry banners.reverse) stillBanner = .ok
      ⟨⟨"banner.hbs", some "still", .svg,
        .object [("title", .string "hello"), ("darkThemeClass", .string "dark")], true, none⟩,
        false⟩ := by
  have hreverse : banners.Perm banners.reverse := (List.reverse_perm banners).symm
  obtain ⟨-, -, -, -, -, -, hok, hperm⟩ := expand_walk banners stillBanner
  refine ⟨hreverse, ?_⟩
  rw [hperm _ hreverse, hok]
  exact ⟨_, _, _, .step ⟨rfl, rfl⟩ (.step ⟨rfl, rfl⟩ (.here _)), rfl, rfl, rfl⟩

end Project
end Frontispiece
