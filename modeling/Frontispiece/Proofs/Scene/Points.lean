import Frontispiece.Proofs.Decimal.Text
import Frontispiece.Proofs.Drawing.Frame
import Frontispiece.Proofs.Text.Pieces
import Frontispiece.Scene.Draw
import Mathlib.Data.Set.List

/-!
# Lists of points

Two methods draw lines through points.  The points are given as pairs of coordinates or as coordinates
one after the other; a list of the one form is never read as the other, since only pairs are arrays.
From there on nothing shows which form it was: both are written as one text.

## What is here

* `pairItems`, `flatItems` — the two forms of a list of pairs of values.
* `pairTexts?_eq_some_iff` — what is read as pairs: pairs of numbers.
* `flatTexts?_flatItems` — what is read one after the other is what is read of the pairs.
* `pointsText?_array_iff` — a list is read just if it has one of the two forms, with numbers.
* `readPoints_writtenPoints` — the text of points is read back into the coordinates of each.
* `adapt_points_forms` — **the two forms are one format**, for both methods.

A list is tested for its form before it is read: all items are arrays, or it is taken as
coordinates.  So a list that is not quite of the one form is read as the other and fails there.  The
theorem says that no list is taken by accident, and that nothing but the form is lost: from the text
that is written, the coordinates of each point can be read again.
-/

set_option autoImplicit false

namespace Frontispiece
namespace Scene

open Drawing (Document NodeId)

/-! ## The two forms

Both forms are made from one list of pairs of values, so that they can be compared.  The values may
be anything; which of them are numbers is asked when they are read. -/

/-- Pairs of values as a list of arrays of two. -/
def pairItems (points : List (Json × Json)) : List Json :=
  points.map fun (x, y) => .array [x, y]

/-- Pairs of values one after the other. -/
def flatItems (points : List (Json × Json)) : List Json :=
  points.flatMap fun (x, y) => [x, y]

/-- A pair of numbers as values. -/
def numbers (point : Number × Number) : Json × Json :=
  (.number point.1, .number point.2)

/-- The text of a point. -/
def writtenPoint (point : Number × Number) : String :=
  Decimal.coordinate point.1.toFloat ++ "," ++ Decimal.coordinate point.2.toFloat

/-- The text of points. -/
def writtenPoints (points : List (Number × Number)) : String :=
  " ".intercalate (points.map writtenPoint)

variable {x y : Json} {items : List Json} {text : String} {texts : List String}

/-! ## Reading

Reading goes item by item and fails as a whole if one item is no point.  So what is read of a list
is what is read of each item. -/

/-- A pair is written exactly if both of its coordinates are numbers. -/
theorem pointText?_eq_some_iff :
    pointText? x y = some text ↔ ∃ point, (x, y) = numbers point ∧ text = writtenPoint point := by
  constructor
  · intro h
    cases x with
    | number m =>
      cases y with
      | number n =>
        cases h
        exact ⟨(m, n), rfl, rfl⟩
      | null | bool _ | string _ | array _ | object _ => cases h
    | null | bool _ | string _ | array _ | object _ => cases h
  · rintro ⟨⟨m, n⟩, heq, rfl⟩
    cases heq
    rfl

theorem pairTexts?_cons (x y : Json) (rest : List Json) :
    pairTexts? (.array [x, y] :: rest)
      = (pointText? x y).bind fun point => (pairTexts? rest).map (point :: ·) := by
  rw [pairTexts?]
  simp only [Option.map_eq_bind]
  rfl

theorem flatTexts?_cons (x y : Json) (rest : List Json) :
    flatTexts? (x :: y :: rest)
      = (pointText? x y).bind fun point => (flatTexts? rest).map (point :: ·) := by
  rw [flatTexts?]
  simp only [Option.map_eq_bind]
  rfl

/-- What is read of a first point and of the rest. -/
theorem bind_pointText?_eq_some_iff {rest : Option (List String)} :
    ((pointText? x y).bind fun point => rest.map (point :: ·)) = some texts ↔
      ∃ point tail, (x, y) = numbers point ∧ rest = some tail ∧
        texts = writtenPoint point :: tail := by
  simp only [Option.bind_eq_some_iff, Option.map_eq_some_iff, pointText?_eq_some_iff]
  constructor
  · rintro ⟨_, ⟨point, hxy, rfl⟩, tail, hrest, rfl⟩
    exact ⟨point, tail, hxy, hrest, rfl⟩
  · rintro ⟨point, tail, hxy, hrest, rfl⟩
    exact ⟨_, ⟨point, hxy, rfl⟩, tail, hrest, rfl⟩

/-- What is read as pairs starts with an array of two. -/
theorem eq_array_of_pairTexts? {item : Json} (h : pairTexts? (item :: items) = some texts) :
    ∃ x y, item = .array [x, y] := by
  rw [pairTexts?.eq_def] at h
  split at h
  · next heq => cases heq
  · next x y rest heq => exact ⟨x, y, (List.cons.inj heq).1⟩
  · cases h

/-- **Pairs are read just if they are pairs of numbers.** -/
theorem pairTexts?_eq_some_iff : ∀ {items : List Json} {texts : List String},
    pairTexts? items = some texts ↔ ∃ points : List (Number × Number),
      items = pairItems (points.map numbers) ∧ texts = points.map writtenPoint
  | [], texts => by
    constructor
    · intro h
      cases h
      exact ⟨[], rfl, rfl⟩
    · rintro ⟨points, hitems, rfl⟩
      cases points with
      | nil => rfl
      | cons point points => cases hitems
  | item :: rest, texts => by
    constructor
    · intro h
      obtain ⟨x, y, rfl⟩ := eq_array_of_pairTexts? h
      rw [pairTexts?_cons] at h
      obtain ⟨point, tail, hxy, hrest, rfl⟩ := bind_pointText?_eq_some_iff.1 h
      obtain ⟨points, rfl, rfl⟩ := pairTexts?_eq_some_iff.1 hrest
      cases hxy
      exact ⟨point :: points, rfl, rfl⟩
    · rintro ⟨points, hitems, rfl⟩
      cases points with
      | nil => cases hitems
      | cons point points =>
        obtain ⟨rfl, rfl⟩ := List.cons.inj hitems
        rw [pairTexts?_cons]
        exact bind_pointText?_eq_some_iff.2
          ⟨point, _, rfl, pairTexts?_eq_some_iff.2 ⟨points, rfl, rfl⟩, rfl⟩

/-- **Coordinates one after the other are read as the pairs of them are**, by induction on the pairs. -/
theorem flatTexts?_flatItems (points : List (Json × Json)) :
    flatTexts? (flatItems points) = pairTexts? (pairItems points) := by
  induction points with
  | nil => rfl
  | cons point points ih =>
    obtain ⟨x, y⟩ := point
    calc flatTexts? (x :: y :: flatItems points)
        = (pointText? x y).bind fun point => (flatTexts? (flatItems points)).map (point :: ·) :=
          flatTexts?_cons x y _
      _ = (pointText? x y).bind fun point => (pairTexts? (pairItems points)).map (point :: ·) := by
          rw [ih]
      _ = pairTexts? (.array [x, y] :: pairItems points) := (pairTexts?_cons x y _).symm

/-! ## Which form it is

A list is taken for pairs when all its items are arrays.  Coordinates are no arrays, so only the
empty list has both forms, and it has no points in either. -/

theorem all_isArray_pairItems (points : List (Json × Json)) :
    (pairItems points).all Json.isArray = true := by
  rw [pairItems, List.all_map]
  exact List.all_eq_true.2 fun _ _ => rfl

theorem length_flatItems (points : List (Json × Json)) :
    (flatItems points).length = 2 * points.length := by
  induction points with
  | nil => rfl
  | cons point points ih =>
    rw [flatItems, List.flatMap_cons, List.length_append, ← flatItems, ih, List.length_cons]
    simp only [List.length_cons, List.length_nil]
    omega

/-- A list of even length is made of pairs. -/
theorem exists_flatItems : ∀ {items : List Json}, items.length % 2 = 0 →
    ∃ points, items = flatItems points
  | [], _ => ⟨[], rfl⟩
  | [_], h => absurd h (by simp)
  | x :: y :: rest, h => by
    have hrest : rest.length % 2 = 0 := by
      simp only [List.length_cons] at h
      omega
    obtain ⟨points, rfl⟩ := exists_flatItems hrest
    exact ⟨(x, y) :: points, rfl⟩

theorem pairItems_injective : Function.Injective pairItems :=
  List.map_injective_iff.2 fun (x, y) (x', y') h => by
    cases h
    rfl

theorem pointsText?_pairItems (points : List (Json × Json)) :
    pointsText? (.array (pairItems points))
      = (pairTexts? (pairItems points)).map (" ".intercalate ·) := by
  rw [pointsText?, if_pos (all_isArray_pairItems points)]

/-- **Values that are no arrays are read alike in both forms.** -/
theorem pointsText?_flatItems {points : List (Json × Json)}
    (h : ∀ point ∈ points, point.1.isArray = false ∧ point.2.isArray = false) :
    pointsText? (.array (flatItems points)) = pointsText? (.array (pairItems points)) := by
  rw [pointsText?_pairItems, ← flatTexts?_flatItems]
  cases points with
  | nil => rfl
  | cons point points =>
    have hfirst : ¬((flatItems (point :: points)).all Json.isArray) = true := by
      rw [flatItems, List.flatMap_cons, List.cons_append, List.all_cons,
        (h point List.mem_cons_self).1]
      exact Bool.false_ne_true
    have heven : (flatItems (point :: points)).length % 2 = 0 := by
      rw [length_flatItems, Nat.mul_mod_right]
    rw [pointsText?, if_neg hfirst, if_pos heven]

theorem isArray_numbers (points : List (Number × Number)) :
    ∀ point ∈ points.map numbers, point.1.isArray = false ∧ point.2.isArray = false := by
  intro point hpoint
  obtain ⟨_, -, rfl⟩ := List.mem_map.1 hpoint
  exact ⟨rfl, rfl⟩

/-- **What is read of a list**: points with numbers as coordinates, in one of the two forms. -/
theorem pointsText?_array_iff :
    pointsText? (.array items) = some text ↔ ∃ points : List (Number × Number),
      (items = pairItems (points.map numbers) ∨ items = flatItems (points.map numbers)) ∧
      text = writtenPoints points := by
  have hpairs : ∀ points : List (Number × Number),
      pointsText? (.array (pairItems (points.map numbers))) = some (writtenPoints points) := by
    intro points
    rw [pointsText?_pairItems, pairTexts?_eq_some_iff.2 ⟨points, rfl, rfl⟩]
    rfl
  constructor
  · intro h
    rw [pointsText?] at h
    split at h
    · obtain ⟨texts, htexts, rfl⟩ := Option.map_eq_some_iff.1 h
      obtain ⟨points, hitems, rfl⟩ := pairTexts?_eq_some_iff.1 htexts
      exact ⟨points, .inl hitems, rfl⟩
    · split at h
      -- a list of even length is made of pairs, and is read as the list of these pairs would be
      · next heven =>
        obtain ⟨values, rfl⟩ := exists_flatItems heven
        obtain ⟨texts, htexts, rfl⟩ := Option.map_eq_some_iff.1 h
        rw [flatTexts?_flatItems] at htexts
        obtain ⟨points, hitems, rfl⟩ := pairTexts?_eq_some_iff.1 htexts
        exact ⟨points, .inr (congrArg flatItems (pairItems_injective hitems)), rfl⟩
      · cases h
  · rintro ⟨points, rfl | rfl, rfl⟩
    · exact hpairs points
    · rw [pointsText?_flatItems (isArray_numbers points), hpairs]

/-! ## Reading the text back

A number is written with neither a comma nor a blank.  So the marks between coordinates and between
points are those that were written there, and the coordinates come back. -/

/-- The coordinates of each point in a text: points stand between blanks, and coordinates between
commas. -/
def readPoints (text : String) : List (List String) :=
  (Text.words text.toList).map fun word => (Text.splitOn (· == ',') word).map String.ofList

/-- A written point is one word, and the comma between its coordinates is the only one. -/
theorem toList_writtenPoint (point : Number × Number) :
    (writtenPoint point).toList = (Decimal.coordinate point.1.toFloat).toList
      ++ ',' :: (Decimal.coordinate point.2.toFloat).toList := by
  rw [writtenPoint, String.toList_append, String.toList_append, List.append_assoc]
  rfl

theorem words_writtenPoint (point : Number × Number) :
    Text.words (writtenPoint point).toList = [(writtenPoint point).toList] := by
  refine Text.words_of_isWord ⟨?_, ?_⟩
  · rw [toList_writtenPoint]
    exact List.append_ne_nil_of_right_ne_nil _ (List.cons_ne_nil _ _)
  · rw [toList_writtenPoint, List.forall_mem_append, List.forall_mem_cons]
    exact ⟨fun c hc => (Decimal.coordinate_free _ c hc).1, by decide,
      fun c hc => (Decimal.coordinate_free _ c hc).1⟩

theorem splitOn_writtenPoint (point : Number × Number) :
    Text.splitOn (· == ',') (writtenPoint point).toList
      = [(Decimal.coordinate point.1.toFloat).toList,
        (Decimal.coordinate point.2.toFloat).toList] := by
  rw [toList_writtenPoint, Text.splitOn_append (by decide),
    Text.splitOn_of_free fun c hc => (Decimal.coordinate_free _ c hc).2,
    Text.splitOn_of_free fun c hc => (Decimal.coordinate_free _ c hc).2]
  rfl

/-- **The text of points has the coordinates of each**, in order and no others. -/
theorem readPoints_writtenPoints (points : List (Number × Number)) :
    readPoints (writtenPoints points) = points.map fun point =>
      [Decimal.coordinate point.1.toFloat, Decimal.coordinate point.2.toFloat] := by
  have hwords : Text.words (writtenPoints points).toList
      = points.map fun point => (writtenPoint point).toList := by
    have hblank : " ".toList = [' '] := rfl
    have hcut : ∀ s t : List Char, Text.words (s ++ ' ' :: t) = Text.words s ++ Text.words t :=
      Text.words_append (by decide)
    cases points with
    | nil => rfl
    | cons point points =>
      rw [writtenPoints, List.map_cons,
        Text.cut_intercalate hblank hcut (List.cons_ne_nil _ _), ← List.map_cons, List.flatMap_map,
        List.map_eq_flatMap]
      simp only [words_writtenPoint]
  rw [readPoints, hwords, List.map_map]
  refine List.map_congr_left fun point _ => ?_
  simp only [Function.comp_apply, splitOn_writtenPoint, List.map_cons, List.map_nil,
    String.ofList_toList]

/-! ## The two methods

The two methods have the same kind of argument, and what they draw differs in the tag only.  So what
was said of values is said of calls. -/

/-- A method takes a value as its argument. -/
def Takes (method : Method) (value : Json) : Prop :=
  ∃ args, method.adapt [value] = .ok args

section

variable {method : Method} {value : Json} {args : List Arg}

/-- The one argument of these methods is the text of their points. -/
theorem adapt_points_eq (h : method = .polyline ∨ method = .polygon) (value : Json) :
    method.adapt [value] = match pointsText? value with
      | some text => .ok [.points text]
      | none => .error (.shape 1 .points value) := by
  have hpoints : adaptArg? .points value = (pointsText? value).map .points := by rw [adaptArg?]
  have hadapt : method.adapt [value] = adaptFrom 1 [.points] [value] := by
    rcases h with rfl | rfl
    · rfl
    · rfl
  rw [hadapt, adaptFrom, hpoints]
  cases pointsText? value with
  | none => rfl
  | some text => rfl

theorem adapt_points_iff (h : method = .polyline ∨ method = .polygon) :
    method.adapt [value] = .ok args ↔
      ∃ text, pointsText? value = some text ∧ args = [.points text] := by
  rw [adapt_points_eq h]
  cases pointsText? value with
  | none => simp
  | some text => simp [eq_comm]

/-- A value is taken exactly if it has such a text. -/
theorem takes_iff (h : method = .polyline ∨ method = .polygon) :
    Takes method value ↔ ∃ text, pointsText? value = some text := by
  rw [Takes]
  constructor
  · rintro ⟨args, hargs⟩
    obtain ⟨text, htext, -⟩ := (adapt_points_iff h).1 hargs
    exact ⟨text, htext⟩
  · rintro ⟨text, htext⟩
    exact ⟨_, (adapt_points_iff h).2 ⟨text, htext, rfl⟩⟩

/-- A list comes from others by a function just if all its items do. -/
theorem exists_eq_map_iff {α β : Type} {f : α → β} {list : List β} :
    (∃ before : List α, list = before.map f) ↔ ∀ b ∈ list, ∃ a, b = f a := by
  have hrange := Set.ext_iff.1 (Set.range_list_map f) list
  simpa only [Set.mem_range, Set.mem_ofPred_eq, eq_comm] using hrange

/-- Pairs are pairs of numbers just if all their values are numbers. -/
theorem exists_map_numbers_iff {points : List (Json × Json)} :
    (∃ known : List (Number × Number), points = known.map numbers) ↔
      ∀ point ∈ points, (∃ m, point.1 = .number m) ∧ ∃ n, point.2 = .number n := by
  refine exists_eq_map_iff.trans (forall₂_congr fun (x, y) _ => ⟨?_, ?_⟩)
  · rintro ⟨⟨m, n⟩, heq⟩
    cases heq
    exact ⟨⟨m, rfl⟩, n, rfl⟩
  · rintro ⟨⟨m, rfl⟩, n, rfl⟩
    exact ⟨(m, n), rfl⟩

theorem exists_pairItems_iff :
    (∃ points : List (Number × Number), items = pairItems (points.map numbers)) ↔
      ∀ item ∈ items, ∃ m n, item = .array [.number m, .number n] := by
  simp only [pairItems, List.map_map, exists_eq_map_iff, Prod.exists, Function.comp_apply, numbers]

/-- A flat list of coordinates is a list of numbers that can be taken two by two. -/
theorem exists_flatItems_iff :
    (∃ points : List (Number × Number), items = flatItems (points.map numbers)) ↔
      items.length % 2 = 0 ∧ ∀ item ∈ items, ∃ n, item = .number n := by
  constructor
  · rintro ⟨points, rfl⟩
    refine ⟨by rw [length_flatItems, Nat.mul_mod_right], fun item hitem => ?_⟩
    obtain ⟨_, hpoint, hitem⟩ := List.mem_flatMap.1 hitem
    obtain ⟨⟨m, n⟩, -, rfl⟩ := List.mem_map.1 hpoint
    rcases List.mem_pair.1 hitem with rfl | rfl
    · exact ⟨m, rfl⟩
    · exact ⟨n, rfl⟩
  · rintro ⟨heven, h⟩
    obtain ⟨values, rfl⟩ := exists_flatItems heven
    obtain ⟨points, rfl⟩ := exists_map_numbers_iff.2 fun point hpoint =>
      ⟨h point.1 (List.mem_flatMap.2 ⟨point, hpoint, List.mem_cons_self⟩),
        h point.2 (List.mem_flatMap.2 ⟨point, hpoint, List.mem_cons_of_mem _ List.mem_cons_self⟩)⟩
    exact ⟨points, rfl⟩

/-- **Which lists are taken**: pairs of numbers, and numbers whose number is even. -/
theorem takes_array_iff (h : method = .polyline ∨ method = .polygon) :
    Takes method (.array items) ↔
      (∀ item ∈ items, ∃ m n, item = .array [.number m, .number n]) ∨
      items.length % 2 = 0 ∧ ∀ item ∈ items, ∃ n, item = .number n := by
  rw [takes_iff h, ← exists_pairItems_iff, ← exists_flatItems_iff, ← exists_or]
  simp only [pointsText?_array_iff]
  constructor
  · rintro ⟨_, points, hitems, -⟩
    exact ⟨points, hitems⟩
  · rintro ⟨points, hitems⟩
    exact ⟨_, points, hitems, rfl⟩

/-- Pairs are taken exactly if all of their coordinates are numbers. -/
theorem takes_pairItems_iff (h : method = .polyline ∨ method = .polygon)
    (points : List (Json × Json)) :
    Takes method (.array (pairItems points)) ↔
      ∀ point ∈ points, (∃ m, point.1 = .number m) ∧ ∃ n, point.2 = .number n := by
  rw [takes_iff h, ← exists_map_numbers_iff, pointsText?_pairItems]
  simp only [Option.map_eq_some_iff, pairTexts?_eq_some_iff]
  constructor
  · rintro ⟨_, _, ⟨known, hknown, -⟩, -⟩
    exact ⟨known, pairItems_injective hknown⟩
  · rintro ⟨known, rfl⟩
    exact ⟨_, _, ⟨known, rfl, rfl⟩, rfl⟩

/-- The lines are drawn through the points that the text has. -/
theorem apply_points (h : method = .polyline ∨ method = .polygon) {doc : Document}
    {target : NodeId} (htarget : target < doc.nodes.size) (text : String) :
    ∃ now id, apply doc target method [.points text] = .ok (now, id) ∧
      now.tag? id = some method.name ∧ now.attr? id "points" = some text := by
  have hdrawn : apply doc target method [.points text]
      = .ok ((doc.appendElement target method.name).1.setAttr doc.nodes.size "points" text,
        doc.nodes.size) := by
    rcases h with rfl | rfl
    · rfl
    · rfl
  have htag : (doc.appendElement target method.name).1.tag? doc.nodes.size = some method.name := by
    rw [Document.tag?_eq_bind, Document.appendElement, Document.getElem?_pushNode_new htarget]
    rfl
  refine ⟨_, _, hdrawn, ?_, ?_⟩
  · rw [Document.tag?_setAttr, htag]
  · exact Document.attr?_setAttr_self (by rw [htag]; rfl) _ _

end

/-- **The two forms of points are one format**, for both methods that take points.

1. Pairs of values that are no arrays are taken as a list of arrays of two just if they are taken one
   after the other, and just if all of them are numbers.  Then both forms give the same text.
2. A list is taken just if it is a list of arrays of two numbers or an even number of numbers.
3. A list that is taken gives the text of its points and nothing else.
4. That text has the coordinates of each point, in order and no others, and it is the attribute of the
   element that is drawn. -/
theorem adapt_points_forms {method : Method} (h : method = .polyline ∨ method = .polygon) :
    (∀ points : List (Json × Json),
      (∀ point ∈ points, point.1.isArray = false ∧ point.2.isArray = false) →
      (Takes method (.array (pairItems points)) ↔ Takes method (.array (flatItems points))) ∧
      (Takes method (.array (pairItems points)) ↔
        ∀ point ∈ points, (∃ m, point.1 = .number m) ∧ ∃ n, point.2 = .number n) ∧
      (Takes method (.array (pairItems points)) → ∃ text,
        method.adapt [.array (pairItems points)] = .ok [.points text] ∧
        method.adapt [.array (flatItems points)] = .ok [.points text])) ∧
    (∀ items, Takes method (.array items) ↔
      (∀ item ∈ items, ∃ m n, item = .array [.number m, .number n]) ∨
      items.length % 2 = 0 ∧ ∀ item ∈ items, ∃ n, item = .number n) ∧
    (∀ items args, method.adapt [.array items] = .ok args ↔ ∃ points : List (Number × Number),
      (items = pairItems (points.map numbers) ∨ items = flatItems (points.map numbers)) ∧
      args = [.points (writtenPoints points)]) ∧
    ∀ points : List (Number × Number),
      readPoints (writtenPoints points) = (points.map fun point =>
        [Decimal.coordinate point.1.toFloat, Decimal.coordinate point.2.toFloat]) ∧
      ∀ (doc : Document) (target : NodeId), target < doc.nodes.size →
        ∃ now id, apply doc target method [.points (writtenPoints points)] = .ok (now, id) ∧
          now.tag? id = some method.name ∧ now.attr? id "points" = some (writtenPoints points) := by
  refine ⟨fun points hplain => ?_, fun items => takes_array_iff h, fun items args => ?_,
    fun points => ⟨readPoints_writtenPoints points, fun doc target htarget =>
      apply_points h htarget _⟩⟩
  -- both forms are written as one text, if they are accepted at all
  · have hsame := pointsText?_flatItems hplain
    refine ⟨?_, takes_pairItems_iff h points, fun htakes => ?_⟩
    · rw [takes_iff h, takes_iff h, hsame]
    · obtain ⟨text, htext⟩ := (takes_iff h).1 htakes
      exact ⟨text, (adapt_points_iff h).2 ⟨text, htext, rfl⟩,
        (adapt_points_iff h).2 ⟨text, hsame.trans htext, rfl⟩⟩
  · rw [adapt_points_iff h]
    simp only [pointsText?_array_iff]
    constructor
    · rintro ⟨_, ⟨points, hitems, rfl⟩, rfl⟩
      exact ⟨points, hitems, rfl⟩
    · rintro ⟨points, hitems, rfl⟩
      exact ⟨_, ⟨points, hitems, rfl⟩, rfl⟩

/-- Two corners. -/
def corners : List (Number × Number) :=
  [(.int 0, .int 10), (.int 20, .int 5)]

/-- Both forms of two corners are taken, and lead to one text and one line. -/
theorem adapt_points_forms_corners :
    (∀ point ∈ corners.map numbers, point.1.isArray = false ∧ point.2.isArray = false) ∧
    Takes .polyline (.array (pairItems (corners.map numbers))) ∧
    Takes .polyline (.array [.int 0, .int 10, .int 20, .int 5]) ∧
    Method.polyline.adapt [.array [.int 0, .int 10, .int 20, .int 5]]
      = .ok [.points (writtenPoints corners)] ∧
    Document.root < (Document.withRoot "svg").nodes.size ∧
    ∃ now id, apply (Document.withRoot "svg") Document.root .polyline
        [.points (writtenPoints corners)] = .ok (now, id) ∧
      now.tag? id = some "polyline" ∧
      now.attr? id "points" = some (writtenPoints corners) := by
  have hmethod : Method.polyline = .polyline ∨ Method.polyline = .polygon := .inl rfl
  have hplain := isArray_numbers corners
  have hroot : Document.root < (Document.withRoot "svg").nodes.size := by decide
  obtain ⟨hforms, -, hgiven, hshown⟩ := adapt_points_forms hmethod
  obtain ⟨hsame, hnumbers, -⟩ := hforms _ hplain
  have htakes := hnumbers.2 (exists_map_numbers_iff.1 ⟨corners, rfl⟩)
  exact ⟨hplain, htakes, hsame.1 htakes, (hgiven _ _).2 ⟨corners, .inr rfl, rfl⟩, hroot,
    (hshown corners).2 _ _ hroot⟩

end Scene
end Frontispiece
