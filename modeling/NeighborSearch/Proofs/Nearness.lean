import NeighborSearch.Metric
import NeighborSearch.Neighbor
import NeighborSearch.Proofs.Binary.Ordinal

/-! The order of nearness.

`Nearer` compares two scores as they are, the smaller one being nearer for a distance and the
greater one for a similarity; a NaN counts as the worst infinity. `Precedes` settles ties by
id, and `IsNearestFirst` says what it is to have put neighbors in that order. Ranks are this
order in whole numbers (`rankOf_lt_iff`, `before_of_iff`), so `nearestFirst` puts neighbors in
order (`nearestFirst_isNearestFirst`), and as long as a neighbor is told by its id and its
rank, only one list is in order (`IsNearestFirst.unique`). What lies within a radius is what is
nearer than it (`Metric.within_iff`), the beginning of a list in order
(`IsNearestFirst.filter_within`).

Which side is which is said of each metric by name (`Metric.IsNearestFirst`, `Metric.furthest`):
distances rise in a list in order, and similarities fall. -/
namespace NeighborSearch
open Binary (place? signed)

/-! ### Scores and neighbors -/

/-- The infinity that is furthest away. -/
def worst (similarity : Bool) : Float32 :=
  Float32.ofBits (if similarity then 0xff800000 else 0x7f800000)

/-- A score as it counts: a NaN as the worst infinity. -/
def counted (similarity : Bool) (score : Float32) : Float32 :=
  if score.isNaN then worst similarity else score

/-- Strictly nearer. -/
def Nearer (similarity : Bool) (x y : Float32) : Prop :=
  if similarity then counted similarity y < counted similarity x
  else counted similarity x < counted similarity y

/-- Nearer, or as near with the smaller id. -/
def Precedes (similarity : Bool) (a b : Neighbor) : Prop :=
  Nearer similarity a.score b.score ∨ ¬ Nearer similarity b.score a.score ∧ a.id < b.id

instance (similarity : Bool) (x y : Float32) : Decidable (Nearer similarity x y) :=
  inferInstanceAs (Decidable (ite _ _ _))

instance (similarity : Bool) (a b : Neighbor) : Decidable (Precedes similarity a b) :=
  inferInstanceAs (Decidable (_ ∨ _ ∧ _))

/-! ### Ranks are the order of scores -/

theorem place?_worst (similarity : Bool) :
    place? (worst similarity) = some (signed similarity Binary.single.infinity) := by
  cases similarity <;> decide +kernel

theorem counted_of_place? {similarity : Bool} {x : Float32} {p : Int} (h : place? x = some p) :
    counted similarity x = x := by
  have hn : ¬ x.isNaN = true := by
    rw [Binary.isNaN_iff, h]
    exact Option.some_ne_none p
  rw [counted, if_neg hn]

/-- The place of a score as it counts: every score has one. -/
theorem place?_counted (similarity : Bool) (x : Float32) :
    place? (counted similarity x) =
      some ((place? x).getD (signed similarity Binary.single.infinity)) := by
  cases hx : place? x with
  | none => rw [counted, if_pos (Binary.isNaN_iff.2 hx), place?_worst, Option.getD_none]
  | some p => rw [counted_of_place? hx, hx, Option.getD_some]

/-- The rank of a score is its place, turned round for a similarity. -/
theorem rankOf_eq {similarity : Bool} {x : Float32} {p : Int}
    (h : place? (counted similarity x) = some p) :
    rankOf similarity x = if similarity then -p else p := by
  have hplace : Binary.single.ordinal? (Binary.ofSingle x) = place? x := rfl
  rw [place?_counted, Option.some.injEq] at h
  rw [rankOf, hplace, ← h]
  cases place? x with
  | none => cases similarity <;> simp [signed]
  | some q => rfl

theorem rankOf_lt_iff {similarity : Bool} {x y : Float32} :
    rankOf similarity x < rankOf similarity y ↔ Nearer similarity x y := by
  have hx := place?_counted similarity x
  have hy := place?_counted similarity y
  rw [rankOf_eq hx, rankOf_eq hy, Nearer, Binary.lt_iff_of_place hx hy,
    Binary.lt_iff_of_place hy hx]
  cases similarity
  · rfl
  · exact Int.neg_lt_neg_iff

/-! ### Ranked neighbors -/

namespace Ranked

@[simp] theorem map_neighbor_map_of (similarity : Bool) (hits : List Neighbor) :
    (hits.map (of similarity)).map neighbor = hits := by
  rw [List.map_map, show neighbor ∘ of similarity = id from rfl, List.map_id]

theorem before_iff {a b : Ranked} :
    a.before b = true ↔
      a.rank < b.rank ∨ a.rank = b.rank ∧ a.neighbor.id < b.neighbor.id := by
  simp [before]

theorem before_asymm {a b : Ranked} (h : a.before b = true) : ¬ b.before a = true := by
  rw [before_iff] at h ⊢
  omega

theorem not_before_trans {a b c : Ranked} (hab : ¬ b.before a = true)
    (hbc : ¬ c.before b = true) : ¬ c.before a = true := by
  rw [before_iff] at *
  omega

theorem notAfter_iff {a b : Ranked} : a.notAfter b = true ↔ ¬ b.before a = true := by
  simp [notAfter]

theorem notAfter_trans (a b c : Ranked) (hab : a.notAfter b = true)
    (hbc : b.notAfter c = true) : a.notAfter c = true := by
  rw [notAfter_iff] at *
  exact not_before_trans hab hbc

theorem notAfter_total (a b : Ranked) : (a.notAfter b || b.notAfter a) = true := by
  rw [Bool.or_eq_true, notAfter_iff, notAfter_iff, before_iff, before_iff]
  omega

end Ranked

theorem before_of_iff {similarity : Bool} {a b : Neighbor} :
    (Ranked.of similarity a).before (Ranked.of similarity b) = true ↔
      Precedes similarity a b := by
  rw [Ranked.before_iff, Precedes, ← rankOf_lt_iff, ← rankOf_lt_iff]
  show rankOf similarity a.score < rankOf similarity b.score ∨
    rankOf similarity a.score = rankOf similarity b.score ∧ a.id < b.id ↔ _
  omega

/-! ### Neighbors in order -/

/-- The second list holds the hits of the first one, none of which stands behind one that it
precedes. -/
structure IsNearestFirst (similarity : Bool) (hits sorted : List Neighbor) : Prop where
  perm : sorted.Perm hits
  ordered : sorted.Pairwise fun a b => ¬ Precedes similarity b a

/-- Equal ids and ranks mean equal neighbors. -/
def Distinguished (similarity : Bool) (hits : List Neighbor) : Prop :=
  ∀ a ∈ hits, ∀ b ∈ hits, a.id = b.id →
    rankOf similarity a.score = rankOf similarity b.score → a = b

theorem nearestFirst_isNearestFirst (similarity : Bool) (hits : List Neighbor) :
    IsNearestFirst similarity hits (nearestFirst similarity hits) := by
  constructor
  · have hperm := ((hits.map (Ranked.of similarity)).mergeSort_perm Ranked.notAfter).map
      Ranked.neighbor
    rwa [Ranked.map_neighbor_map_of] at hperm
  · have hsorted := List.pairwise_mergeSort Ranked.notAfter_trans Ranked.notAfter_total
      (hits.map (Ranked.of similarity))
    rw [nearestFirst, List.pairwise_map]
    refine hsorted.imp_of_mem fun {a b} ha hb hab => ?_
    obtain ⟨m, _, rfl⟩ := List.mem_map.1 (List.mem_mergeSort.1 ha)
    obtain ⟨n, _, rfl⟩ := List.mem_map.1 (List.mem_mergeSort.1 hb)
    rwa [Ranked.notAfter_iff, before_of_iff] at hab

namespace IsNearestFirst
variable {similarity : Bool} {hits sorted : List Neighbor}

/-- There is one way to put distinguished neighbors in order. -/
theorem unique {sorted' : List Neighbor} (hd : Distinguished similarity hits)
    (h : IsNearestFirst similarity hits sorted) (h' : IsNearestFirst similarity hits sorted') :
    sorted = sorted' := by
  refine List.Perm.eq_of_pairwise ?_ h.ordered h'.ordered (h.perm.trans h'.perm.symm)
  intro a b ha hb hab hba
  have hrank : rankOf similarity a.score = rankOf similarity b.score ∧ a.id = b.id := by
    rw [← before_of_iff, Ranked.before_iff] at hab hba
    simp only [Ranked.of] at hab hba
    omega
  exact hd a (h.perm.subset ha) b (h'.perm.subset hb) hrank.2 hrank.1

theorem eq_nearestFirst (hd : Distinguished similarity hits)
    (h : IsNearestFirst similarity hits sorted) : sorted = nearestFirst similarity hits :=
  h.unique hd (nearestFirst_isNearestFirst similarity hits)

theorem perm_left {hits' : List Neighbor} (h : IsNearestFirst similarity hits sorted)
    (hperm : hits.Perm hits') : IsNearestFirst similarity hits' sorted :=
  ⟨h.perm.trans hperm, h.ordered⟩

theorem filter (h : IsNearestFirst similarity hits sorted) (p : Neighbor → Bool) :
    IsNearestFirst similarity (hits.filter p) (sorted.filter p) :=
  ⟨h.perm.filter p, h.ordered.filter p⟩

end IsNearestFirst

theorem Distinguished.filter {similarity : Bool} {hits : List Neighbor}
    (hd : Distinguished similarity hits) (p : Neighbor → Bool) :
    Distinguished similarity (hits.filter p) :=
  fun a ha b hb => hd a (List.mem_filter.1 ha).1 b (List.mem_filter.1 hb).1

/-! ### The order of a metric -/

/-- Smaller distances come first, but greater similarities. -/
def Metric.IsNearestFirst (m : Metric) (hits sorted : List Neighbor) : Prop :=
  match m with
  | .l2 => NeighborSearch.IsNearestFirst false hits sorted
  | .innerProduct => NeighborSearch.IsNearestFirst true hits sorted
  | .cosine => NeighborSearch.IsNearestFirst true hits sorted

/-- What a NaN counts as: an infinite distance, or a similarity of negative infinity. -/
def Metric.furthest : Metric → Float32
  | .l2 => worst false
  | .innerProduct => worst true
  | .cosine => worst true

theorem Metric.isNearestFirst_iff {m : Metric} {hits sorted : List Neighbor} :
    m.IsNearestFirst hits sorted ↔
      NeighborSearch.IsNearestFirst m.isSimilarity hits sorted := by
  cases m <;> rfl

theorem Metric.furthest_eq (m : Metric) : m.furthest = worst m.isSimilarity := by
  cases m <;> rfl

/-! ### Within a radius -/

/-- Every score within the radius is nearer than it, and if the radius is no NaN, every
nearer score is within it. -/
theorem Metric.within_iff {m : Metric} {score radius : Float32} :
    m.within score radius = true ↔
      ¬ radius.isNaN = true ∧ Nearer m.isSimilarity score radius := by
  rw [Metric.within, Nearer, Binary.isNaN_iff]
  cases hr : place? radius with
  | none => cases m.isSimilarity <;> simp [Binary.lt_iff_place, hr]
  | some r =>
    rw [counted_of_place? hr]
    cases hs : place? score with
    | some p =>
      rw [counted_of_place? hs]
      cases m.isSimilarity <;> simp
    | none =>
      -- a NaN compares with nothing, and the worst infinity is no nearer than anything
      have hbounds := Binary.place?_bounds hr
      have hcounted := place?_counted m.isSimilarity score
      rw [hs, Option.getD_none] at hcounted
      cases hm : m.isSimilarity with
      | false =>
        rw [hm] at hcounted
        simp [Binary.lt_iff_place, hs, hr, hcounted, signed, hbounds.2]
      | true =>
        rw [hm] at hcounted
        simp [Binary.lt_iff_place, hs, hr, hcounted, signed, hbounds.1]

theorem Metric.within_of_not_nearer {m : Metric} {x y radius : Float32}
    (h : ¬ Nearer m.isSimilarity y x) (hy : m.within y radius = true) :
    m.within x radius = true := by
  rw [← rankOf_lt_iff] at h
  rw [Metric.within_iff, ← rankOf_lt_iff] at hy ⊢
  exact ⟨hy.1, by omega⟩

/-- If a property of an element passes to all elements before it, the elements that have it
come first. -/
theorem filter_eq_takeWhile {α : Type} {p : α → Bool} {l : List α}
    (h : l.Pairwise fun x y => p y = true → p x = true) : l.filter p = l.takeWhile p := by
  induction l with
  | nil => rfl
  | cons x rest ih =>
    obtain ⟨hx, hrest⟩ := List.pairwise_cons.1 h
    by_cases hp : p x = true
    · rw [List.filter_cons_of_pos hp, List.takeWhile_cons_of_pos hp, ih hrest]
    · rw [List.filter_cons_of_neg hp, List.takeWhile_cons_of_neg hp, List.filter_eq_nil_iff]
      exact fun y hy hpy => hp (hx y hy hpy)

theorem IsNearestFirst.filter_within {m : Metric} {hits sorted : List Neighbor}
    (h : IsNearestFirst m.isSimilarity hits sorted) (radius : Float32) :
    (sorted.filter fun n => m.within n.score radius) =
      sorted.takeWhile fun n => m.within n.score radius := by
  apply filter_eq_takeWhile
  refine h.ordered.imp fun {a b} hab => Metric.within_of_not_nearer fun hnearer => hab ?_
  exact .inl hnearer

end NeighborSearch
