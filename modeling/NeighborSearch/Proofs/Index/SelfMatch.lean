import NeighborSearch.Proofs.Index.NotANumber
import NeighborSearch.Proofs.Kernel

/-! A stored row finds itself.

No squared distance ranks before the zero (`rankOf_squaredDistance_nonneg`), so a row at the
distance zero from a query stands before all others but those that are as near and have a smaller
id. A finite row that is searched for is such a row, whatever else is stored
(`search_finds_itself`). -/
namespace NeighborSearch
open Binary (place?)

theorem rankOf_squaredDistance_nonneg (a b : Row) : 0 ≤ rankOf false (squaredDistance a b) := by
  have hplace := place?_counted false (squaredDistance a b)
  rw [rankOf_eq hplace]
  cases hd : place? (squaredDistance a b) with
  | none => exact Int.natCast_nonneg _
  | some p => exact (signClear_squaredDistance a b).place?_nonneg hd

/-- Only the positive zero has the rank zero and a clear sign. -/
theorem eq_zero_of_rankOf {x : Float32} (hx : Binary.SignClear x) (h : rankOf false x = 0) :
    x = 0.0 := by
  cases hp : place? x with
  | none =>
    rw [rankOf_of_isNaN (Binary.isNaN_iff.2 hp)] at h
    cases h
  | some p =>
    have hcounted : counted false x = x := counted_of_place? hp
    rw [rankOf_eq (by rw [hcounted, hp])] at h
    rw [Binary.SignClear] at hx
    rcases Binary.eq_of_place? hp with ⟨negative, _, rfl⟩ | ⟨negative, magnitude, hn, _, rfl⟩
    · cases negative <;> cases h
    · rw [hn] at hx
      cases hx
      cases Int.natCast_eq_zero.1 h
      rw [← Binary.toSingle_of_finite hn]
      decide +kernel

namespace Index
variable {i : Index} {row : Row} {id : Nat}

theorem row?_eq_some_iff :
    i.row? id = some row ↔ id < i.size ∧ i.buffer.storedRow id = row := by
  rw [row?_eq, getElem?_rows]
  split <;> simp_all

theorem length_of_row? (h : i.row? id = some row) : row.length = i.dimension := by
  rw [row?_eq] at h
  exact length_of_mem_rowsOf (List.mem_of_getElem? h)

/-- A finite row is its own hit at the distance zero. -/
theorem hit_self (hl2 : i.metric = .l2) (hrow : i.row? id = some row)
    (hfinite : ∀ x ∈ row, x.isFinite = true) : i.hit row id = ⟨id, 0.0⟩ := by
  have hprepare : i.metric.prepare row = row := by rw [hl2]; rfl
  rw [hit, hprepare, hl2, (row?_eq_some_iff.1 hrow).2]
  exact congrArg (Neighbor.mk id) (squaredDistance_self hfinite)

/-- In the list of all rows in order, the first one is at the distance zero, too. -/
theorem ranking_self (hl2 : i.metric = .l2) (hrow : i.row? id = some row)
    (hfinite : ∀ x ∈ row, x.isFinite = true) :
    ∃ first rest, i.ranking row (List.range i.size) = first :: rest ∧ first.score = 0.0 ∧
      first.id ≤ id := by
  have hsorted := i.ranking_isNearestFirst row (List.range i.size)
  have hself : i.hit row id ∈ i.ranking row (List.range i.size) :=
    hsorted.perm.mem_iff.2
      (List.mem_map_of_mem (List.mem_range.2 (row?_eq_some_iff.1 hrow).1))
  have hmetric : i.metric.isSimilarity = false := by rw [hl2]; rfl
  rw [hmetric] at hsorted
  rw [hit_self hl2 hrow hfinite] at hself
  cases hranking : i.ranking row (List.range i.size) with
  | nil =>
    rw [hranking] at hself
    exact absurd hself List.not_mem_nil
  | cons first rest =>
    rw [hranking] at hself hsorted
    obtain ⟨first', _, hfirst⟩ := List.mem_map.1 (hsorted.perm.subset (List.mem_cons_self ..))
    have hscore : first.score = squaredDistance (i.metric.prepare row)
        (i.buffer.storedRow first') := by
      rw [← hfirst, hit, hl2]
      rfl
    -- the row itself does not stand before the first hit
    have hnot : ¬ Precedes false ⟨id, 0.0⟩ first := by
      rcases List.mem_cons.1 hself with rfl | hrest
      · exact IsNearestFirst.not_precedes_self _
      · exact (List.pairwise_cons.1 hsorted.ordered).1 _ hrest
    have hzero : rankOf false 0.0 = 0 := by decide +kernel
    have hnonneg : 0 ≤ rankOf false first.score := by
      rw [hscore]
      exact rankOf_squaredDistance_nonneg ..
    rw [← before_of_iff, Ranked.before_iff] at hnot
    simp only [Ranked.of, hzero] at hnot
    refine ⟨first, rest, rfl, eq_zero_of_rankOf ?_ (by omega), by omega⟩
    rw [hscore]
    exact signClear_squaredDistance ..

/-- **Every stored row finds itself under the squared distance.** If the components of the row are
finite, a search for it gives a first hit at the distance zero, whose id is not greater than its
own, and within every positive radius it is a hit at the distance zero, whatever the other rows
hold. -/
theorem search_finds_itself (i : Index) (hl2 : i.metric = .l2) {id : Nat} {row : Row}
    (hrow : i.row? id = some row) (hfinite : ∀ x ∈ row, x.isFinite = true) :
    (∀ k, 1 ≤ k → ∃ first rest, i.search [row] k = .ok [first :: rest] ∧
        first.score.toBits = 0 ∧ first.id ≤ id) ∧
      ∀ radius : Float32, 0.0 < radius → ∃ hits, i.rangeSearch [row] radius = .ok [hits] ∧
        ⟨id, Float32.ofBits 0⟩ ∈ hits := by
  have hid := (row?_eq_some_iff.1 hrow).1
  have hlength : ∀ query ∈ [row], query.length = i.dimension := by
    intro query hquery
    rw [List.mem_singleton.1 hquery]
    exact length_of_row? hrow
  constructor
  · intro k hk
    obtain ⟨first, rest, hranking, hscore, hfirst⟩ := ranking_self hl2 hrow hfinite
    obtain ⟨n, hn⟩ : ∃ n, min k i.size = n + 1 := ⟨min k i.size - 1, by omega⟩
    refine ⟨first, rest.take n, ?_, ?_, hfirst⟩
    · rw [search_eq_ok hlength hk, List.map_singleton, nearest_eq_take, hranking, hn,
        List.take_succ_cons]
    · rw [hscore]
      decide +kernel
  · intro radius hradius
    have hzero : (0.0 : Float32) = Float32.ofBits 0 := by decide +kernel
    refine ⟨_, rangeSearch_eq_ok hlength radius, ?_⟩
    rw [nearerThan_eq_takeWhile, ← hzero, ← hit_self hl2 hrow hfinite, hit_mem_takeWhile_iff hid,
      hit_self hl2 hrow hfinite, hl2]
    exact decide_eq_true hradius

/-- Two points of a plane at the same place but for the sign of a zero, behind a NaN and a point
whose distance to them vanishes. -/
def crowded : Index :=
  ⟨.l2, .allCores, ⟨2, #[0 / 0, 1, Float32.ofBits 1, 1, 0, 1, -0, 1], Nat.two_pos, by decide⟩⟩

/-- The point in the last place finds one at the distance zero first, and itself within every
radius. -/
theorem search_finds_itself_crowded :
    crowded.row? 3 = some [-0, 1] ∧
      (∃ first rest, crowded.search [[-0, 1]] 2 = .ok [first :: rest] ∧
        first.score.toBits = 0 ∧ first.id ≤ 3) ∧
      ∃ hits, crowded.rangeSearch [[-0, 1]] 0.5 = .ok [hits] ∧ ⟨3, Float32.ofBits 0⟩ ∈ hits := by
  have hrow : crowded.row? 3 = some [-0, 1] := rfl
  obtain ⟨hnearest, hwithin⟩ := search_finds_itself crowded rfl hrow (by decide)
  exact ⟨hrow, hnearest 2 (by decide), hwithin 0.5 (by decide)⟩

end Index

end NeighborSearch
