import NeighborSearch.Proofs.Index.Search

/-! Where the hits with a NaN for a score stand.

A NaN counts as the worst infinity, and no score is further away (`nearer_iff_of_isNaN`). So in a
list in order, what is nearer than the worst infinity stands before all NaNs, and an infinity and
a NaN stand in the order of their ids. A search gives the beginning of such a list, and if a NaN
is in it, all that stands before the NaN is (`nan_never_displaces_nearer`). What overflows to the
worst infinity can be displaced: the NaN is in its place if it has the smaller id
(`nan_displaces_overflow`). -/
namespace NeighborSearch
open Binary (place? signed)

/-! ### The worst infinity -/

/-- Each infinity has one bit pattern. -/
theorem toNat_toBits_of_infinite {x : Float32} {negative : Bool}
    (h : Binary.ofSingle x = .infinite negative) :
    x.toBits.toNat = if negative then 0xff800000 else 0x7f800000 := by
  have hlt : x.toBits.toNat < 2 ^ 32 := x.toBits.toNat_lt
  obtain ⟨hmagnitude, rfl⟩ := Binary.magnitude_eq_infinity h
  have hsign := Binary.signBit_single
  rw [Binary.infinity_single, hsign] at hmagnitude
  by_cases hnegative : Binary.single.signBit ≤ x.toBits.toNat
  · rw [decide_eq_true hnegative, if_pos rfl]
    omega
  · rw [decide_eq_false hnegative, if_neg Bool.false_ne_true]
    omega

/-- At the place of the worst infinity there is nothing else. -/
theorem eq_worst_of_place? {similarity : Bool} {x : Float32}
    (h : place? x = some (signed similarity Binary.single.infinity)) : x = worst similarity := by
  rcases Binary.eq_of_place? h with ⟨negative, hx, hp⟩ | ⟨negative, magnitude, _, hlt, hp⟩
  · have hside : ∀ a b : Bool,
        signed a Binary.single.infinity = signed b Binary.single.infinity → a = b := by decide
    have hworst : (worst similarity).toBits.toNat =
        if similarity then 0xff800000 else 0x7f800000 := by cases similarity <;> decide
    rw [← Float32.toBits_inj, ← UInt32.toNat_inj, toNat_toBits_of_infinite hx, hworst,
      hside similarity negative hp]
  · cases negative <;> cases similarity <;> simp [signed] at hp <;> omega

/-! ### NaNs in the order of nearness -/

variable {similarity : Bool} {x y : Float32}

theorem rankOf_of_isNaN (h : x.isNaN = true) :
    rankOf similarity x = Binary.single.infinity := by
  have hplace := place?_counted similarity x
  rw [Binary.isNaN_iff.1 h, Option.getD_none] at hplace
  rw [rankOf_eq hplace]
  cases similarity <;> simp [signed]

theorem rankOf_le (similarity : Bool) (x : Float32) :
    rankOf similarity x ≤ Binary.single.infinity := by
  have hplace := place?_counted similarity x
  have hbounds := Binary.place?_bounds hplace
  rw [rankOf_eq hplace]
  cases similarity <;> simp <;> omega

theorem isNaN_or_eq_worst_of_rankOf (h : rankOf similarity x = Binary.single.infinity) :
    x.isNaN = true ∨ x = worst similarity := by
  cases hx : place? x with
  | none => exact .inl (Binary.isNaN_iff.2 hx)
  | some p =>
    have hcounted : counted similarity x = x := counted_of_place? hx
    rw [rankOf_eq (by rw [hcounted, hx])] at h
    have hp : p = signed similarity Binary.single.infinity := by
      cases similarity <;> simp [signed] at h ⊢ <;> omega
    exact .inr (eq_worst_of_place? (by rw [hx, hp]))

theorem rankOf_worst (similarity : Bool) :
    rankOf similarity (worst similarity) = Binary.single.infinity := by
  cases similarity <;> decide +kernel

/-- Nearer than a NaN is every number but the worst infinity. -/
theorem nearer_iff_of_isNaN (hy : y.isNaN = true) :
    Nearer similarity x y ↔ x.isNaN = false ∧ x ≠ worst similarity := by
  have hle := rankOf_le similarity x
  rw [← rankOf_lt_iff, rankOf_of_isNaN hy]
  constructor
  · intro hlt
    constructor
    · cases hx : x.isNaN with
      | false => rfl
      | true =>
        rw [rankOf_of_isNaN hx] at hlt
        omega
    · rintro rfl
      rw [rankOf_worst] at hlt
      omega
  · rintro ⟨hx, hne⟩
    have hrank : rankOf similarity x ≠ Binary.single.infinity := by
      intro h
      rcases isNaN_or_eq_worst_of_rankOf h with hnan | hworst
      · rw [hx] at hnan
        cases hnan
      · exact hne hworst
    omega

theorem not_nearer_of_isNaN (hx : x.isNaN = true) : ¬ Nearer similarity x y := by
  have hle := rankOf_le similarity y
  rw [← rankOf_lt_iff, rankOf_of_isNaN hx]
  omega

/-- A number precedes a NaN if it is not the worst infinity, or if it has the smaller id. -/
theorem precedes_of_isNaN {a b : Neighbor} (ha : a.score.isNaN = false)
    (hb : b.score.isNaN = true) (h : a.score ≠ worst similarity ∨ a.id < b.id) :
    Precedes similarity a b := by
  rcases h with hne | hid
  · exact .inl ((nearer_iff_of_isNaN hb).2 ⟨ha, hne⟩)
  · exact .inr ⟨not_nearer_of_isNaN hb, hid⟩

/-! ### What stands before a hit -/

namespace IsNearestFirst
variable {hits front back : List Neighbor} {n : Neighbor}

theorem not_precedes_self (a : Neighbor) : ¬ Precedes similarity a a := by
  rw [← before_of_iff]
  exact fun h => Ranked.before_asymm h h

/-- All that precedes a hit stands before it, each as often as it is there. -/
theorem countP_front (h : IsNearestFirst similarity hits (front ++ n :: back))
    {p : Neighbor → Bool} (hp : ∀ m ∈ hits, p m = true → Precedes similarity m n) :
    front.countP p = hits.countP p := by
  obtain ⟨_, hback, _⟩ := List.pairwise_append.1 h.ordered
  have hnone : (n :: back).countP p = 0 := by
    rw [List.countP_eq_zero]
    intro m hm hpm
    have hprecedes := hp m (h.perm.subset (List.mem_append_right _ hm)) hpm
    rcases List.mem_cons.1 hm with rfl | hm
    · exact not_precedes_self m hprecedes
    · exact (List.pairwise_cons.1 hback).1 m hm hprecedes
  rw [← h.perm.countP_eq, List.countP_append, hnone, Nat.add_zero]

end IsNearestFirst

/-! ### NaNs among the hits -/

namespace Index
variable {i : Index} {query : Row} {ids : List Nat}

/-- Before every NaN among these hits stand the chosen rows whose score is a number, each as often
as it is chosen, but for the rows at the worst infinity whose ids are not smaller. -/
def NumbersFirst (i : Index) (query : Row) (ids : List Nat) (hits : List Neighbor) : Prop :=
  ∀ front nan back, hits = front ++ nan :: back → nan.score.isNaN = true → ∀ id ∈ ids,
    ∃ score, i.scores query [id] = .ok [score] ∧
      (score.isNaN = false → score ≠ i.metric.furthest ∨ id < nan.id →
        ⟨id, score⟩ ∈ front ∧ front.countP (fun n => n.id = id) = ids.count id)

theorem countP_map_hit (id : Nat) :
    (ids.map (i.hit query)).countP (fun n => n.id = id) = ids.count id := by
  rw [List.countP_map, List.count_eq_countP]
  rfl

/-- The beginning of the list of the chosen rows in order. -/
theorem numbersFirst_take_ranking (hq : query.length = i.dimension)
    (hids : ∀ id ∈ ids, id < i.size) (m : Nat) :
    i.NumbersFirst query ids ((i.ranking query ids).take m) := by
  intro front nan back hfound hnan id hid
  have hscore : i.scores query [id] = .ok [(i.hit query id).score] := by
    refine scores_eq_ok hq fun id' hid' => ?_
    rw [List.mem_singleton.1 hid']
    exact hids id hid
  refine ⟨(i.hit query id).score, hscore, fun hnumber hplace => ?_⟩
  -- what is cut off stands behind the NaN, too
  have hsorted := i.ranking_isNearestFirst query ids
  rw [← List.take_append_drop m (i.ranking query ids), hfound, List.append_assoc,
    List.cons_append] at hsorted
  have hcount := hsorted.countP_front (p := fun n => n.id = id) fun n hn hsame => by
    obtain ⟨id', _, rfl⟩ := List.mem_map.1 hn
    rw [show id' = id from of_decide_eq_true hsame]
    exact precedes_of_isNaN hnumber hnan (i.metric.furthest_eq ▸ hplace)
  rw [countP_map_hit] at hcount
  refine ⟨?_, hcount⟩
  obtain ⟨n, hn, hsame⟩ := List.countP_pos_iff.1 (hcount ▸ List.count_pos_iff.2 hid)
  obtain ⟨id', _, rfl⟩ := List.mem_map.1 (hsorted.perm.subset (List.mem_append_left _ hn))
  rwa [show id' = id from of_decide_eq_true hsame] at hn

/-- **A NaN never displaces what is nearer than the worst infinity**: if it is among the hits, all
rows with such a score stand before it, and so do those at the worst infinity with a smaller id.
This holds of a search and of a search among chosen rows. -/
theorem nan_never_displaces_nearer (i : Index) :
    (∀ (queries : List Row) (k : Nat), (∀ query ∈ queries, query.length = i.dimension) → 1 ≤ k →
      ∃ results, i.search queries k = .ok results ∧
        List.Forall₂ (fun query hits => i.NumbersFirst query (List.range i.size) hits)
          queries results) ∧
    ∀ (query : Row) (ids : List Nat) (k : Nat), query.length = i.dimension →
      (∀ id ∈ ids, id < i.size) → 1 ≤ k →
      ∃ hits, i.searchAmong query ids k = .ok hits ∧ i.NumbersFirst query ids hits := by
  constructor
  · intro queries k hq hk
    refine ⟨_, search_eq_ok hq hk, ?_⟩
    rw [List.forall₂_map_right_iff, List.forall₂_same]
    intro query hquery
    rw [nearest_eq_take]
    exact numbersFirst_take_ranking (hq query hquery) (fun id hid => List.mem_range.1 hid) _
  · intro query ids k hq hids hk
    exact ⟨_, searchAmong_eq_take hq hids hk, numbersFirst_take_ranking hq hids _⟩

/-- Points of a line. From zero the first and the third one are so far away that the square
overflows, and the second one is a NaN. -/
def farAway : Index :=
  ⟨.l2, .allCores, ⟨1, #[Float32.ofBits 0x71800000, 0 / 0, Float32.ofBits 0x71800000, 1],
    Nat.one_pos, Nat.one_dvd _⟩⟩

/-- Of chosen rows, the one that is chosen twice stands twice before the NaN. Among the slopes the
positive ones stand before it. -/
theorem nan_never_displaces_nearer_farAway :
    (farAway.searchAmong [0] [3, 2, 1, 3] 4 =
        .ok [⟨3, 1⟩, ⟨3, 1⟩, ⟨1, 0 / 0⟩, ⟨2, worst false⟩] ∧
      farAway.scores [0] [3] = .ok [1] ∧
      ([⟨3, 1⟩, ⟨3, 1⟩] : List Neighbor).countP (fun n => n.id = 3) = [3, 2, 1, 3].count 3) ∧
    slopes.search [[1]] 4 = .ok [[⟨2, 2⟩, ⟨4, 1⟩, ⟨0, 0⟩, ⟨1, 0 / 0⟩]] ∧
      slopes.scores [1] [4] = .ok [1] ∧
      (⟨4, 1⟩ : Neighbor) ∈ ([⟨2, 2⟩, ⟨4, 1⟩, ⟨0, 0⟩] : List Neighbor) := by
  constructor
  · have hsearch : farAway.searchAmong [0] [3, 2, 1, 3] 4 =
        .ok [⟨3, 1⟩, ⟨3, 1⟩, ⟨1, 0 / 0⟩, ⟨2, worst false⟩] := rfl
    have hscore : farAway.scores [0] [3] = .ok [1] := rfl
    obtain ⟨hits, hhits, hfirst⟩ :=
      (nan_never_displaces_nearer farAway).2 [0] [3, 2, 1, 3] 4 rfl (by decide) (by decide)
    cases hhits.symm.trans hsearch
    obtain ⟨score, hscore', hbefore⟩ :=
      hfirst [⟨3, 1⟩, ⟨3, 1⟩] ⟨1, 0 / 0⟩ [⟨2, worst false⟩] rfl (by decide) 3 (by decide)
    cases hscore'.symm.trans hscore
    exact ⟨hsearch, hscore, (hbefore (by decide) (.inl (by decide))).2⟩
  · have hsearch : slopes.search [[1]] 4 = .ok [[⟨2, 2⟩, ⟨4, 1⟩, ⟨0, 0⟩, ⟨1, 0 / 0⟩]] := rfl
    have hscore : slopes.scores [1] [4] = .ok [1] := rfl
    obtain ⟨results, hresults, hfirst⟩ :=
      (nan_never_displaces_nearer slopes).1 [[1]] 4 (by decide) (by decide)
    cases hresults.symm.trans hsearch
    obtain ⟨score, hscore', hbefore⟩ := (List.forall₂_cons.1 hfirst).1
      [⟨2, 2⟩, ⟨4, 1⟩, ⟨0, 0⟩] ⟨1, 0 / 0⟩ [] rfl (by decide) 4 (by decide)
    cases hscore'.symm.trans hscore
    exact ⟨hsearch, hscore, (hbefore (by decide) (.inl (by decide))).1⟩

/-- **A NaN can displace an overflow**: in an index to which four rows were added, the third one,
whose score is infinite, is not among the hits, although a NaN is. -/
theorem nan_displaces_overflow :
    (create 1 .l2 .allCores >>= fun i => i.add
        [[Float32.ofBits 0x71800000], [0 / 0], [Float32.ofBits 0x71800000], [1]]) = .ok farAway ∧
      ∃ hits, farAway.search [[0]] 3 = .ok [hits] ∧ (∃ hit ∈ hits, hit.score.isNaN = true) ∧
        2 < farAway.size ∧ farAway.scores [0] [2] = .ok [worst false] ∧
        (worst false).isNaN = false ∧ ∀ hit ∈ hits, hit.id ≠ 2 :=
  ⟨rfl, [⟨3, 1⟩, ⟨0, worst false⟩, ⟨1, 0 / 0⟩], rfl, ⟨⟨1, 0 / 0⟩, by simp, by decide⟩, by decide,
    rfl, by decide, by decide⟩

end Index

end NeighborSearch
