import NeighborSearch.Proofs.Nearness
import NeighborSearch.TopK

/-! Selection keeps the front of the sorted list.

While candidates stream by, some are kept, the worst one first, and the others are lost. The
invariant (`Keeps`) is that both together are what was offered, that nothing lost stands
before anything kept, and that nothing is lost while there is a free place. A push preserves
it (`Keeps.pushRanked`), so a stream does (`keeps_foldl`). In the end what is kept is the
beginning of a list in order (`select_isNearestFirst`): for candidates told by id and rank,
the sorted list cut off (`select_eq_take`). -/
namespace NeighborSearch.TopK

/-! ### Insertion -/

theorem insertRanked_perm (candidate : Ranked) (kept : List Ranked) :
    (insertRanked candidate kept).Perm (candidate :: kept) := by
  induction kept with
  | nil => exact .refl _
  | cons r rest ih =>
    rw [insertRanked]
    split
    · exact (ih.cons r).trans (.swap candidate r rest)
    · exact .refl _

/-- Inserting a candidate leaves the worst one first. -/
theorem insertRanked_ordered (candidate : Ranked) {kept : List Ranked}
    (h : kept.Pairwise fun a b => ¬ a.before b = true) :
    (insertRanked candidate kept).Pairwise fun a b => ¬ a.before b = true := by
  induction kept with
  | nil => exact List.pairwise_singleton _ _
  | cons r rest ih =>
    obtain ⟨hr, hrest⟩ := List.pairwise_cons.1 h
    rw [insertRanked]
    split
    case isTrue hc =>
      refine List.pairwise_cons.2 ⟨fun b hb => ?_, ih hrest⟩
      rcases List.mem_cons.1 ((insertRanked_perm candidate rest).mem_iff.1 hb) with rfl | hb
      · exact Ranked.before_asymm hc
      · exact hr b hb
    case isFalse hc =>
      refine List.pairwise_cons.2 ⟨fun b hb => ?_, h⟩
      rcases List.mem_cons.1 hb with rfl | hb
      · exact hc
      · exact Ranked.not_before_trans (hr b hb) hc

/-! ### A stream of candidates -/

/-- What was offered is kept or lost. -/
structure Keeps (k : Nat) (offered lost : List Ranked) (top : TopK) : Prop where
  room : top.free + top.kept.length = k
  full : lost = [] ∨ top.free = 0
  perm : (top.kept ++ lost).Perm offered
  ordered : top.kept.Pairwise fun a b => ¬ a.before b = true
  behind : ∀ a ∈ top.kept, ∀ b ∈ lost, ¬ b.before a = true

theorem keeps_new (k : Nat) (similarity : Bool) : Keeps k [] [] (new k similarity) :=
  ⟨Nat.add_zero k, .inl rfl, .refl _, .nil, fun _ ha => absurd ha List.not_mem_nil⟩

namespace Keeps
variable {k : Nat} {offered lost : List Ranked} {top : TopK}

/-- With a free place the candidate is taken in. -/
theorem take_in (h : Keeps k offered lost top) {free : Nat} (hfree : top.free = free + 1)
    (candidate : Ranked) :
    Keeps k (offered ++ [candidate]) lost
      { top with free, kept := insertRanked candidate top.kept } := by
  have hlost : lost = [] := by
    rcases h.full with hlost | hzero
    · exact hlost
    · omega
  subst hlost
  have hins := insertRanked_perm candidate top.kept
  refine ⟨?_, .inl rfl, ?_, insertRanked_ordered candidate h.ordered, fun _ _ b hb =>
    absurd hb List.not_mem_nil⟩
  · have hroom := h.room
    simp only [hins.length_eq, List.length_cons]
    omega
  · have hperm := h.perm
    rw [List.append_nil] at hperm ⊢
    exact (hins.trans (hperm.cons candidate)).trans (List.perm_append_singleton ..).symm

/-- Without one, a candidate that does not stand before the worst one is lost. -/
theorem lose (h : Keeps k offered lost top) (hfree : top.free = 0) {candidate : Ranked}
    (hbehind : ∀ a ∈ top.kept, ¬ candidate.before a = true) :
    Keeps k (offered ++ [candidate]) (candidate :: lost) top := by
  refine ⟨h.room, .inr hfree, ?_, h.ordered, fun a ha b hb => ?_⟩
  · exact (List.perm_middle.trans (h.perm.cons candidate)).trans
      (List.perm_append_singleton ..).symm
  · rcases List.mem_cons.1 hb with rfl | hb
    · exact hbehind a ha
    · exact h.behind a ha b hb

/-- And one that does takes its place. -/
theorem replace (h : Keeps k offered lost top) (hfree : top.free = 0) {worst candidate : Ranked}
    {rest : List Ranked} (hkept : top.kept = worst :: rest)
    (hbefore : candidate.before worst = true) :
    Keeps k (offered ++ [candidate]) (worst :: lost)
      { top with kept := insertRanked candidate rest } := by
  have hins := insertRanked_perm candidate rest
  have hordered := h.ordered
  rw [hkept] at hordered
  obtain ⟨hworst, hrest⟩ := List.pairwise_cons.1 hordered
  refine ⟨?_, .inr hfree, ?_, insertRanked_ordered candidate hrest, fun a ha b hb => ?_⟩
  · have hroom := h.room
    rw [hkept] at hroom
    simp only [hins.length_eq]
    exact hroom
  · have hperm := h.perm
    rw [hkept] at hperm
    have hmiddle : (insertRanked candidate rest ++ worst :: lost).Perm
        (candidate :: (worst :: rest ++ lost)) :=
      (hins.append_right (worst :: lost)).trans (List.perm_middle.cons candidate)
    exact (hmiddle.trans (hperm.cons candidate)).trans (List.perm_append_singleton ..).symm
  · -- everything lost stands behind the worst one kept, and so behind the candidate
    have hlost : ¬ b.before worst = true := by
      rcases List.mem_cons.1 hb with rfl | hb
      · exact fun hb => Ranked.before_asymm hb hb
      · exact h.behind worst (by rw [hkept]; exact List.mem_cons_self ..) b hb
    rcases List.mem_cons.1 (hins.mem_iff.1 ha) with rfl | ha
    · exact Ranked.not_before_trans (Ranked.before_asymm hbefore) hlost
    · exact Ranked.not_before_trans (hworst a ha) hlost

theorem pushRanked (h : Keeps k offered lost top) (candidate : Ranked) :
    ∃ lost', Keeps k (offered ++ [candidate]) lost' (top.pushRanked candidate) := by
  unfold TopK.pushRanked
  split
  case h_1 free _ hfree => exact ⟨lost, h.take_in hfree candidate⟩
  case h_2 hfree hkept =>
    refine ⟨candidate :: lost, h.lose hfree fun a ha => ?_⟩
    rw [hkept] at ha
    exact absurd ha List.not_mem_nil
  case h_3 worst rest hfree hkept =>
    by_cases hbefore : candidate.before worst = true
    · rw [if_pos hbefore]
      exact ⟨worst :: lost, h.replace hfree hkept hbefore⟩
    · rw [if_neg hbefore]
      refine ⟨candidate :: lost, h.lose hfree fun a ha => ?_⟩
      have hordered := h.ordered
      rw [hkept] at ha hordered
      rcases List.mem_cons.1 ha with rfl | ha
      · exact hbefore
      · exact Ranked.not_before_trans ((List.pairwise_cons.1 hordered).1 a ha) hbefore

end Keeps

theorem similarity_push (top : TopK) (n : Neighbor) : (top.push n).similarity = top.similarity := by
  unfold push pushRanked
  split
  · rfl
  · rfl
  · split <;> rfl

theorem keeps_foldl {k : Nat} (candidates : List Neighbor) {offered lost : List Ranked}
    {top : TopK} (h : Keeps k offered lost top) :
    ∃ lost', Keeps k (offered ++ candidates.map (Ranked.of top.similarity)) lost'
      (candidates.foldl push top) := by
  induction candidates generalizing offered lost top with
  | nil =>
    rw [List.map_nil, List.append_nil]
    exact ⟨lost, h⟩
  | cons n rest ih =>
    obtain ⟨lost', hstep⟩ := h.pushRanked (.of top.similarity n)
    have hrest := ih hstep
    rwa [show top.pushRanked (.of top.similarity n) = top.push n from rfl, similarity_push,
      List.append_assoc, List.singleton_append] at hrest

/-! ### What is kept in the end -/

theorem mem_map_of {similarity : Bool} {candidates : List Neighbor} {r : Ranked}
    (h : r ∈ candidates.map (Ranked.of similarity)) : r = .of similarity r.neighbor := by
  obtain ⟨n, _, rfl⟩ := List.mem_map.1 h
  rfl

namespace Keeps
variable {k : Nat} {similarity : Bool} {offered lost : List Ranked} {top : TopK}

theorem length_kept (h : Keeps k offered lost top) :
    top.kept.length = min k offered.length := by
  have hlength := h.perm.length_eq
  have hroom := h.room
  rw [List.length_append] at hlength
  rcases h.full with rfl | hfree
  · rw [List.length_nil] at hlength
    omega
  · omega

/-- What is kept, and behind it what was lost. -/
theorem isNearestFirst {candidates : List Neighbor}
    (h : Keeps k (candidates.map (Ranked.of similarity)) lost top) :
    IsNearestFirst similarity candidates
      (top.toResultSet ++ nearestFirst similarity (lost.map Ranked.neighbor)) := by
  have hof : ∀ r ∈ top.kept ++ lost, r = .of similarity r.neighbor :=
    fun r hr => mem_map_of (h.perm.mem_iff.1 hr)
  have hrest := nearestFirst_isNearestFirst similarity (lost.map Ranked.neighbor)
  constructor
  · have hperm := h.perm.map Ranked.neighbor
    rw [Ranked.map_neighbor_map_of, List.map_append] at hperm
    exact ((List.reverse_perm _).append hrest.perm).trans hperm
  · rw [List.pairwise_append]
    refine ⟨?_, hrest.ordered, fun a ha b hb => ?_⟩
    · rw [toResultSet, List.pairwise_reverse, List.pairwise_map]
      refine h.ordered.imp_of_mem fun {a b} ha hb hab => ?_
      rwa [hof a (List.mem_append_left _ ha), hof b (List.mem_append_left _ hb),
        before_of_iff] at hab
    · obtain ⟨r, hr, rfl⟩ := List.mem_map.1 (List.mem_reverse.1 ha)
      obtain ⟨l, hl, rfl⟩ := List.mem_map.1 (hrest.perm.mem_iff.1 hb)
      have hbehind := h.behind r hr l hl
      rwa [hof r (List.mem_append_left _ hr), hof l (List.mem_append_right _ hl),
        before_of_iff] at hbehind

end Keeps

theorem select_isNearestFirst (k : Nat) (similarity : Bool) (candidates : List Neighbor) :
    ∃ rest, IsNearestFirst similarity candidates (select k similarity candidates ++ rest) ∧
      (select k similarity candidates).length = min k candidates.length := by
  obtain ⟨lost, h⟩ := keeps_foldl candidates (keeps_new k similarity)
  rw [List.nil_append] at h
  refine ⟨_, Keeps.isNearestFirst h, ?_⟩
  rw [select, toResultSet, List.length_reverse, List.length_map, h.length_kept, List.length_map]

/-- **Selection is the sorted list cut off**, whatever the order of the candidates. -/
theorem select_eq_take {k : Nat} {similarity : Bool} {candidates : List Neighbor}
    (hd : Distinguished similarity candidates) :
    select k similarity candidates =
      (nearestFirst similarity candidates).take (min k candidates.length) := by
  obtain ⟨rest, hsorted, hlength⟩ := select_isNearestFirst k similarity candidates
  rw [← hsorted.eq_nearestFirst hd, List.take_left' hlength]

end NeighborSearch.TopK
