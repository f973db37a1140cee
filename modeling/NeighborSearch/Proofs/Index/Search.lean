import NeighborSearch.Index.Search
import NeighborSearch.Proofs.Index.Rows
import NeighborSearch.Proofs.Selection

/-! What a search finds, told by the scores of single rows.

`scores` on one id is the score of that row, and `Scored` is the list of ids with these
scores. All searches are told by it and by the order of nearness: `search` gives the first `k`
of all rows put in order (`search_exact`), `rangeSearch` the beginning of that list within the
radius (`rangeSearch_eq_prefix`), `searchAmong` the first `k` of the chosen rows, one for each
time a row is chosen (`searchAmong_exact`). -/
namespace NeighborSearch

/-! ### Batches -/

theorem answerBatch_idle (answer : Row → ResultSet) (next : Nat) (queries : List Row) :
    answerBatch Watch.idle answer next queries () = (.ok (queries.map answer), ()) := by
  induction queries generalizing next with
  | nil => rfl
  | cons query rest ih =>
    have hrest : answerBatch Watch.idle answer (next + 1) rest (Watch.idle.read next ()) =
        (.ok (rest.map answer), ()) := ih (next + 1)
    rw [answerBatch, if_neg (by simp [Watch.idle]), hrest]
    rfl

/-- Queries may be changed before the batch or as they are answered. -/
theorem answerBatch_map {σ : Type} (watch : Watch σ) {answer answer' : Row → ResultSet}
    {f : Row → Row} {queries : List Row} (h : ∀ query ∈ queries, answer query = answer' (f query))
    (next : Nat) (s : σ) :
    answerBatch watch answer next queries s = answerBatch watch answer' next (queries.map f) s := by
  induction queries generalizing next s with
  | nil => rfl
  | cons query rest ih =>
    have hrest := ih (fun q hq => h q (List.mem_cons_of_mem _ hq)) (next + 1) (watch.read next s)
    rw [List.map_cons, answerBatch, answerBatch, hrest, h query (List.mem_cons_self ..)]

namespace Index
variable {i : Index} {queries : List Row} {query : Row} {ids : List Nat} {k : Nat}

theorem checkRows_eq_ok_iff :
    i.checkRows queries = .ok () ↔ ∀ row ∈ queries, row.length = i.dimension := by
  rw [checkRows, ← @mismatch?_eq_none_iff i.dimension 0]
  split <;> simp_all

theorem checkSearch_eq_ok_iff :
    i.checkSearch queries k = .ok () ↔
      1 ≤ k ∧ ∀ query ∈ queries, query.length = i.dimension := by
  rw [checkSearch, ← checkRows_eq_ok_iff, Nat.one_le_iff_ne_zero]
  by_cases hk : k = 0
  · simp [hk]
  · simp [hk]

theorem search_eq_ok (hq : ∀ query ∈ queries, query.length = i.dimension) (hk : 1 ≤ k) :
    i.search queries k = .ok (queries.map (i.nearest k)) := by
  rw [search, searchWatched, checkSearch_eq_ok_iff.2 ⟨hk, hq⟩]
  simp only [answerBatch_idle]

theorem search_zero (i : Index) (queries : List Row) :
    i.search queries 0 = .error (.invalidK 0) := rfl

theorem search_eq_error {e : SearchError} (hk : 1 ≤ k)
    (h : mismatch? i.dimension 0 queries = some e) : i.search queries k = .error e := by
  rw [search, searchWatched, checkSearch, if_neg (Nat.one_le_iff_ne_zero.1 hk), checkRows, h]

theorem rangeSearch_eq_ok (hq : ∀ query ∈ queries, query.length = i.dimension)
    (radius : Float32) :
    i.rangeSearch queries radius = .ok (queries.map (i.nearerThan radius)) := by
  rw [rangeSearch, checkRows_eq_ok_iff.2 hq, answerBatch_idle]
  rfl

/-! ### Rows with their scores -/

/-- These ids, each one with its score against the query. -/
structure Scored (i : Index) (query : Row) (ids : List Nat) (hits : List Neighbor) : Prop where
  ids : hits.map Neighbor.id = ids
  scores : ∀ hit ∈ hits, i.scores query [hit.id] = .ok [hit.score]

/-- A row as a search sees it. -/
def hit (i : Index) (query : Row) (id : Nat) : Neighbor :=
  ⟨id, i.metric.score (i.metric.prepare query) (i.buffer.storedRow id)⟩

theorem scores_eq_ok (hq : query.length = i.dimension) (hids : ∀ id ∈ ids, id < i.size) :
    i.scores query ids = .ok (ids.map fun id => (i.hit query id).score) := by
  have hfind : ids.find? (i.size ≤ ·) = none := by
    rw [List.find?_eq_none]
    intro id hid
    simpa using hids id hid
  have hrows : i.checkRows [query] = .ok () := by
    apply checkRows_eq_ok_iff.2
    intro row hrow
    rwa [List.mem_singleton.1 hrow]
  rw [scores, hrows, checkIds, hfind]
  rfl

theorem scored_map_hit (hq : query.length = i.dimension) (hids : ∀ id ∈ ids, id < i.size) :
    i.Scored query ids (ids.map (i.hit query)) := by
  constructor
  · rw [List.map_map]
    exact List.map_id ids
  · intro n hn
    obtain ⟨id, hid, rfl⟩ := List.mem_map.1 hn
    rw [scores_eq_ok hq fun id' hid' => ?_]
    · rfl
    · rw [List.mem_singleton.1 hid']
      exact hids id hid

/-- The score of a row is a matter of its id. -/
theorem distinguished_map_hit (query : Row) (ids : List Nat) :
    Distinguished i.metric.isSimilarity (ids.map (i.hit query)) := by
  intro a ha b hb hid _
  obtain ⟨idA, _, rfl⟩ := List.mem_map.1 ha
  obtain ⟨idB, _, rfl⟩ := List.mem_map.1 hb
  exact congrArg (i.hit query) hid

theorem candidates_eq (query : Row) :
    i.candidates (i.metric.prepare query) = (List.range i.size).map (i.hit query) := by
  apply List.ext_getElem?
  intro id
  rw [candidates, List.getElem?_mapIdx, getElem?_rows, getElem?_map_range]
  split <;> rfl

/-! ### Rows in order -/

/-- Chosen rows with their scores, put in order. -/
def ranking (i : Index) (query : Row) (ids : List Nat) : List Neighbor :=
  nearestFirst i.metric.isSimilarity (ids.map (i.hit query))

theorem ranking_isNearestFirst (query : Row) (ids : List Nat) :
    IsNearestFirst i.metric.isSimilarity (ids.map (i.hit query)) (i.ranking query ids) :=
  nearestFirst_isNearestFirst _ _

@[simp] theorem length_ranking (query : Row) (ids : List Nat) :
    (i.ranking query ids).length = ids.length := by
  rw [(i.ranking_isNearestFirst query ids).perm.length_eq, List.length_map]

theorem ranking_perm {ids' : List Nat} (h : ids'.Perm ids) :
    i.ranking query ids' = i.ranking query ids := by
  have hsorted := (i.ranking_isNearestFirst query ids').perm_left (h.map (i.hit query))
  exact hsorted.eq_nearestFirst (i.distinguished_map_hit query ids)

theorem map_id_ranking_perm (query : Row) (ids : List Nat) :
    ((i.ranking query ids).map Neighbor.id).Perm ids := by
  have hperm := (i.ranking_isNearestFirst query ids).perm.map Neighbor.id
  rw [List.map_map] at hperm
  exact hperm.trans (.of_eq (List.map_id ids))

theorem select_eq_take_ranking (k : Nat) (query : Row) (ids : List Nat) :
    TopK.select (min k ids.length) i.metric.isSimilarity (ids.map (i.hit query)) =
      (i.ranking query ids).take (min k ids.length) := by
  rw [TopK.select_eq_take (i.distinguished_map_hit query ids), List.length_map, Nat.min_assoc,
    Nat.min_self, ranking]

/-! ### All rows -/

theorem nearest_eq_take (k : Nat) (query : Row) :
    i.nearest k query = (i.ranking query (List.range i.size)).take (min k i.size) := by
  have hselect := i.select_eq_take_ranking k query (List.range i.size)
  rw [List.length_range] at hselect
  rw [nearest, candidates_eq, hselect]

@[simp] theorem length_nearest (k : Nat) (query : Row) :
    (i.nearest k query).length = min k i.size := by
  rw [nearest_eq_take, List.length_take, length_ranking, List.length_range, Nat.min_assoc,
    Nat.min_self]

/-- No row is found twice, and none that there is not. -/
theorem nodup_id_nearest (k : Nat) (query : Row) :
    ((i.nearest k query).map Neighbor.id).Nodup ∧ ∀ n ∈ i.nearest k query, n.id < i.size := by
  have hids := i.map_id_ranking_perm query (List.range i.size)
  rw [nearest_eq_take]
  refine ⟨?_, fun n hn => ?_⟩
  · rw [List.map_take]
    exact (hids.nodup_iff.2 List.nodup_range).sublist (List.take_sublist ..)
  · exact List.mem_range.1 (hids.subset (List.mem_map_of_mem (List.mem_of_mem_take hn)))

theorem nearest_max_one_size (query : Row) :
    i.nearest (max 1 i.size) query = i.ranking query (List.range i.size) := by
  have hlength :
      (i.ranking query (List.range i.size)).length ≤ min (max 1 i.size) i.size := by
    rw [length_ranking, List.length_range]
    omega
  rw [nearest_eq_take, List.take_of_length_le hlength]

/-- **Search is exact.** With queries of the right length and `k` at least 1 it succeeds, and
the result of each query in turn is the beginning of the list of all rows in order. -/
theorem search_exact (i : Index) {queries : List Row} {k : Nat}
    (hq : ∀ query ∈ queries, query.length = i.dimension) (hk : 1 ≤ k) :
    ∃ results, i.search queries k = .ok results ∧
      List.Forall₂ (fun query result => ∃ all sorted, i.Scored query (List.range i.size) all ∧
        i.metric.IsNearestFirst all sorted ∧ result = sorted.take (min k i.size))
        queries results := by
  refine ⟨_, search_eq_ok hq hk, ?_⟩
  rw [List.forall₂_map_right_iff, List.forall₂_same]
  intro query hquery
  exact ⟨_, _, scored_map_hit (hq query hquery) fun id hid => List.mem_range.1 hid,
    Metric.isNearestFirst_iff.2 (i.ranking_isNearestFirst query _), i.nearest_eq_take k query⟩

/-- Points of a line, the second one a NaN. -/
def line : Index := ⟨.l2, .allCores, ⟨1, #[0, 0 / 0, 2, 1], by decide, by decide⟩⟩

/-- Slopes, the second one a NaN and the fourth one falling without end. -/
def slopes : Index :=
  ⟨.innerProduct, .allCores, ⟨1, #[0, 0 / 0, 2, -1 / 0, 1], by decide, by decide⟩⟩

/-- Of the points two are as far away as each other, and the NaN is the last one. Of the slopes
the steepest one comes first, and the NaN stands with the negative infinity. -/
theorem search_exact_line :
    (line.search [[1]] 9 = .ok [[⟨3, 0⟩, ⟨0, 1⟩, ⟨2, 1⟩, ⟨1, 0 / 0⟩]] ∧
      ∃ all sorted, line.Scored [1] [0, 1, 2, 3] all ∧ IsNearestFirst false all sorted ∧
        [⟨3, 0⟩, ⟨0, 1⟩, ⟨2, 1⟩, ⟨1, 0 / 0⟩] = sorted.take 4) ∧
    slopes.search [[1]] 4 = .ok [[⟨2, 2⟩, ⟨4, 1⟩, ⟨0, 0⟩, ⟨1, 0 / 0⟩]] ∧
      ∃ all sorted, slopes.Scored [1] [0, 1, 2, 3, 4] all ∧ IsNearestFirst true all sorted ∧
        [⟨2, 2⟩, ⟨4, 1⟩, ⟨0, 0⟩, ⟨1, 0 / 0⟩] = sorted.take 4 := by
  have hline : line.search [[1]] 9 = .ok [[⟨3, 0⟩, ⟨0, 1⟩, ⟨2, 1⟩, ⟨1, 0 / 0⟩]] := rfl
  have hslopes : slopes.search [[1]] 4 = .ok [[⟨2, 2⟩, ⟨4, 1⟩, ⟨0, 0⟩, ⟨1, 0 / 0⟩]] := rfl
  have hq : ∀ query ∈ [[(1 : Float32)]], query.length = 1 := by decide
  constructor
  · obtain ⟨results, hresults, hexact⟩ := search_exact line hq (show 1 ≤ 9 by decide)
    cases hresults.symm.trans hline
    exact ⟨hline, (List.forall₂_cons.1 hexact).1⟩
  · obtain ⟨results, hresults, hexact⟩ := search_exact slopes hq (show 1 ≤ 4 by decide)
    cases hresults.symm.trans hslopes
    exact ⟨hslopes, (List.forall₂_cons.1 hexact).1⟩

/-! ### Rows within a radius -/

theorem nearerThan_eq_takeWhile (radius : Float32) (query : Row) :
    i.nearerThan radius query = (i.ranking query (List.range i.size)).takeWhile
      fun n => i.metric.within n.score radius := by
  have hranking := i.ranking_isNearestFirst query (List.range i.size)
  have hdistinguished := (i.distinguished_map_hit query (List.range i.size)).filter
    fun n => i.metric.within n.score radius
  rw [nearerThan, candidates_eq, ← hranking.filter_within radius]
  exact ((hranking.filter _).eq_nearestFirst hdistinguished).symm

theorem hit_mem_takeWhile_iff {radius : Float32} {id : Nat} (hid : id < i.size) :
    (i.hit query id ∈ (i.ranking query (List.range i.size)).takeWhile
      fun n => i.metric.within n.score radius) ↔
      i.metric.within (i.hit query id).score radius = true := by
  have hranking := i.ranking_isNearestFirst query (List.range i.size)
  have hmem : i.hit query id ∈ i.ranking query (List.range i.size) :=
    hranking.perm.mem_iff.2 (List.mem_map_of_mem (List.mem_range.2 hid))
  rw [← hranking.filter_within radius, List.mem_filter, and_iff_right hmem]

/-- **Range search gives the beginning of the list of all rows in order**: for each query the
hits of a search for all rows before the first one that is not within the radius, and behind
them there is no row within the radius. -/
theorem rangeSearch_eq_prefix (i : Index) {queries : List Row}
    (hq : ∀ query ∈ queries, query.length = i.dimension) (radius : Float32) :
    ∃ results, i.search queries (max 1 i.size) = .ok results ∧
      i.rangeSearch queries radius = .ok (results.map fun hits =>
        hits.takeWhile fun n => i.metric.within n.score radius) ∧
      List.Forall₂ (fun query hits => ∀ id < i.size, ∃ score,
        i.scores query [id] = .ok [score] ∧
        (⟨id, score⟩ ∈ hits.takeWhile (fun n => i.metric.within n.score radius) ↔
          i.metric.within score radius = true)) queries results := by
  refine ⟨_, search_eq_ok hq (Nat.le_max_left 1 i.size), ?_, ?_⟩
  · rw [rangeSearch_eq_ok hq, List.map_map]
    congr 2
    funext query
    rw [nearerThan_eq_takeWhile, Function.comp_apply, nearest_max_one_size]
  · rw [List.forall₂_map_right_iff, List.forall₂_same]
    intro query hquery id hid
    refine ⟨(i.hit query id).score, scores_eq_ok (hq query hquery) ?_, ?_⟩
    · simpa using hid
    · rw [nearest_max_one_size]
      exact hit_mem_takeWhile_iff hid

/-- All points but the NaN lie within a radius of one and a half. -/
theorem rangeSearch_eq_prefix_line :
    line.search [[1]] 4 = .ok [[⟨3, 0⟩, ⟨0, 1⟩, ⟨2, 1⟩, ⟨1, 0 / 0⟩]] ∧
      line.rangeSearch [[1]] 1.5 = .ok [[⟨3, 0⟩, ⟨0, 1⟩, ⟨2, 1⟩]] := by
  have hsearch : line.search [[1]] 4 = .ok [[⟨3, 0⟩, ⟨0, 1⟩, ⟨2, 1⟩, ⟨1, 0 / 0⟩]] := rfl
  have hq : ∀ query ∈ [[(1 : Float32)]], query.length = line.dimension := by decide
  obtain ⟨results, hresults, hrange, _⟩ := rangeSearch_eq_prefix line hq 1.5
  cases hresults.symm.trans hsearch
  exact ⟨hsearch, hrange⟩

/-! ### Chosen rows -/

theorem searchAmong_eq_take (hq : query.length = i.dimension) (hids : ∀ id ∈ ids, id < i.size)
    (hk : 1 ≤ k) :
    i.searchAmong query ids k = .ok ((i.ranking query ids).take (min k ids.length)) := by
  have hhits : List.zipWith Neighbor.mk ids (ids.map fun id => (i.hit query id).score) =
      ids.map (i.hit query) := by
    rw [List.zipWith_map_right, List.zipWith_self]
    rfl
  rw [searchAmong, if_neg (Nat.one_le_iff_ne_zero.1 hk), scores_eq_ok hq hids,
    ← i.select_eq_take_ranking, ← hhits]
  rfl

/-- **Search among chosen rows is exact.** It gives the beginning of the list of the chosen
rows in order, in which a row stands as often as it is chosen. So the order of the choice does
not matter, and a choice of all rows gives what a search gives. -/
theorem searchAmong_exact (i : Index) {query : Row} {ids : List Nat} {k : Nat}
    (hq : query.length = i.dimension) (hids : ∀ id ∈ ids, id < i.size) (hk : 1 ≤ k) :
    (∃ all sorted, i.Scored query ids all ∧ i.metric.IsNearestFirst all sorted ∧
        i.searchAmong query ids k = .ok (sorted.take (min k ids.length))) ∧
      (∀ ids' : List Nat, ids'.Perm ids →
        i.searchAmong query ids' k = i.searchAmong query ids k) ∧
      (ids.Perm (List.range i.size) → ∃ hits, i.search [query] k = .ok [hits] ∧
        i.searchAmong query ids k = .ok hits) := by
  refine ⟨⟨_, _, scored_map_hit hq hids,
    Metric.isNearestFirst_iff.2 (i.ranking_isNearestFirst query ids),
    searchAmong_eq_take hq hids hk⟩, fun ids' hperm => ?_, fun hperm => ?_⟩
  · rw [searchAmong_eq_take hq hids hk, ranking_perm hperm.symm, ← hperm.length_eq]
    exact searchAmong_eq_take hq (fun id hid => hids id (hperm.mem_iff.1 hid)) hk
  · refine ⟨i.nearest k query, search_eq_ok ?_ hk, ?_⟩
    · simpa using hq
    · rw [searchAmong_eq_take hq hids hk, ranking_perm hperm, nearest_eq_take, hperm.length_eq,
        List.length_range]

/-- A row that is chosen twice is found twice, in whatever order the rows are chosen; and the
steepest slope is found first. -/
theorem searchAmong_exact_line :
    (line.searchAmong [1] [2, 0, 2] 5 = .ok [⟨0, 1⟩, ⟨2, 1⟩, ⟨2, 1⟩] ∧
      line.searchAmong [1] [2, 2, 0] 5 = .ok [⟨0, 1⟩, ⟨2, 1⟩, ⟨2, 1⟩]) ∧
    slopes.searchAmong [1] [0, 4, 2, 4] 3 = .ok [⟨2, 2⟩, ⟨4, 1⟩, ⟨4, 1⟩] ∧
      ∃ all sorted, slopes.Scored [1] [0, 4, 2, 4] all ∧ IsNearestFirst true all sorted ∧
        [⟨2, 2⟩, ⟨4, 1⟩, ⟨4, 1⟩] = sorted.take 3 := by
  have hline : line.searchAmong [1] [2, 0, 2] 5 = .ok [⟨0, 1⟩, ⟨2, 1⟩, ⟨2, 1⟩] := rfl
  have hslopes : slopes.searchAmong [1] [0, 4, 2, 4] 3 = .ok [⟨2, 2⟩, ⟨4, 1⟩, ⟨4, 1⟩] := rfl
  have hq : [(1 : Float32)].length = 1 := rfl
  constructor
  · have hids : ∀ id ∈ [2, 0, 2], id < line.size := by decide
    obtain ⟨_, horder, _⟩ := searchAmong_exact line hq hids (show 1 ≤ 5 by decide)
    exact ⟨hline, (horder [2, 2, 0] (by decide)).trans hline⟩
  · have hids : ∀ id ∈ [0, 4, 2, 4], id < slopes.size := by decide
    obtain ⟨⟨all, sorted, hscored, hsorted, hfound⟩, _⟩ :=
      searchAmong_exact slopes hq hids (show 1 ≤ 3 by decide)
    exact ⟨hslopes, all, sorted, hscored, hsorted, Except.ok.inj (hslopes.symm.trans hfound)⟩

end Index

end NeighborSearch
