import NeighborSearch.Proofs.Index.Search
import NeighborSearch.Proofs.Session.AppendOnly

/-! Cosine is the inner product of unit rows.

An index under cosine is an index under the inner product whose rows and queries somebody else
has made unit rows. `Index.asCosine` changes the metric of an index and nothing else, and
`Step.withUnitRows` makes unit rows of what a step brings, where it has the width of the index.
The two go together: a step on the index under cosine gives what the step with unit rows gives
on the one under the inner product, and leaves the two indexes alike (`step_asCosine`). So all
answers of a run are the same (`run_cosine_eq_run_innerProduct`). -/
namespace NeighborSearch

/-! ### What is made a unit row -/

/-- A row of this width is made a unit row, any other one stays as it is. -/
def unitIfFits (width : Nat) (row : Row) : Row :=
  if row.length = width then unitRow row else row

/-- The rows of a buffer, each one made a unit row. A buffer that ends within a row stays as it
is. -/
def unitBuffer (width : Nat) (values : Array Float32) : Array Float32 :=
  if width ∣ values.size then ((cut width values.toList).map unitRow).flatten.toArray else values

variable {width : Nat}

@[simp] theorem length_unitIfFits (row : Row) : (unitIfFits width row).length = row.length := by
  rw [unitIfFits]
  split
  · exact length_unitRow row
  · rfl

theorem unitIfFits_of_length {row : Row} (h : row.length = width) :
    unitIfFits width row = unitRow row :=
  if_pos h

theorem map_unitIfFits {rows : List Row} (h : ∀ row ∈ rows, row.length = width) :
    rows.map (unitIfFits width) = rows.map unitRow :=
  List.map_congr_left fun row hrow => unitIfFits_of_length (h row hrow)

theorem length_of_mem_map_unitRow {rows : List Row} (h : ∀ row ∈ rows, row.length = width)
    {row : Row} (hrow : row ∈ rows.map unitRow) : row.length = width := by
  obtain ⟨r, hr, rfl⟩ := List.mem_map.1 hrow
  rw [length_unitRow, h r hr]

theorem size_unitBuffer (hw : 0 < width) (values : Array Float32) :
    (unitBuffer width values).size = values.size := by
  rw [unitBuffer]
  split
  · rename_i hdvd
    have hcut : ∀ row ∈ cut width values.toList, row.length = width :=
      fun _ => length_of_mem_cut hdvd
    have hvalues := length_flatten_rows hcut
    rw [flatten_cut hw, Array.length_toList] at hvalues
    rw [List.size_toArray, length_flatten_rows fun _ => length_of_mem_map_unitRow hcut,
      List.length_map, hvalues]
  · rfl

/-- The rows of the buffer are the unit rows. -/
theorem cut_unitBuffer (hw : 0 < width) {values : Array Float32} (h : width ∣ values.size) :
    cut width (unitBuffer width values).toList = (cut width values.toList).map unitRow := by
  have hcut : ∀ row ∈ cut width values.toList, row.length = width := fun _ => length_of_mem_cut h
  have hdvd : width ∣ (unitBuffer width values).size := by rwa [size_unitBuffer hw]
  rw [← rowsOf_eq_cut hw hdvd, unitBuffer, if_pos h,
    rowsOf_flatten hw fun _ => length_of_mem_map_unitRow hcut]

namespace Index

/-! ### The same index under another metric -/

/-- The index under cosine that holds the same rows. -/
def asCosine (i : Index) : Index := { i with metric := .cosine }

theorem create_asCosine (dimension : Nat) (threads : Threads) :
    create dimension .cosine threads = (create dimension .innerProduct threads).map asCosine := by
  unfold create
  split
  · cases threads.validate <;> rfl
  · rfl

variable {p : Index}

/-! ### Adding -/

/-- The rows that come in are unit rows on both sides. -/
theorem Extends.eq_asCosine {c j : Index} {rows : List Row} (hp : p.metric = .innerProduct)
    (hc : p.asCosine.Extends c rows) (hj : p.Extends j (rows.map unitRow)) :
    c = j.asCosine := by
  refine eq_of_rows_eq hc.metric (hc.threads.trans hj.threads.symm)
    (hc.dimension.trans hj.dimension.symm) ?_
  have hprepare : p.metric.prepare = id := by
    rw [hp]
    rfl
  show c.rows = j.rows
  rw [hc.rows, hj.rows, hprepare, List.map_id]
  rfl

theorem add_asCosine (hp : p.metric = .innerProduct) (rows : List Row) :
    p.asCosine.add rows = (p.add (rows.map (unitIfFits p.dimension))).map asCosine := by
  have hsame := mismatch?_map (@length_unitIfFits p.dimension) p.dimension 0 rows
  cases hrows : mismatch? p.dimension 0 rows with
  | some e =>
    rw [add_eq_error (i := p.asCosine) hrows, add_eq_error (hsame.trans hrows)]
    rfl
  | none =>
    obtain ⟨c, hc⟩ := add_succeeds_iff (i := p.asCosine).2 (mismatch?_eq_none_iff.1 hrows)
    obtain ⟨j, hj⟩ := add_succeeds_iff.2 (mismatch?_eq_none_iff.1 (hsame.trans hrows))
    have hunit := add_extends hj
    rw [map_unitIfFits (mismatch?_eq_none_iff.1 hrows)] at hunit
    rw [hc, hj, (add_extends hc).eq_asCosine hp hunit]
    rfl

theorem addFlat_asCosine (hp : p.metric = .innerProduct) (values : Array Float32) :
    p.asCosine.addFlat values = (p.addFlat (unitBuffer p.dimension values)).map asCosine := by
  by_cases hdvd : p.dimension ∣ values.size
  · have hdvd' : p.dimension ∣ (unitBuffer p.dimension values).size := by
      rwa [size_unitBuffer p.dimension_pos]
    obtain ⟨c, hc⟩ := addFlat_succeeds_iff (i := p.asCosine).2 hdvd
    obtain ⟨j, hj⟩ := addFlat_succeeds_iff.2 hdvd'
    have hunit := addFlat_extends hj
    rw [cut_unitBuffer p.dimension_pos hdvd] at hunit
    rw [hc, hj, (addFlat_extends hc).eq_asCosine hp hunit]
    rfl
  · have hmod : ¬ values.size % p.dimension = 0 := fun h => hdvd (Nat.dvd_of_mod_eq_zero h)
    rw [unitBuffer, if_neg hdvd, addFlat, addFlat, dif_neg hmod]
    exact dif_neg hmod

/-! ### Searching -/

theorem checkRows_asCosine (rows : List Row) :
    p.asCosine.checkRows rows = p.checkRows (rows.map (unitIfFits p.dimension)) := by
  rw [checkRows, checkRows, mismatch?_map length_unitIfFits]
  rfl

theorem candidates_asCosine (hp : p.metric = .innerProduct) (query : Row) :
    p.asCosine.candidates query = p.candidates query := by
  unfold candidates
  rw [hp]
  rfl

/-- The query is a unit row on both sides, too. -/
theorem nearest_asCosine (hp : p.metric = .innerProduct) (k : Nat) {query : Row}
    (h : query.length = p.dimension) :
    p.asCosine.nearest k query = p.nearest k (unitIfFits p.dimension query) := by
  rw [unitIfFits_of_length h, nearest, nearest, candidates_asCosine hp, hp]
  rfl

theorem nearerThan_asCosine (hp : p.metric = .innerProduct) (radius : Float32) {query : Row}
    (h : query.length = p.dimension) :
    p.asCosine.nearerThan radius query = p.nearerThan radius (unitIfFits p.dimension query) := by
  rw [unitIfFits_of_length h, nearerThan, nearerThan, candidates_asCosine hp, hp]
  rfl

theorem searchWatched_asCosine (hp : p.metric = .innerProduct) {σ : Type} (watch : Watch σ)
    (queries : List Row) (k : Nat) (s : σ) :
    p.asCosine.searchWatched watch queries k s =
      p.searchWatched watch (queries.map (unitIfFits p.dimension)) k s := by
  have hcheck : p.asCosine.checkSearch queries k =
      p.checkSearch (queries.map (unitIfFits p.dimension)) k := by
    rw [checkSearch, checkSearch, checkRows_asCosine]
  rw [searchWatched, searchWatched, ← hcheck]
  cases hok : p.asCosine.checkSearch queries k with
  | error e => rfl
  | ok _ =>
    have hwidth := (checkSearch_eq_ok_iff.1 hok).2
    exact answerBatch_map watch
      (fun query hquery => nearest_asCosine hp k (hwidth query hquery)) 0 s

theorem search_asCosine (hp : p.metric = .innerProduct) (queries : List Row) (k : Nat) :
    p.asCosine.search queries k = p.search (queries.map (unitIfFits p.dimension)) k :=
  congrArg Prod.fst (searchWatched_asCosine hp Watch.idle queries k ())

theorem rangeSearch_asCosine (hp : p.metric = .innerProduct) (queries : List Row)
    (radius : Float32) :
    p.asCosine.rangeSearch queries radius =
      p.rangeSearch (queries.map (unitIfFits p.dimension)) radius := by
  rw [rangeSearch, rangeSearch, ← checkRows_asCosine]
  cases hrows : p.asCosine.checkRows queries with
  | error e => rfl
  | ok _ =>
    have hwidth := checkRows_eq_ok_iff.1 hrows
    exact congrArg Prod.fst (answerBatch_map Watch.idle
      (fun query hquery => nearerThan_asCosine hp radius (hwidth query hquery)) 0 ())

theorem scores_asCosine (hp : p.metric = .innerProduct) (query : Row) (ids : List Nat) :
    p.asCosine.scores query ids = p.scores (unitIfFits p.dimension query) ids := by
  rw [scores, scores, ← List.map_singleton (f := unitIfFits p.dimension), ← checkRows_asCosine]
  cases hrows : p.asCosine.checkRows [query] with
  | error e => rfl
  | ok _ =>
    have hlength : query.length = p.dimension :=
      checkRows_eq_ok_iff.1 hrows query (List.mem_singleton_self query)
    rw [unitIfFits_of_length hlength, hp]
    rfl

theorem searchAmong_asCosine (hp : p.metric = .innerProduct) (query : Row) (ids : List Nat)
    (k : Nat) :
    p.asCosine.searchAmong query ids k = p.searchAmong (unitIfFits p.dimension query) ids k := by
  rw [searchAmong, searchAmong, scores_asCosine hp, hp]
  rfl

end Index

namespace Session

/-! ### The same session under another metric -/

def asCosine (s : Session) : Session := { s with index := s.index.asCosine }

/-- The step with unit rows for all that it brings and that has this width. -/
def Step.withUnitRows (width : Nat) : Step → Step
  | .add rows => .add (rows.map (unitIfFits width))
  | .addText rows =>
    match rows.mapM DenseVector.parse with
    | .ok vectors => .add ((vectors.map (·.components)).map (unitIfFits width))
    | .error _ => .addText rows
  | .addFlat values => .addFlat (unitBuffer width values)
  | .addSynthetic source => .add (source.dataset.database.map (unitIfFits width))
  | .search queries k => .search (queries.map (unitIfFits width)) k
  | .searchSynthetic source k => .search (source.dataset.queries.map (unitIfFits width)) k
  | .searchInterruptible queries k handle tripAt =>
    .searchInterruptible (queries.map (unitIfFits width)) k handle tripAt
  | .rangeSearch queries radius => .rangeSearch (queries.map (unitIfFits width)) radius
  | .searchAmong query ids k => .searchAmong (unitIfFits width query) ids k
  | .scores query ids => .scores (unitIfFits width query) ids
  | next => next

variable {s : Session}

theorem added_asCosine (outcome : Outcome Index) :
    s.asCosine.added (outcome.map Index.asCosine) =
      Prod.map id asCosine (s.added outcome) := by
  cases outcome <;> rfl

theorem start_asCosine (i : Index) : start i.asCosine = (start i).asCosine := rfl

/-- Every step but the one that tells the metric gives the same answer on both sides. -/
theorem step_asCosine (hs : s.index.metric = .innerProduct) {next : Step} (h : next ≠ .info) :
    s.asCosine.step next =
      Prod.map id asCosine (s.step (next.withUnitRows s.index.dimension)) := by
  cases next with
  | info => exact absurd rfl h
  | add rows =>
    show s.asCosine.added (s.index.asCosine.add rows) = _
    rw [Index.add_asCosine hs, added_asCosine]
    rfl
  | addText rows =>
    show s.asCosine.added (addTexts s.index.asCosine rows) = _
    unfold addTexts
    rw [Step.withUnitRows]
    cases hparse : rows.mapM DenseVector.parse with
    | error e =>
      show _ = Prod.map id asCosine (s.added (addTexts s.index rows))
      unfold addTexts
      rw [hparse]
      rfl
    | ok vectors =>
      show s.asCosine.added (s.index.asCosine.add (vectors.map (·.components))) = _
      rw [Index.add_asCosine hs, added_asCosine]
      rfl
  | addFlat values =>
    show s.asCosine.added (s.index.asCosine.addFlat values) = _
    rw [Index.addFlat_asCosine hs, added_asCosine]
    rfl
  | addSynthetic source =>
    show s.asCosine.added (s.index.asCosine.add source.dataset.database) = _
    rw [Index.add_asCosine hs, added_asCosine]
    rfl
  | search queries k =>
    show ((s.index.asCosine.search queries k).map Answer.results, s.asCosine) = _
    rw [Index.search_asCosine hs]
    rfl
  | searchSynthetic source k =>
    show ((s.index.asCosine.search source.dataset.queries k).map Answer.results, s.asCosine) = _
    rw [Index.search_asCosine hs]
    rfl
  | searchInterruptible queries k handle tripAt =>
    have hwatched := Index.searchWatched_asCosine hs (handleWatch handle tripAt) queries k s.flags
    rw [step_searchInterruptible, Step.withUnitRows, step_searchInterruptible, ← hwatched]
    rfl
  | rangeSearch queries radius =>
    show ((s.index.asCosine.rangeSearch queries radius).map Answer.results, s.asCosine) = _
    rw [Index.rangeSearch_asCosine hs]
    rfl
  | searchAmong query ids k =>
    show ((s.index.asCosine.searchAmong query ids k).map Answer.hits, s.asCosine) = _
    rw [Index.searchAmong_asCosine hs]
    rfl
  | scores query ids =>
    show ((s.index.asCosine.scores query ids).map Answer.distances, s.asCosine) = _
    rw [Index.scores_asCosine hs]
    rfl
  | _ => rfl

theorem run_asCosine (hs : s.index.metric = .innerProduct) {steps : List Step}
    (h : ∀ next ∈ steps, next ≠ .info) :
    s.asCosine.run steps =
      Prod.map id asCosine (s.run (steps.map (Step.withUnitRows s.index.dimension))) := by
  induction steps generalizing s with
  | nil => rfl
  | cons next rest ih =>
    have hstep := step_asCosine hs (h next (List.mem_cons_self ..))
    -- the index keeps its metric and its dimension, whatever the step adds
    have hkept := step_extends s (next.withUnitRows s.index.dimension)
    have hrest := ih (hkept.metric.trans hs) fun q hq => h q (List.mem_cons_of_mem _ hq)
    rw [hkept.dimension] at hrest
    rw [List.map_cons, run, run, hstep]
    simp only [Prod.map]
    rw [hrest]
    rfl

/-- **An index under cosine answers as one under the inner product that is given unit rows**:
there are both for every dimension from 1 on, and on the same steps, all rows and queries of that
length being made unit rows for the second one, they give the same answers and the same errors. -/
theorem run_cosine_eq_run_innerProduct {dimension : Nat} (hd : 1 ≤ dimension) {threads : Threads}
    (ht : threads.validate = .ok ()) :
    ∃ c p : Index, Index.create dimension .cosine threads = .ok c ∧
      Index.create dimension .innerProduct threads = .ok p ∧
      ∀ steps : List Step, (∀ next ∈ steps, next ≠ .info) →
        ((start c).run steps).1 =
          ((start p).run (steps.map (Step.withUnitRows dimension))).1 := by
  have hp : Index.create dimension .innerProduct threads =
      .ok ⟨.innerProduct, threads, .empty dimension hd⟩ := by
    rw [Index.create, dif_pos (show 0 < dimension from hd), ht]
    rfl
  have hc : Index.create dimension .cosine threads =
      .ok (Index.asCosine ⟨.innerProduct, threads, .empty dimension hd⟩) := by
    rw [Index.create_asCosine, hp]
    rfl
  refine ⟨_, _, hc, hp, fun steps hsteps => ?_⟩
  rw [start_asCosine, run_asCosine rfl hsteps]
  rfl

/-- An index for the inner products of vectors of the plane. -/
def innerPlane : Index := ⟨.innerProduct, .allCores, .empty 2 Nat.two_pos⟩

/-- The first of two additions is refused on both sides, and the search finds the row that points
the way of the query. -/
theorem run_cosine_eq_run_innerProduct_plane :
    ((start emptyPlane).run
        [.add [[3, 4], [1]], .addFlat #[3, 4, 0, 2], .row 0, .search [[6, 8]] 1]).1 =
      ((start innerPlane).run
        [.add [unitRow [3, 4], [1]], .addFlat (unitBuffer 2 #[3, 4, 0, 2]), .row 0,
          .search [unitRow [6, 8]] 1]).1 := by
  obtain ⟨c, p, hc, hp, hrun⟩ := run_cosine_eq_run_innerProduct (show 1 ≤ 2 by decide)
    (show Threads.allCores.validate = .ok () from rfl)
  have hplane : Index.create 2 .cosine .allCores = .ok emptyPlane := rfl
  have hinner : Index.create 2 .innerProduct .allCores = .ok innerPlane := rfl
  cases hc.symm.trans hplane
  cases hp.symm.trans hinner
  exact hrun [.add [[3, 4], [1]], .addFlat #[3, 4, 0, 2], .row 0, .search [[6, 8]] 1] (by simp)

end Session

end NeighborSearch
