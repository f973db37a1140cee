import NeighborSearch.Proofs.Benchmark.Sweep
import NeighborSearch.Proofs.Dataset
import NeighborSearch.Proofs.Index.Search
import NeighborSearch.Proofs.Session.AppendOnly
import NeighborSearch.Proofs.Timing

/-! How a benchmark ends.

Each part of a benchmark ends in one of two ways, whatever the stopwatch shows: if there is a fault
it fails with that error, and otherwise it succeeds (`Settles`). A list that is gone through ends
with the first fault of its elements (`settles_mapM`). A number of neighbors is at fault if it is
zero and searched for at all, a dimension if it is zero or else one of the numbers of neighbors is,
so the faults of a plan come in the order in which the benchmark gets to them (`fault?_eq`), and
without one there is a measurement for every dimension with every number of neighbors
(`run_outcome`). -/
namespace NeighborSearch.Benchmark
variable {σ α β : Type}

/-- From the first state on the computation fails with this error and leaves the second one. -/
def Fails (x : ExceptT SearchError (StateM σ) α) (s : σ) (e : SearchError) (t : σ) : Prop :=
  Id.run (x.run.run s) = (.error e, t)

/-- From every state on the computation fails with the fault if there is one, and otherwise
succeeds with a result that has the property. -/
def Settles (x : ExceptT SearchError (StateM σ) α) (fault : Option SearchError) (P : α → Prop) :
    Prop :=
  ∀ s, match fault with
    | some e => ∃ t, Fails x s e t
    | none => ∃ a t, Gives x s a t ∧ P a

/-! ### Steps of a computation -/

section Steps
variable {s r t : σ} {e : SearchError} {x : ExceptT SearchError (StateM σ) α}
  {f : α → ExceptT SearchError (StateM σ) β} {fault : Option SearchError} {P : α → Prop}
  {Q : β → Prop}

theorem Fails.bind (h : Fails x s e t) : Fails (x >>= f) s e t := by
  have hx : Id.run (x.run.run s) = (.error e, t) := h
  show Id.run ((x >>= f).run.run s) = _
  simp only [ExceptT.run_bind, StateT.run_bind, Id.run_bind, hx]
  rfl

/-- What succeeds first leaves it to the rest how the computation ends. -/
theorem Gives.bind_fails {a : α} (h : Gives x s a r) (hf : Fails (f a) r e t) :
    Fails (x >>= f) s e t := by
  have hx : Id.run (x.run.run s) = (.ok a, r) := h
  show Id.run ((x >>= f).run.run s) = _
  simp only [ExceptT.run_bind, StateT.run_bind, Id.run_bind, hx]
  exact hf

theorem settles_pure {a : α} (h : P a) :
    Settles (pure a : ExceptT SearchError (StateM σ) α) none P :=
  fun s => ⟨a, s, gives_pure_iff.2 ⟨rfl, rfl⟩, h⟩

theorem settles_bind_of_fault (h : Settles x (some e) P) : Settles (x >>= f) (some e) Q := by
  intro s
  obtain ⟨t, ht⟩ := h s
  exact ⟨t, ht.bind⟩

theorem settles_bind (h : Settles x none P) (hf : ∀ a, P a → Settles (f a) fault Q) :
    Settles (x >>= f) fault Q := by
  intro s
  obtain ⟨a, r, hx, ha⟩ := h s
  have hrest := hf a ha r
  cases fault with
  | some e =>
    obtain ⟨t, ht⟩ := hrest
    exact ⟨t, hx.bind_fails ht⟩
  | none =>
    obtain ⟨b, t, ht, hb⟩ := hrest
    exact ⟨b, t, gives_bind_iff.2 ⟨a, r, hx, ht⟩, hb⟩

theorem settles_bind_pure {g : α → β} (h : Settles x fault P) (hg : ∀ a, P a → Q (g a)) :
    Settles (x >>= fun a => pure (g a)) fault Q := by
  cases fault with
  | some e => exact settles_bind_of_fault h
  | none => exact settles_bind h fun a ha => settles_pure (hg a ha)

theorem settles_attempt_bind {a : α} (h : Settles (f a) fault Q) :
    Settles (attempt (Except.ok a) >>= f) fault Q :=
  settles_bind (settles_pure (P := (· = a)) rfl) fun _ hb => hb ▸ h

theorem settles_attempt_error :
    Settles (attempt (Except.error e) >>= f) (some e) Q :=
  fun s => ⟨s, rfl⟩

/-- A list that is gone through ends with its first fault. -/
theorem settles_mapM {f : α → ExceptT SearchError (StateM σ) β} {fault : α → Option SearchError}
    {R : α → β → Prop} {xs : List α} (h : ∀ x ∈ xs, Settles (f x) (fault x) (R x)) :
    Settles (xs.mapM f) (xs.findSome? fault) (List.Forall₂ R xs) := by
  induction xs with
  | nil => exact settles_pure .nil
  | cons x xs ih =>
    have hx := h x (List.mem_cons_self ..)
    have hxs := ih fun y hy => h y (List.mem_cons_of_mem _ hy)
    rw [List.mapM_cons, List.findSome?_cons]
    cases hfault : fault x with
    | some e =>
      rw [hfault] at hx
      exact settles_bind_of_fault hx
    | none =>
      rw [hfault] at hx
      exact settles_bind hx fun y hy => settles_bind_pure hxs fun ys hys => .cons hy hys

end Steps

/-! ### Searches, as often as there are runs -/

section Searches
variable {watch : Stopwatch (StateM σ)} {plan : Plan} {index : Index} {queries : List Row} {k : Nat}

/-- Found for a dimension with a number of neighbors: as many samples as the warm-up leaves, and
as many hits as were asked for, unless there are not so many vectors or nothing was searched. -/
structure Measured (plan : Plan) (d k : Nat) (m : Measurement) : Prop where
  dimension : m.d = d
  neighbors : m.k = k
  samples : m.timing.runs = plan.runs - plan.runs / 5
  hits : m.resultsPerQuery = if 0 < plan.runs ∧ 0 < plan.nq then min k plan.nb else 0

/-- Zero neighbors must not be searched for. -/
def Plan.searchFault? (plan : Plan) (k : Nat) : Option SearchError :=
  if 0 < plan.runs ∧ k = 0 then some (.invalidK 0) else none

theorem fewestHits_map_nearest (index : Index) (k : Nat) (queries : List Row) :
    fewestHits (queries.map (index.nearest k)) =
      if 0 < queries.length then min k index.size else 0 := by
  have hlengths : (queries.map (index.nearest k)).map List.length =
      List.replicate queries.length (min k index.size) := by
    rw [List.map_map, List.eq_replicate_iff]
    refine ⟨List.length_map _, fun n hn => ?_⟩
    obtain ⟨query, _, rfl⟩ := List.mem_map.1 hn
    simp [Index.nearest_eq_take]
  rw [fewestHits, hlengths]
  cases queries.length with
  | zero => rfl
  | succ n => simp

theorem settles_repeatSearch {results : List ResultSet} {n : Nat}
    (hsearch : 0 < n → index.search queries k = .ok results) (found : TimingLog × Nat) :
    Settles (repeatSearch watch index queries k n found) none fun last =>
      (∃ durations : List Duration, durations.length = n ∧
        last.1 = durations.foldl TimingLog.record found.1) ∧
      last.2 = if 0 < n then fewestHits results else found.2 := by
  induction n generalizing found with
  | zero => exact settles_pure ⟨⟨[], rfl, rfl⟩, rfl⟩
  | succ n ih =>
    refine settles_bind (P := fun _ => True) (fun s => ⟨_, _, rfl, trivial⟩) ?_
    rintro ⟨⟨_, rfl⟩, duration⟩ -
    simp only [hsearch n.succ_pos]
    refine settles_attempt_bind fun s => ?_
    obtain ⟨last, t, hlast, ⟨durations, hlength, hlog⟩, hhits⟩ :=
      ih (fun _ => hsearch n.succ_pos) (found.1.record duration, fewestHits results) s
    refine ⟨last, t, hlast, ⟨duration :: durations, ?_, hlog⟩, ?_⟩
    · rw [List.length_cons, hlength]
    · rw [hhits, ite_self, if_pos n.succ_pos]

/-- The first search that fails is the last one. -/
theorem fails_repeatSearch {e : SearchError} (hsearch : index.search queries k = .error e)
    {n : Nat} (hn : 0 < n) (found : TimingLog × Nat) (P : TimingLog × Nat → Prop) :
    Settles (repeatSearch watch index queries k n found) (some e) P := by
  obtain ⟨n, rfl⟩ := Nat.exists_eq_add_one_of_ne_zero hn.ne'
  refine settles_bind (P := fun _ => True) (fun s => ⟨_, _, rfl, trivial⟩) ?_
  rintro ⟨⟨_, rfl⟩, duration⟩ -
  simp only [hsearch]
  exact settles_attempt_error

theorem settles_measure (hq : ∀ query ∈ queries, query.length = index.dimension)
    (hqueries : queries.length = plan.nq) (hsize : index.size = plan.nb) (d k : Nat) :
    Settles (measure watch plan d index queries k) (plan.searchFault? k) (Measured plan d k) := by
  rw [Plan.searchFault?]
  split
  · rename_i hfault
    obtain ⟨hruns, rfl⟩ := hfault
    exact settles_bind_of_fault (P := fun _ => True)
      (fails_repeatSearch (Index.search_zero index queries) hruns _ _)
  · rename_i hfault
    have hsearch : 0 < plan.runs → index.search queries k = .ok (queries.map (index.nearest k)) :=
      fun hruns => Index.search_eq_ok hq (Nat.pos_of_ne_zero fun hk => hfault ⟨hruns, hk⟩)
    refine settles_bind_pure (settles_repeatSearch hsearch _) ?_
    rintro ⟨log, hits⟩ ⟨⟨durations, hlength, rfl⟩, rfl⟩
    refine ⟨rfl, rfl, ?_, ?_⟩
    · show (durations.foldl TimingLog.record (.forRuns plan.runs)).size = _
      rw [TimingLog.size_foldl_record, hlength]
      exact Nat.zero_add _
    · rw [fewestHits_map_nearest, hqueries, hsize, ← ite_and]

end Searches

/-! ### Dimensions -/

section Dimensions
variable {watch : Stopwatch (StateM σ)} {plan : Plan} {d : Nat}

/-- A dimension must not be zero, and its searches must go well. -/
def Plan.dimensionFault? (plan : Plan) (d : Nat) : Option SearchError :=
  if d = 0 then some (.invalidDimension 0) else plan.ks.findSome? plan.searchFault?

theorem indexOf_zero (ds : Dataset) (hd : ds.dimension = 0) :
    indexOf plan ds = .error (.invalidDimension 0) := by
  rw [indexOf, Index.create, dif_neg (by omega), hd]
  rfl

/-- An index takes in all vectors of its dimension. -/
theorem indexOf_eq_ok (plan : Plan) {ds : Dataset} (hd : 0 < ds.dimension)
    (hrows : ∀ row ∈ ds.database, row.length = ds.dimension) :
    ∃ index, indexOf plan ds = .ok index ∧ index.dimension = ds.dimension ∧
      index.size = ds.database.length := by
  obtain ⟨empty, index, hempty, hindex, hdimension, hsize⟩ :=
    Session.exists_filled plan.metric plan.threads hd hrows
  refine ⟨index, ?_, hdimension, hsize⟩
  rw [indexOf, hempty]
  exact hindex

theorem settles_measureDimension (plan : Plan) (d : Nat) :
    Settles (measureDimension watch plan d) (plan.dimensionFault? d)
      (List.Forall₂ (Measured plan d) plan.ks) := by
  have hshape : (Dataset.ofSeed d plan.nb plan.nq plan.seed).Shape d plan.nb plan.nq :=
    Dataset.generate_shape _ _ _ _ _ _
  rw [measureDimension]
  generalize Dataset.ofSeed d plan.nb plan.nq plan.seed = ds at hshape
  rw [Plan.dimensionFault?]
  split
  · rename_i hd
    rw [indexOf_zero ds (hshape.dimension.trans hd)]
    exact settles_attempt_error
  · rename_i hd
    have hlength := hshape.length_row
    rw [← hshape.dimension] at hlength
    obtain ⟨index, hindex, hdimension, hsize⟩ := indexOf_eq_ok plan
      (Nat.pos_of_ne_zero (hshape.dimension.trans_ne hd))
      fun row hrow => hlength row (List.mem_append_left _ hrow)
    rw [hindex]
    refine settles_attempt_bind (settles_mapM fun k _ =>
      settles_measure (fun query hquery => ?_) hshape.queries (hsize.trans hshape.database) d k)
    rw [hdimension, hlength query (List.mem_append_right _ hquery)]

/-! ### The whole benchmark -/

/-- What a plan fails with: with its first dimension if this is zero, then with a number of
neighbors that is searched for and zero, and then with a later dimension that is zero. -/
def Plan.fault? (plan : Plan) : Option SearchError :=
  if plan.dims.head? = some 0 then some (.invalidDimension 0)
  else if plan.dims ≠ [] ∧ 0 < plan.runs ∧ 0 ∈ plan.ks then some (.invalidK 0)
  else if 0 ∈ plan.dims then some (.invalidDimension 0)
  else none

/-- Every dimension with every number of neighbors, the first dimension first. -/
def Plan.cells (plan : Plan) : List (Nat × Nat) :=
  plan.dims.flatMap fun d => plan.ks.map fun k => (d, k)

theorem findSome?_zero (e : SearchError) (xs : List Nat) :
    xs.findSome? (fun x => if x = 0 then some e else none) = if 0 ∈ xs then some e else none := by
  induction xs with
  | nil => rfl
  | cons x xs ih =>
    rw [List.findSome?_cons, ih]
    by_cases hx : x = 0
    · simp [hx]
    · simp [hx, eq_comm]

theorem findSome?_searchFault? (plan : Plan) :
    plan.ks.findSome? plan.searchFault? =
      if 0 < plan.runs ∧ 0 ∈ plan.ks then some (.invalidK 0) else none := by
  by_cases hruns : 0 < plan.runs
  · have hfault : plan.searchFault? = fun k => if k = 0 then some (.invalidK 0) else none := by
      funext k
      rw [Plan.searchFault?]
      simp only [hruns, true_and]
    rw [hfault, findSome?_zero]
    simp only [hruns, true_and]
  · have hfault : plan.searchFault? = fun _ => none := by
      funext k
      rw [Plan.searchFault?, if_neg fun h => hruns h.1]
    rw [hfault, if_neg fun h => hruns h.1]
    exact List.findSome?_eq_none_iff.2 fun _ _ => rfl

/-- The benchmark gets to the faults of its plan in this order. -/
theorem fault?_eq (plan : Plan) : plan.fault? = plan.dims.findSome? plan.dimensionFault? := by
  have hfault : plan.dimensionFault? = fun d => if d = 0 then some (.invalidDimension 0)
      else if 0 < plan.runs ∧ 0 ∈ plan.ks then some (.invalidK 0) else none := by
    funext d
    rw [Plan.dimensionFault?, findSome?_searchFault?]
  rw [Plan.fault?, hfault]
  by_cases hk : 0 < plan.runs ∧ 0 ∈ plan.ks
  · -- the first dimension decides
    cases plan.dims with
    | nil => simp
    | cons d dims => by_cases hd : d = 0 <;> simp [hd, hk]
  · simp only [hk, and_false, if_false, findSome?_zero]
    cases plan.dims with
    | nil => rfl
    | cons d dims => by_cases hd : d = 0 <;> simp [hd]

theorem forall₂_flatten {R : α → β → Prop} {xss : List (List α)} {yss : List (List β)}
    (h : List.Forall₂ (List.Forall₂ R) xss yss) : List.Forall₂ R xss.flatten yss.flatten := by
  induction h with
  | nil => exact .nil
  | cons hline _ ih => exact List.rel_append hline ih

theorem settles_run (watch : Stopwatch (StateM σ)) (plan : Plan) :
    Settles (run watch plan) plan.fault? fun report => report.plan = plan ∧
      List.Forall₂ (fun cell m => Measured plan cell.1 cell.2 m) plan.cells
        report.measurements := by
  rw [fault?_eq]
  refine settles_bind_pure (settles_mapM fun d _ => settles_measureDimension plan d) ?_
  intro grid hgrid
  refine ⟨rfl, ?_⟩
  rw [Plan.cells, List.flatMap_def]
  apply forall₂_flatten
  rw [List.forall₂_map_left_iff]
  refine hgrid.imp fun d line hline => ?_
  rwa [List.forall₂_map_left_iff]

/-- **How a benchmark ends**, whatever its stopwatch shows: it fails with the fault of its plan if
there is one, and with nothing else, and otherwise it has measured every dimension with every number
of neighbors, in this order. -/
theorem run_outcome (watch : Stopwatch (StateM σ)) (plan : Plan) (s : σ) :
    match plan.fault? with
    | some e => ∃ t, Fails (run watch plan) s e t
    | none => ∃ report t, Gives (run watch plan) s report t ∧ report.plan = plan ∧
        List.Forall₂ (fun cell m => Measured plan cell.1 cell.2 m) plan.cells
          report.measurements := by
  have hsettles := settles_run watch plan s
  cases hfault : plan.fault? with
  | some e => rwa [hfault] at hsettles
  | none => rwa [hfault] at hsettles

end Dimensions

end NeighborSearch.Benchmark
