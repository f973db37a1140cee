import NeighborSearch.Proofs.Index.Rows
import NeighborSearch.Session

/-! The index of a session only grows.

A step offers rows to the index, and if it succeeds they are accepted. Each step leaves the
index with the accepted rows behind its own (`step_extends`), prepared for the metric once,
when they come in; so does a run (`run_extends`). `run_appendOnly` says it of an index that
starts out empty: it is the list of all accepted rows, a step that fails leaves it as it is,
and what is stored under an id stays there whatever comes later. -/
namespace NeighborSearch

namespace Index

/-- The second index is the first one with these rows, prepared, behind its own. -/
structure Extends (before after : Index) (rows : List Row) : Prop where
  metric : after.metric = before.metric
  threads : after.threads = before.threads
  dimension : after.dimension = before.dimension
  rows : after.rows = before.rows ++ rows.map before.metric.prepare

namespace Extends

theorem refl (i : Index) : i.Extends i [] :=
  ⟨rfl, rfl, rfl, by rw [List.map_nil, List.append_nil]⟩

theorem trans {i j k : Index} {rows more : List Row} (hij : i.Extends j rows)
    (hjk : j.Extends k more) : i.Extends k (rows ++ more) := by
  refine ⟨hjk.metric.trans hij.metric, hjk.threads.trans hij.threads,
    hjk.dimension.trans hij.dimension, ?_⟩
  rw [hjk.rows, hij.rows, hij.metric, List.map_append, List.append_assoc]

/-- Rows keep their ids. -/
theorem row?_eq {i j : Index} {rows : List Row} (h : i.Extends j rows) {id : Nat}
    (hid : id < i.size) : j.row? id = i.row? id := by
  rw [j.row?_eq, i.row?_eq, h.rows, List.getElem?_append_left (by rwa [length_rows])]

end Extends

/-! ### Additions -/

variable {i j : Index}

theorem append_extends {values : Array Float32} (h : i.dimension ∣ values.size) :
    i.Extends (i.append values h) (rowsOf i.dimension values) :=
  ⟨rfl, rfl, rfl, i.rows_append h⟩

theorem add_extends {rows : List Row} (h : i.add rows = .ok j) : i.Extends j rows := by
  unfold add at h
  split at h
  · cases h
  · rename_i hrows
    cases h
    have hwidth := mismatch?_eq_none_iff.1 hrows
    have hdvd : i.dimension ∣ rows.flatten.toArray.size := by
      rw [List.size_toArray]
      exact dvd_length_flatten hwidth
    have happend := append_extends hdvd
    rwa [rowsOf_flatten i.dimension_pos hwidth] at happend

theorem addFlat_extends {values : Array Float32} (h : i.addFlat values = .ok j) :
    i.Extends j (cut i.dimension values.toList) := by
  unfold addFlat at h
  split at h
  · rename_i hmod
    cases h
    have hdvd := Nat.dvd_of_mod_eq_zero hmod
    rw [← rowsOf_eq_cut i.dimension_pos hdvd]
    exact append_extends hdvd
  · cases h

theorem add_eq_error {rows : List Row} {e : SearchError}
    (h : mismatch? i.dimension 0 rows = some e) : i.add rows = .error e := by
  unfold add
  split
  · rename_i e' he'
    rw [h, Option.some.injEq] at he'
    rw [he']
  · rename_i hnone
    rw [h] at hnone
    cases hnone

theorem add_succeeds_iff {rows : List Row} :
    (∃ j, i.add rows = .ok j) ↔ ∀ row ∈ rows, row.length = i.dimension := by
  unfold add
  split
  · rename_i e hrows
    constructor
    · rintro ⟨j, h⟩
      cases h
    · intro h
      rw [mismatch?_eq_none_iff.2 h] at hrows
      cases hrows
  · rename_i hrows
    exact ⟨fun _ => mismatch?_eq_none_iff.1 hrows, fun _ => ⟨_, rfl⟩⟩

theorem addFlat_succeeds_iff {values : Array Float32} :
    (∃ j, i.addFlat values = .ok j) ↔ i.dimension ∣ values.size := by
  rw [Nat.dvd_iff_mod_eq_zero]
  unfold addFlat
  split
  · rename_i hmod
    exact ⟨fun _ => hmod, fun _ => ⟨_, rfl⟩⟩
  · rename_i hmod
    constructor
    · rintro ⟨j, h⟩
      cases h
    · intro h
      exact absurd h hmod

end Index

namespace Session
open Index (Extends)

/-- The rows that a step offers to an index of this dimension. -/
def Step.offered (dimension : Nat) : Step → List Row
  | .add rows => rows
  | .addText rows =>
    match rows.mapM DenseVector.parse with
    | .ok vectors => vectors.map (·.components)
    | .error _ => []
  | .addFlat values => cut dimension values.toList
  | .addSynthetic source => source.dataset.database
  | _ => []

/-- The rows of a step that succeeds. -/
def accepted (s : Session) (next : Step) : List Row :=
  match (s.step next).1 with
  | .ok _ => next.offered s.index.dimension
  | .error _ => []

/-- The rows of the steps that succeed, in the order of the steps. -/
def acceptedRows (s : Session) : List Step → List Row
  | [] => []
  | next :: rest => s.accepted next ++ acceptedRows (s.step next).2 rest

/-! ### One step -/

variable {s : Session}

theorem accepted_eq_nil {next : Step} (h : next.offered s.index.dimension = []) :
    s.accepted next = [] := by
  rw [accepted]
  split
  · exact h
  · rfl

/-- A step that offers nothing and leaves the index as it is. -/
theorem extends_of_kept {next : Step} (hindex : (s.step next).2.index = s.index)
    (hoffered : next.offered s.index.dimension = []) :
    s.index.Extends (s.step next).2.index (s.accepted next) := by
  rw [hindex, accepted_eq_nil hoffered]
  exact .refl s.index

/-- A step that takes over the index that an addition gives. -/
theorem extends_of_added {next : Step} {outcome : Outcome Index}
    (hstep : s.step next = s.added outcome)
    (h : ∀ j, outcome = .ok j → s.index.Extends j (next.offered s.index.dimension)) :
    s.index.Extends (s.step next).2.index (s.accepted next) := by
  rw [accepted, hstep]
  cases outcome with
  | error e => exact .refl s.index
  | ok j => exact h j rfl

theorem addTexts_extends {i j : Index} {rows : List (List Char)} (h : addTexts i rows = .ok j) :
    i.Extends j (Step.offered i.dimension (.addText rows)) := by
  rw [Step.offered]
  unfold addTexts at h
  cases hparse : rows.mapM DenseVector.parse with
  | error e =>
    rw [hparse] at h
    cases h
  | ok vectors =>
    rw [hparse] at h
    exact Index.add_extends h

theorem step_extends (s : Session) (next : Step) :
    s.index.Extends (s.step next).2.index (s.accepted next) := by
  cases next with
  | add rows => exact extends_of_added rfl fun _ => Index.add_extends
  | addText rows => exact extends_of_added rfl fun _ => addTexts_extends
  | addFlat values => exact extends_of_added rfl fun _ => Index.addFlat_extends
  | addSynthetic source => exact extends_of_added rfl fun _ => Index.add_extends
  | _ => exact extends_of_kept rfl rfl

theorem added_of_error {outcome : Outcome Index} {e : SearchError}
    (h : (s.added outcome).1 = .error e) : (s.added outcome).2 = s := by
  cases outcome with
  | error e => rfl
  | ok j => cases h

/-- A step that fails leaves the index as it is. -/
theorem index_step_of_error {next : Step} {e : SearchError} (h : (s.step next).1 = .error e) :
    (s.step next).2.index = s.index := by
  cases next with
  | add rows => exact congrArg Session.index (added_of_error h)
  | addText rows => exact congrArg Session.index (added_of_error h)
  | addFlat values => exact congrArg Session.index (added_of_error h)
  | addSynthetic source => exact congrArg Session.index (added_of_error h)
  | _ => rfl

/-! ### Runs -/

theorem run_extends (s : Session) (steps : List Step) :
    s.index.Extends (s.run steps).2.index (s.acceptedRows steps) := by
  induction steps generalizing s with
  | nil => exact .refl s.index
  | cons next rest ih => exact (step_extends s next).trans (ih (s.step next).2)

theorem validate_automatic (n : Nat) : (Threads.automatic n).validate = .ok () := by
  rw [Threads.automatic]
  cases n <;> rfl

theorem create_eq_ok {dimension : Nat} {metric : Metric} {threads : Threads} {i : Index}
    (h : Index.create dimension metric threads = .ok i) :
    i.metric = metric ∧ i.dimension = dimension ∧ i.rows = [] := by
  unfold Index.create at h
  split at h
  · cases hv : threads.validate with
    | error e =>
      rw [hv] at h
      cases h
    | ok _ =>
      rw [hv] at h
      cases h
      refine ⟨rfl, rfl, List.length_eq_zero_iff.1 ?_⟩
      rw [Index.length_rows]
      exact Nat.zero_div dimension
  · cases h

theorem exists_empty {dimension : Nat} {threads : Threads} (metric : Metric)
    (hdimension : 0 < dimension) (hthreads : threads.validate = .ok ()) :
    ∃ empty, Index.create dimension metric threads = .ok empty ∧
      empty.metric = metric ∧ empty.dimension = dimension ∧ empty.rows = [] := by
  obtain ⟨empty, hempty⟩ : ∃ empty, Index.create dimension metric threads = .ok empty := by
    rw [Index.create, dif_pos hdimension, hthreads]
    exact ⟨_, rfl⟩
  exact ⟨empty, hempty, create_eq_ok hempty⟩

/-- An index of a dimension takes in rows of this length, whatever the number of threads. -/
theorem exists_filled {dimension : Nat} {rows : List Row} (metric : Metric) (threads : Nat)
    (hdimension : 0 < dimension) (hrows : ∀ row ∈ rows, row.length = dimension) :
    ∃ empty index, Index.create dimension metric (.automatic threads) = .ok empty ∧
      empty.add rows = .ok index ∧ index.dimension = dimension ∧ index.size = rows.length := by
  obtain ⟨empty, hempty, -, hwidth, hnone⟩ :=
    exists_empty metric hdimension (validate_automatic threads)
  obtain ⟨index, hindex⟩ := Index.add_succeeds_iff.2 (hwidth.symm ▸ hrows)
  have hextends := Index.add_extends hindex
  refine ⟨empty, index, hempty, hindex, hextends.dimension.trans hwidth, ?_⟩
  rw [← Index.length_rows, hextends.rows, hnone, List.nil_append, List.length_map]

/-- **The index is the list of the accepted rows**: after any steps it holds them in the order
in which they came, each one prepared once; a step that fails does not change it, and no later
step changes a row that is there. Rows of its dimension, and whole rows of a buffer, are always
accepted, and nothing else is. -/
theorem run_appendOnly {dimension : Nat} {metric : Metric} {threads : Threads} {empty : Index}
    (created : Index.create dimension metric threads = .ok empty) (steps : List Step) :
    let s := ((start empty).run steps).2
    let rows := (start empty).acceptedRows steps
    s.index.size = rows.length ∧
      (s.index.isEmpty = true ↔ s.index.size = 0) ∧
      (∀ (id : Nat) (h : id < rows.length),
        s.index.row? id = some (if metric = .cosine then unitRow rows[id] else rows[id])) ∧
      (∀ (next : Step) (e : SearchError), (s.step next).1 = .error e →
        (s.step next).2.index = s.index) ∧
      (∀ (later : List Step) (id : Nat), id < s.index.size →
        (s.run later).2.index.row? id = s.index.row? id) ∧
      (∀ more : List Row, (∃ j, s.index.add more = .ok j) ↔
        ∀ row ∈ more, row.length = dimension) ∧
      ∀ values : Array Float32, (∃ j, s.index.addFlat values = .ok j) ↔
        dimension ∣ values.size := by
  intro s rows
  obtain ⟨hmetric, hdimension, hnone⟩ := create_eq_ok created
  have hrun : empty.Extends s.index rows := run_extends (start empty) steps
  have hwidth : s.index.dimension = dimension := hrun.dimension.trans hdimension
  have hrows : s.index.rows = rows.map metric.prepare := by
    rw [hrun.rows, hnone, hmetric, List.nil_append]
  refine ⟨?_, s.index.isEmpty_iff, fun id h => ?_, fun _ _ => index_step_of_error,
    fun later _ => (run_extends s later).row?_eq, ?_, ?_⟩
  · rw [← Index.length_rows, hrows, List.length_map]
  · rw [Index.row?_eq, hrows, List.getElem?_map, List.getElem?_eq_getElem h, Option.map_some,
      Metric.prepare_eq]
  · rw [← hwidth]
    exact fun more => Index.add_succeeds_iff
  · rw [← hwidth]
    exact fun values => Index.addFlat_succeeds_iff

/-- An index for directions in the plane. -/
def emptyPlane : Index := ⟨.cosine, .allCores, .empty 2 (by decide)⟩

/-- The second of three additions fails, and the rows of the other two are made unit rows. -/
theorem run_appendOnly_three_additions :
    let s := ((start emptyPlane).run [.add [[3, 4]], .add [[1]], .addFlat #[0, 2, 1, 1]]).2
    s.index.size = 3 ∧ s.index.row? 0 = some (unitRow [3, 4]) ∧
      s.index.row? 1 = some (unitRow [0, 2]) ∧ s.index.row? 2 = some (unitRow [1, 1]) := by
  have created : Index.create 2 .cosine .allCores = .ok emptyPlane := rfl
  have haccepted : (start emptyPlane).acceptedRows
      [.add [[3, 4]], .add [[1]], .addFlat #[0, 2, 1, 1]] = [[3, 4], [0, 2], [1, 1]] := by
    decide +kernel
  obtain ⟨hsize, _, hrow, _⟩ := run_appendOnly created
    [.add [[3, 4]], .add [[1]], .addFlat #[0, 2, 1, 1]]
  simp only [haccepted] at hsize hrow
  exact ⟨hsize, hrow 0 (by decide), hrow 1 (by decide), hrow 2 (by decide)⟩

end Session

end NeighborSearch
