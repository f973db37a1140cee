import Mathlib.Data.List.Nodup
import NeighborSearch.Proofs.Benchmark.Sweep

/-! The matrix of mean times.

A benchmark makes its measurements line by line: for each dimension of the plan, in order, one
for each number of neighbors (`Grid`). The report keeps them one after the other, and the matrix
gathers the lines again by the dimension that a measurement has. So a line of the matrix holds the
lines of all places at which the plan lists that dimension (`filter_flatten`), and the matrix is
the grid only if the plan lists none of them twice (`meanMatrix_eq_grid_iff`). -/
namespace NeighborSearch.Benchmark

/-- The measurements for these dimensions, a line for each of them, with one measurement for each
number of neighbors. -/
def Grid (ks : List Nat) : List Nat → List (List Measurement) → Prop :=
  List.Forall₂ fun d line => List.Forall₂ (fun k m => m.d = d ∧ m.k = k) ks line

/-- What stands in the lines for a dimension. -/
def linesOf (d : Nat) (dims : List Nat) (grid : List (List Measurement)) : List Measurement :=
  ((dims.zip grid).filter fun line => line.1 = d).flatMap (·.2)

/-- A benchmark that goes through its dimensions fills a grid. -/
theorem InTurn.grid {σ : Type} {watch : Stopwatch (StateM σ)} {plan : Plan} {s t : σ}
    {dims : List Nat} {grid : List (List Measurement)}
    (h : InTurn (measureDimension watch plan) s dims grid t) : Grid plan.ks dims grid := by
  refine h.forall₂ fun hline => ?_
  obtain ⟨_, _, hmeasured⟩ := gives_measureDimension_iff.1 hline
  refine hmeasured.forall₂ fun hm => ?_
  obtain ⟨_, _, rfl⟩ := gives_measure_iff.1 hm
  exact ⟨rfl, rfl⟩

/-! ### Gathering lines -/

section Lines
variable {d d' : Nat} {ks dims : List Nat} {line : List Measurement}
  {grid : List (List Measurement)}

theorem linesOf_cons :
    linesOf d (d' :: dims) (line :: grid) =
      if d' = d then line ++ linesOf d dims grid else linesOf d dims grid := by
  rw [linesOf, linesOf, List.zip_cons_cons, List.filter_cons]
  by_cases hd : d' = d
  · rw [if_pos hd, if_pos (decide_eq_true hd), List.flatMap_cons]
  · rw [if_neg hd, if_neg (by simpa using hd)]

theorem linesOf_of_not_mem (h : d ∉ dims) : linesOf d dims grid = [] := by
  have hnone : ((dims.zip grid).filter fun line => line.1 = d) = [] := by
    rw [List.filter_eq_nil_iff]
    rintro ⟨d', line⟩ hline hd
    rw [← of_decide_eq_true hd] at h
    exact h (List.of_mem_zip hline).1
  rw [linesOf, hnone, List.flatMap_nil]

theorem filter_line (h : List.Forall₂ (fun k (m : Measurement) => m.d = d ∧ m.k = k) ks line) :
    (line.filter fun m => m.d = d') = if d = d' then line else [] := by
  induction h with
  | nil => rw [ite_self, List.filter_nil]
  | cons hm _ ih =>
    rw [List.filter_cons, ih, hm.1]
    by_cases hd : d = d' <;> simp [hd]

namespace Grid

theorem filter_flatten (h : Grid ks dims grid) (d : Nat) :
    (grid.flatten.filter fun m => m.d = d) = linesOf d dims grid := by
  induction h with
  | nil => rfl
  | cons hline _ ih =>
    rw [List.flatten_cons, List.filter_append, filter_line hline, ih, linesOf_cons]
    split
    · rfl
    · exact List.nil_append _

theorem length_linesOf (h : Grid ks dims grid) (d : Nat) :
    (linesOf d dims grid).length = dims.count d * ks.length := by
  induction h with
  | nil =>
    rw [List.count_nil, Nat.zero_mul]
    rfl
  | @cons d' line dims grid hline _ ih =>
    rw [linesOf_cons]
    by_cases hd : d' = d
    · subst hd
      rw [if_pos rfl, List.length_append, ih, ← hline.length_eq, List.count_cons_self,
        Nat.add_one_mul, Nat.add_comm]
    · rw [if_neg hd, ih, List.count_cons_of_ne hd]

/-- Lines for different dimensions are gathered as they are. -/
theorem map_linesOf (h : Grid ks dims grid) (hdims : dims.Nodup) :
    dims.map (fun d => linesOf d dims grid) = grid := by
  induction h with
  | nil => rfl
  | @cons d line dims grid _ _ ih =>
    obtain ⟨hd, hrest⟩ := List.nodup_cons.1 hdims
    have hothers : dims.map (fun d' => linesOf d' (d :: dims) (line :: grid)) =
        dims.map fun d' => linesOf d' dims grid := by
      refine List.map_congr_left fun d' hd' => ?_
      have hne : d ≠ d' := fun hsame => hd (hsame.symm ▸ hd')
      rw [linesOf_cons, if_neg hne]
    rw [List.map_cons, hothers, ih hrest, linesOf_cons, if_pos rfl, linesOf_of_not_mem hd,
      List.append_nil]

theorem map_length (h : Grid ks dims grid) :
    grid.map List.length = dims.map fun _ => ks.length := by
  induction h with
  | nil => rfl
  | cons hline _ ih => rw [List.map_cons, List.map_cons, ih, hline.length_eq]

/-- Where nothing is measured, nothing is gathered. -/
theorem map_linesOf_of_nil (h : Grid [] dims grid) :
    dims.map (fun d => linesOf d dims grid) = grid := by
  have hlines : ∀ d ∈ dims, linesOf d dims grid = [] := fun d _ => by
    rw [← List.length_eq_zero_iff, h.length_linesOf, List.length_nil, Nat.mul_zero]
  rw [List.map_congr_left hlines]
  clear hlines
  induction h with
  | nil => rfl
  | cons hline _ ih => rw [List.map_cons, ih, List.forall₂_nil_left_iff.1 hline]

end Grid

/-- No dimension is listed twice if each has as many measurements as there are numbers of
neighbors. -/
theorem nodup_of_lengths (hks : ks ≠ [])
    (h : dims.map (fun d => dims.count d * ks.length) = dims.map fun _ => ks.length) :
    dims.Nodup := by
  refine List.nodup_iff_count_eq_one.2 fun d hd => ?_
  have hlength : dims.count d * ks.length = 1 * ks.length := by
    rw [List.map_inj_left.1 h d hd, Nat.one_mul]
  exact Nat.eq_of_mul_eq_mul_right (List.length_pos_iff.2 hks) hlength

end Lines

/-! ### The matrix -/

/-- **The matrix of mean times is the grid of the benchmark only if no dimension is listed twice**
(or nothing is measured at all). In general each line of it holds what was measured at all places
at which its dimension is listed, one place after the other. -/
theorem meanMatrix_eq_grid_iff {σ : Type} {watch : Stopwatch (StateM σ)} {plan : Plan} {s t : σ}
    {report : Report} (h : Gives (run watch plan) s report t) :
    ∃ grid, InTurn (measureDimension watch plan) s plan.dims grid t ∧
      Grid plan.ks plan.dims grid ∧ report = ⟨plan, grid.flatten⟩ ∧
      report.meanMatrix =
        plan.dims.map (fun d => (linesOf d plan.dims grid).map (·.timing.meanMs)) ∧
      report.meanMatrix.map List.length =
        plan.dims.map (fun d => plan.dims.count d * plan.ks.length) ∧
      (report.meanMatrix = grid.map (fun line => line.map (·.timing.meanMs)) ↔
        plan.dims.Nodup ∨ plan.ks = []) := by
  obtain ⟨grid, hturn, rfl⟩ := gives_run_iff.1 h
  have hgrid := hturn.grid
  have hmatrix : Report.meanMatrix ⟨plan, grid.flatten⟩ =
      plan.dims.map fun d => (linesOf d plan.dims grid).map (·.timing.meanMs) :=
    List.map_congr_left fun d _ => by rw [hgrid.filter_flatten]
  have hlengths : (Report.meanMatrix ⟨plan, grid.flatten⟩).map List.length =
      plan.dims.map fun d => plan.dims.count d * plan.ks.length := by
    rw [hmatrix, List.map_map]
    exact List.map_congr_left fun d _ => by
      rw [Function.comp_apply, List.length_map, hgrid.length_linesOf]
  refine ⟨grid, hturn, hgrid, rfl, hmatrix, hlengths, fun hsame => ?_, fun hplan => ?_⟩
  · by_cases hks : plan.ks = []
    · exact .inr hks
    · refine .inl (nodup_of_lengths hks ?_)
      rw [← hlengths, hsame, List.map_map, ← hgrid.map_length]
      exact List.map_congr_left fun line _ => List.length_map _
  · have hgathered : plan.dims.map (fun d => linesOf d plan.dims grid) = grid := by
      rcases hplan with hdims | hks
      · exact hgrid.map_linesOf hdims
      · rw [hks] at hgrid
        exact hgrid.map_linesOf_of_nil
    calc Report.meanMatrix ⟨plan, grid.flatten⟩
        = (plan.dims.map fun d => linesOf d plan.dims grid).map
            (fun line => line.map (·.timing.meanMs)) := by rw [hmatrix, List.map_map]; rfl
      _ = grid.map (fun line => line.map (·.timing.meanMs)) := by rw [hgathered]

/-- A watch that shows a second more each time. -/
def counting : Stopwatch (StateM UInt64) :=
  ⟨fun search now => ((carryOut search, ⟨now, 0⟩), now + 1)⟩

/-- A plan for empty indexes of these dimensions. -/
def emptyPlan (dims : List Nat) : Plan :=
  { (default : Plan) with dims := dims, nb := 0, nq := 0, ks := [1, 2], runs := 1 }

/-- Two dimensions with two numbers of neighbors. -/
theorem meanMatrix_eq_grid_iff_distinct :
    ∃ report grid, Gives (run counting (emptyPlan [2, 3])) 0 report 4 ∧
      Grid [1, 2] [2, 3] grid ∧
      report.meanMatrix = grid.map (fun line => line.map (·.timing.meanMs)) ∧
      report.meanMatrix = [[0, 1000], [2000, 3000]] := by
  obtain ⟨report, hrun, hmatrix⟩ :
      ∃ report, Gives (run counting (emptyPlan [2, 3])) 0 report 4 ∧
        report.meanMatrix = [[0, 1000], [2000, 3000]] := ⟨_, rfl, rfl⟩
  obtain ⟨grid, _, hgrid, _, _, _, hsame⟩ := meanMatrix_eq_grid_iff hrun
  exact ⟨report, grid, hrun, hgrid, hsame.2 (.inl (by decide)), hmatrix⟩

/-- **A dimension that is listed twice has all of its measurements in both of its lines**, which
are longer than there are numbers of neighbors. -/
theorem meanMatrix_of_dimension_twice :
    ∃ report, Gives (run counting (emptyPlan [2, 2])) 0 report 4 ∧
      report.meanMatrix = [[0, 1000, 2000, 3000], [0, 1000, 2000, 3000]] ∧
      ¬ ∀ line ∈ report.meanMatrix, line.length = (emptyPlan [2, 2]).ks.length :=
  ⟨_, rfl, rfl, fun h => absurd (h [0, 1000, 2000, 3000] (.head _)) (by decide)⟩

end NeighborSearch.Benchmark
