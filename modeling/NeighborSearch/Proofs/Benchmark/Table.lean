import NeighborSearch.Proofs.Benchmark.Matrix
import NeighborSearch.Proofs.Text.Lines

/-! The table of a benchmark.

A heading is printed wherever the dimension changes from one measurement to the next, whereas the
matrix gathers the measurements by the dimension that they have. If no dimension is listed twice,
and something is measured for each of them, both are the lines of the grid that the benchmark
filled (`measurementLines_flatten`, `meanMatrix_flatten`). Cells and lines hold neither tabs nor
line ends of their own, so the printed text is nothing but these lines and cells (`Layout`,
`table_layout`). -/
namespace NeighborSearch.Benchmark
open Text Command
open Binary (double ofDouble)
open Decimal (Shows shows_fixed digitString_toDigits)

/-! ### Lines under headings -/

namespace Report
variable {d : Nat} {current : Option Nat} {ks dims : List Nat} {line rest : List Measurement}
  {grid : List (List Measurement)}

/-- What is printed for a dimension: its heading, and a line for each measurement. -/
def block (d : Nat) (line : List Measurement) : List String :=
  heading d :: line.map measurementLine

/-- As long as the dimension stays, there is no heading. -/
theorem measurementLines_append (h : ∀ m ∈ line, m.d = d) :
    measurementLines (some d) (line ++ rest) =
      line.map measurementLine ++ measurementLines (some d) rest := by
  induction line with
  | nil => rfl
  | cons m line ih =>
    obtain ⟨rfl, hline⟩ := List.forall_mem_cons.1 h
    rw [List.cons_append, measurementLines, if_pos rfl, ih hline]
    rfl

/-- A change of the dimension gives one heading. -/
theorem measurementLines_block (h : ∀ m ∈ line, m.d = d) (hne : line ≠ [])
    (hcurrent : current ≠ some d) :
    measurementLines current (line ++ rest) = block d line ++ measurementLines (some d) rest := by
  cases line with
  | nil => exact absurd rfl hne
  | cons m line =>
    obtain ⟨rfl, hline⟩ := List.forall_mem_cons.1 h
    rw [List.cons_append, measurementLines, if_neg hcurrent, measurementLines_append hline]
    rfl

theorem measurementLines_flatten (h : Grid ks dims grid) (hdims : dims.Nodup) (hks : ks ≠ [])
    (hcurrent : ∀ d ∈ dims, current ≠ some d) :
    measurementLines current grid.flatten = (List.zipWith block dims grid).flatten := by
  induction h generalizing current with
  | nil => rfl
  | @cons d line dims grid hline _ ih =>
    obtain ⟨hd, hrest⟩ := List.nodup_cons.1 hdims
    obtain ⟨hfirst, -⟩ := List.forall_mem_cons.1 hcurrent
    have hsame : ∀ m ∈ line, m.d = d := fun m hm =>
      of_decide_eq_true (List.filter_eq_self.1 ((filter_line hline).trans (if_pos rfl)) m hm)
    have hne : line ≠ [] := by
      rintro rfl
      exact hks (List.forall₂_nil_right_iff.1 hline)
    have hothers : ∀ d' ∈ dims, some d ≠ some d' := fun d' hd' hsame =>
      hd (Option.some.inj hsame ▸ hd')
    rw [List.flatten_cons, measurementLines_block hsame hne hfirst, ih hrest hothers,
      List.zipWith_cons_cons, List.flatten_cons]

theorem meanMatrix_flatten {plan : Plan} (h : Grid ks plan.dims grid) (hdims : plan.dims.Nodup) :
    meanMatrix ⟨plan, grid.flatten⟩ = grid.map fun line => line.map (·.timing.meanMs) := by
  have hgathered : plan.dims.map (fun d => grid.flatten.filter fun m => m.d = d) = grid := by
    simp only [h.filter_flatten]
    exact h.map_linesOf hdims
  calc meanMatrix ⟨plan, grid.flatten⟩
      = (plan.dims.map fun d => grid.flatten.filter fun m => m.d = d).map
          (fun line => line.map (·.timing.meanMs)) := (List.map_map ..).symm
    _ = grid.map fun line => line.map (·.timing.meanMs) := by rw [hgathered]

end Report

/-! ### Lines and cells -/

/-- A line with the number of neighbors in three columns, the mean time and its deviation. -/
def ShowsMeasurement (m : Measurement) (text : String) : Prop :=
  ∃ mean deviation, Shows double 3 (ofDouble m.timing.meanMs) mean ∧
    Shows double 4 (ofDouble m.timing.stdMs) deviation ∧
    text = "search k=" ++ String.leftpad 3 ' ' (toString m.k) ++ " t=" ++ mean ++
      " ms (± " ++ deviation ++ ")"

/-- A heading, and below it a line for each measurement. -/
def ShowsBlock (d : Nat) (line : List Measurement) (texts : List String) : Prop :=
  ∃ below, List.Forall₂ ShowsMeasurement line below ∧ texts = s!"========== d= {d}" :: below

/-- A cell for each measurement, with its mean time, and nothing else between the tabs. -/
def ShowsMeans (line : List Measurement) (text : String) : Prop :=
  ∃ cells, List.Forall₂ (fun m cell => Shows double 4 (ofDouble m.timing.meanMs) cell) line cells ∧
    SetOff '\t' (cells.map String.toList) text.toList

theorem toList_spaces (n : Nat) : ("".pushn ' ' n).toList = List.replicate n ' ' := by
  induction n with
  | zero => rfl
  | succ n ih =>
    show (("".pushn ' ' n).push ' ').toList = _
    rw [String.toList_push, ih, List.replicate_succ']

theorem Report.rightAligned_eq (columns n : Nat) :
    rightAligned columns n = String.leftpad columns ' ' (toString n) := by
  rw [← String.toList_inj, rightAligned, digitString_toDigits, String.toList_append,
    toList_spaces, String.leftpad, String.toList_ofList]
  rfl

theorem showsMeasurement_measurementLine (m : Measurement) :
    ShowsMeasurement m (Report.measurementLine m) := by
  refine ⟨_, _, shows_fixed _ 3 _, shows_fixed _ 4 _, ?_⟩
  rw [← Report.rightAligned_eq]
  rfl

theorem showsBlock_block (d : Nat) (line : List Measurement) :
    ShowsBlock d line (Report.block d line) := by
  refine ⟨line.map Report.measurementLine, ?_, rfl⟩
  exact List.forall₂_map_right_iff.2
    (List.forall₂_same.2 fun m _ => showsMeasurement_measurementLine m)

theorem Report.setOff_matrixLine {line : List Measurement} (hne : line ≠ []) :
    SetOff '\t' ((line.map fun m => Decimal.fixedDouble 4 m.timing.meanMs).map String.toList)
      (Report.matrixLine (line.map (·.timing.meanMs))).toList := by
  have htext : (Report.matrixLine (line.map (·.timing.meanMs))).toList = ['\t'].intercalate
      ((line.map fun m => Decimal.fixedDouble 4 m.timing.meanMs).map String.toList) := by
    rw [Report.matrixLine, String.toList_intercalate, List.map_map, List.map_map, List.map_map]
    rfl
  rw [htext, List.map_map]
  refine setOff_intercalate (by simpa using hne) (List.forall_mem_map.2 fun m _ => ?_)
  exact (shows_fixed double 4 _).plain.not_mem (by decide)

theorem showsMeans_matrixLine {line : List Measurement} (hne : line ≠ []) :
    ShowsMeans line (Report.matrixLine (line.map (·.timing.meanMs))) :=
  ⟨_, List.forall₂_map_right_iff.2 (List.forall₂_same.2 fun _ _ => shows_fixed double 4 _),
    Report.setOff_matrixLine hne⟩

/-! What is shown stays on one line. -/

theorem ShowsMeasurement.plain {m : Measurement} {text : String} (h : ShowsMeasurement m text) :
    Plain text.toList := by
  obtain ⟨mean, deviation, hmean, hdeviation, rfl⟩ := h
  have hwords : Plain "search k=".toList ∧ Plain " t=".toList ∧ Plain " ms (± ".toList ∧
      Plain ")".toList := by
    decide
  simp only [String.toList_append, plain_append, plain_leftpad (Nat.le_refl _), hmean.plain,
    hdeviation.plain, hwords, and_self]

theorem Report.plain_of_mem_block {d : Nat} {line : List Measurement} {text : String}
    (h : text ∈ Report.block d line) : Plain text.toList := by
  rw [Report.block, List.mem_cons] at h
  rcases h with rfl | h
  · have hword : Plain "========== d= ".toList := by decide
    have hheading : Plain ("========== d= " ++ d.repr).toList := by
      rw [String.toList_append, plain_append]
      exact ⟨hword, plain_repr d⟩
    exact hheading
  · obtain ⟨m, -, rfl⟩ := List.mem_map.1 h
    exact (showsMeasurement_measurementLine m).plain

theorem Report.not_mem_matrixLine {line : List Measurement} (hne : line ≠ []) :
    '\n' ∉ (Report.matrixLine (line.map (·.timing.meanMs))).toList := by
  refine (Report.setOff_matrixLine hne).not_mem (by decide) ?_
  rw [List.map_map]
  exact List.forall_mem_map.2 fun _ _ => (shows_fixed double 4 _).plain.not_mem (by decide)

/-! ### The printed text -/

theorem Grid.length_of_mem {ks dims : List Nat} {grid : List (List Measurement)}
    (h : Grid ks dims grid) : ∀ line ∈ grid, line.length = ks.length := by
  intro line hline
  have hmem : line.length ∈ dims.map fun _ => ks.length :=
    h.map_length ▸ List.mem_map_of_mem hline
  obtain ⟨_, -, hsame⟩ := List.mem_map.1 hmem
  exact hsame.symm

/-- How the report of a benchmark is printed if its measurements fill this grid. -/
structure Layout (report : Report) (grid : List (List Measurement)) (output : String) : Prop where
  /-- There is a line for each dimension, with a measurement for each number of neighbors. -/
  fills : Grid report.plan.ks report.plan.dims grid
  length : grid.length = report.plan.dims.length
  length_line : ∀ line ∈ grid, line.length = report.plan.ks.length
  measurements : report.measurements = grid.flatten
  /-- The lines of the grid come under their headings first, and in the matrix then. -/
  printed : ∃ blocks matrix,
    List.Forall₂ (fun entry texts => ShowsBlock entry.1 entry.2 texts)
      (report.plan.dims.zip grid) blocks ∧
    List.Forall₂ ShowsMeans grid matrix ∧ Printed (blocks.flatten ++ "restab=" :: matrix) output

theorem layout_of_grid {plan : Plan} {grid : List (List Measurement)}
    (h : Grid plan.ks plan.dims grid) (hdims : plan.dims.Nodup) (hks : plan.ks ≠ []) :
    Layout ⟨plan, grid.flatten⟩ grid (joinLines (Report.tableLines ⟨plan, grid.flatten⟩)) := by
  have hne : ∀ line ∈ grid, line ≠ [] := by
    rintro line hline rfl
    exact hks (List.length_eq_zero_iff.1 (h.length_of_mem [] hline).symm)
  have hstart : ∀ d ∈ plan.dims, none ≠ some d := fun d _ => (Option.some_ne_none d).symm
  have hlines : Report.tableLines ⟨plan, grid.flatten⟩ =
      ((plan.dims.zip grid).map fun entry => Report.block entry.1 entry.2).flatten ++
        "restab=" :: grid.map fun line => Report.matrixLine (line.map (·.timing.meanMs)) := by
    rw [Report.tableLines, Report.meanMatrix_flatten h hdims, List.map_map,
      Report.measurementLines_flatten h hdims hks hstart, ← List.map_uncurry_zip_eq_zipWith]
    rfl
  refine ⟨h, h.length_eq.symm, h.length_of_mem, rfl,
    (plan.dims.zip grid).map fun entry => Report.block entry.1 entry.2,
    grid.map fun line => Report.matrixLine (line.map (·.timing.meanMs)), ?_, ?_, ?_⟩
  · exact List.forall₂_map_right_iff.2 (List.forall₂_same.2 fun _ _ => showsBlock_block _ _)
  · exact List.forall₂_map_right_iff.2
      (List.forall₂_same.2 fun line hline => showsMeans_matrixLine (hne line hline))
  · rw [hlines]
    refine printed_joinLines fun line hline => ?_
    rw [List.mem_append, List.mem_cons] at hline
    rcases hline with hline | rfl | hline
    · obtain ⟨lines, hlines, hline⟩ := List.mem_flatten.1 hline
      obtain ⟨_, -, rfl⟩ := List.mem_map.1 hlines
      exact (Report.plain_of_mem_block hline).not_mem (by decide)
    · decide
    · obtain ⟨measured, hmeasured, rfl⟩ := List.mem_map.1 hline
      exact Report.not_mem_matrixLine (hne measured hmeasured)

/-- **The table shows the grid of the benchmark twice**, if no dimension is listed twice and there
are numbers of neighbors to search for: line by line under the headings, and as the matrix of mean
times. It is all that the command prints. -/
theorem table_layout {σ : Type} {watch : Stopwatch (StateM σ)} {plan : Plan} {s t : σ}
    {report : Report} (h : Gives (run watch plan) s report t) (hdims : plan.dims.Nodup)
    (hks : plan.ks ≠ []) :
    report.plan = plan ∧ ∃ grid output, Layout report grid output ∧
      Id.run ((executeBench watch plan false).run s) = (⟨0, output, ""⟩, t) := by
  have hprinted : Id.run ((executeBench watch plan false).run s) =
      (.ofLines report.tableLines, t) := by
    have hrun : Id.run ((run watch plan).run.run s) = (.ok report, t) := h
    rw [executeBench, StateT.run_bind, Id.run_bind, hrun]
    rfl
  obtain ⟨grid, hturn, rfl⟩ := gives_run_iff.1 h
  exact ⟨rfl, grid, _, layout_of_grid hturn.grid hdims hks, hprinted⟩

/-- A watch under which each search takes twice as long as the one before. -/
def doubling : Stopwatch (StateM UInt64) :=
  ⟨fun search seconds => ((carryOut search, ⟨seconds, 0⟩), 2 * seconds)⟩

/-- Three searches for each of two dimensions and two numbers of neighbors. -/
def threeRuns : Plan := { emptyPlan [2, 3] with runs := 3 }

/-- Of one second, two and four the mean is not the median, and the deviation is not zero. -/
theorem table_layout_two_dimensions :
    ∃ report grid output, Gives (run doubling threeRuns) 1 report 4096 ∧
      Layout report grid output ∧
      Id.run ((executeBench doubling threeRuns false).run 1) = (⟨0, output, ""⟩, 4096) ∧
      output =
        "========== d= 2\n" ++
        "search k=  1 t=2333.333 ms (± 1247.2191)\n" ++
        "search k=  2 t=18666.667 ms (± 9977.7530)\n" ++
        "========== d= 3\n" ++
        "search k=  1 t=149333.333 ms (± 79822.0243)\n" ++
        "search k=  2 t=1194666.667 ms (± 638576.1940)\n" ++
        "restab=\n" ++
        "2333.3333\t18666.6667\n" ++
        "149333.3333\t1194666.6667\n" := by
  have hrun : Gives (run doubling threeRuns) 1 _ 4096 := rfl
  obtain ⟨-, grid, output, hlayout, hprinted⟩ := table_layout hrun (by decide) (by decide)
  refine ⟨_, grid, output, hrun, hlayout, hprinted, ?_⟩
  rw [show output = (Id.run ((executeBench doubling threeRuns false).run 1)).1.output by
    rw [hprinted]]
  decide +kernel

end NeighborSearch.Benchmark
