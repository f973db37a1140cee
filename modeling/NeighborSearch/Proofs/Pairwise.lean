import NeighborSearch.Proofs.Index.Search
import NeighborSearch.Proofs.Metric
import NeighborSearch.Proofs.Session.Batches

/-! All distances between two buffers.

The matrix has one entry for each pair of full rows, row by row: its blocks are the distances of one
row of the first buffer (`take_drop_distanceRows`), and so each entry has its place
(`getElem?_distanceRows`). What is left over behind the full rows of a buffer is never read
(`rowsOf_wholeRows`).

A block is what an index of the second buffer says of one row of the first (`pairwise_eq_scores`),
and the matrix of the buffers the other way round has the same entries at the places of the
transposed matrix (`kernels_symmetric`). -/
namespace NeighborSearch

variable {width i j : Nat} {xs ys values : Array Float32}

/-! ### Full rows -/

/-- A buffer without what is left over behind its full rows. -/
def wholeRows (width : Nat) (values : Array Float32) : Array Float32 :=
  values.extract 0 (values.size / width * width)

theorem size_wholeRows : (wholeRows width values).size = values.size / width * width := by
  rw [wholeRows, Array.size_extract, Nat.min_eq_left (Nat.div_mul_le_self ..), Nat.sub_zero]

theorem rowsOf_wholeRows (hw : 0 < width) (values : Array Float32) :
    rowsOf width (wholeRows width values) = rowsOf width values := by
  rw [rowsOf, size_wholeRows, Nat.mul_div_cancel _ hw, rowsOf]
  refine List.map_congr_left fun i hi => ?_
  have hle := Nat.mul_le_mul_right width (Nat.succ_le_of_lt (List.mem_range.1 hi))
  rw [Nat.succ_mul] at hle
  rw [rowAt, wholeRows, Array.extract_extract, Nat.zero_add, Nat.zero_add, Nat.min_eq_left hle,
    rowAt]

theorem length_rowsOf : (rowsOf width values).length = values.size / width := by
  rw [rowsOf, List.length_map, List.length_range]

/-! ### The matrix -/

/-- The rows of the matrix. -/
def distanceRows (width : Nat) (xs ys : Array Float32) : List Row :=
  (rowsOf width xs).map fun x => (rowsOf width ys).map (squaredDistance x)

theorem pairwise_eq_flatten (hw : 0 < width) (xs ys : Array Float32) :
    pairwiseSquaredDistances? xs ys width = some (distanceRows width xs ys).flatten := by
  rw [pairwiseSquaredDistances?, if_neg (Nat.ne_of_gt hw), List.flatMap_def, distanceRows]

theorem length_distanceRows : (distanceRows width xs ys).length = xs.size / width := by
  rw [distanceRows, List.length_map, length_rowsOf]

theorem length_of_mem_distanceRows {row : Row} (h : row ∈ distanceRows width xs ys) :
    row.length = ys.size / width := by
  obtain ⟨x, -, rfl⟩ := List.mem_map.1 h
  rw [List.length_map, length_rowsOf]

theorem take_drop_distanceRows (hi : i < xs.size / width) (ys : Array Float32) :
    ((distanceRows width xs ys).flatten.drop (i * (ys.size / width))).take (ys.size / width) =
      (rowsOf width ys).map (squaredDistance (rowAt width xs i)) := by
  rw [← rowAt_eq, rowAt_flatten (fun _ => length_of_mem_distanceRows)
    (hi.trans_eq length_distanceRows.symm)]
  simp only [distanceRows, rowsOf, List.getElem_map, List.getElem_range]

theorem getElem?_distanceRows (hi : i < xs.size / width) (hj : j < ys.size / width) :
    (distanceRows width xs ys).flatten[i * (ys.size / width) + j]? =
      some (squaredDistance (rowAt width xs i) (rowAt width ys j)) := by
  have hentry := congrArg (fun row : Row => row[j]?) (take_drop_distanceRows hi ys)
  rwa [List.getElem?_take_of_lt hj, List.getElem?_drop, List.getElem?_map, rowsOf,
    getElem?_map_range, if_pos hj] at hentry

/-- Both kernels give one value whichever row comes first, whatever the components are, and so the
matrix of the buffers the other way round is the transposed one. -/
theorem kernels_symmetric :
    (∀ a b : Row, squaredDistance a b = squaredDistance b a ∧
      innerProduct a b = innerProduct b a) ∧
    ∀ d, 1 ≤ d → ∀ xs ys : Array Float32, ∃ m m',
      pairwiseSquaredDistances? xs ys d = some m ∧ pairwiseSquaredDistances? ys xs d = some m' ∧
        ∀ i < xs.size / d, ∀ j < ys.size / d,
          m[i * (ys.size / d) + j]? = some (squaredDistance (rowAt d xs i) (rowAt d ys j)) ∧
            m'[j * (xs.size / d) + i]? = m[i * (ys.size / d) + j]? := by
  refine ⟨fun a b => ⟨squaredDistance_comm a b, innerProduct_comm a b⟩, fun d hd xs ys => ?_⟩
  refine ⟨_, _, pairwise_eq_flatten hd xs ys, pairwise_eq_flatten hd ys xs, fun i hi j hj => ?_⟩
  have hentry := getElem?_distanceRows hi hj
  refine ⟨hentry, ?_⟩
  rw [hentry, getElem?_distanceRows hj hi, squaredDistance_comm]

/-- A difference that overflows, one between subnormal values, and a value left over. -/
theorem kernels_symmetric_overflow : ∃ m m',
    pairwiseSquaredDistances? #[-0.0, 1e-40, 3e38, 0.5, 7] #[2, 1e-45, 1, 0, -3e38, 1] 2 = some m ∧
      pairwiseSquaredDistances? #[2, 1e-45, 1, 0, -3e38, 1] #[-0.0, 1e-40, 3e38, 0.5, 7] 2 =
        some m' ∧
      m[1 * 3 + 2]? = some (Float32.ofBits 0x7f800000) ∧
      m'[2 * 2 + 1]? = some (Float32.ofBits 0x7f800000) := by
  obtain ⟨m, m', hm, hm', hentries⟩ := kernels_symmetric.2 2 (by decide)
    #[-0.0, 1e-40, 3e38, 0.5, 7] #[2, 1e-45, 1, 0, -3e38, 1]
  obtain ⟨hentry, htransposed⟩ := hentries 1 (by decide) 2 (by decide)
  have hvalue : squaredDistance (rowAt 2 #[-0.0, 1e-40, 3e38, 0.5, 7] 1)
      (rowAt 2 #[2, 1e-45, 1, 0, -3e38, 1] 2) = Float32.ofBits 0x7f800000 := by
    decide +kernel
  rw [hvalue] at hentry
  exact ⟨m, m', hm, hm', hentry, htransposed.trans hentry⟩

/-! ### The index of one buffer -/

namespace Index

/-- The scores of all rows. -/
theorem scores_range {i : Index} {query : Row} (hq : query.length = i.dimension) :
    i.scores query (List.range i.size) =
      .ok (i.rows.map (i.metric.score (i.metric.prepare query))) := by
  rw [scores_eq_ok hq fun id hid => List.mem_range.1 hid]
  show Except.ok _ = .ok (((List.range i.size).map i.buffer.storedRow).map _)
  rw [List.map_map]
  rfl

/-- The full rows of a buffer come in as a list or as a buffer. -/
theorem exists_filled_of_buffer {d : Nat} {threads : Threads} (metric : Metric) (hd : 0 < d)
    (hthreads : threads.validate = .ok ()) (values : Array Float32) :
    ∃ empty filled, Index.create d metric threads = .ok empty ∧
      empty.add (rowsOf d values) = .ok filled ∧ empty.addFlat (wholeRows d values) = .ok filled ∧
      filled.metric = metric ∧ filled.dimension = d ∧
      filled.rows = (rowsOf d values).map metric.prepare := by
  obtain ⟨empty, hempty, rfl, rfl, hnone⟩ := Session.exists_empty metric hd hthreads
  obtain ⟨filled, hfilled⟩ := add_succeeds_iff.2 fun row => @length_of_mem_rowsOf _ values row
  have hextends := add_extends hfilled
  have hdvd : empty.dimension ∣ (wholeRows empty.dimension values).size := by
    rw [size_wholeRows]
    exact Nat.dvd_mul_left ..
  have hflat : empty.addFlat (wholeRows empty.dimension values) = .ok filled := by
    rw [addFlat_eq_add_cut, ← rowsOf_eq_cut hd hdvd, rowsOf_wholeRows hd, hfilled]
  refine ⟨empty, filled, hempty, hfilled, hflat, hextends.metric, hextends.dimension, ?_⟩
  rw [hextends.rows, hnone, List.nil_append]

end Index

/-- Each row of the matrix is what an index of the second buffer says of a row of the first,
whatever is left over behind the full rows. -/
theorem pairwise_eq_scores {d : Nat} (hd : 1 ≤ d) {threads : Threads}
    (hthreads : threads.validate = .ok ()) (xs ys : Array Float32) :
    ∃ matrix empty filled,
      pairwiseSquaredDistances? xs ys d = some matrix ∧
      pairwiseSquaredDistances? (wholeRows d xs) (wholeRows d ys) d = some matrix ∧
      matrix.length = (xs.size / d) * (ys.size / d) ∧
      Index.create d .l2 threads = .ok empty ∧
      empty.add (rowsOf d ys) = .ok filled ∧
      empty.addFlat (wholeRows d ys) = .ok filled ∧
      ∀ i < xs.size / d, filled.scores (rowAt d xs i) (List.range (ys.size / d)) =
        .ok ((matrix.drop (i * (ys.size / d))).take (ys.size / d)) := by
  obtain ⟨empty, filled, hempty, hadd, hflat, hmetric, hdimension, hrows⟩ :=
    Index.exists_filled_of_buffer .l2 hd hthreads ys
  refine ⟨_, empty, filled, pairwise_eq_flatten hd xs ys, ?_, ?_, hempty, hadd, hflat,
    fun i hi => ?_⟩
  · rw [pairwise_eq_flatten hd, distanceRows, rowsOf_wholeRows hd, rowsOf_wholeRows hd,
      distanceRows]
  · rw [length_flatten_rows fun _ => length_of_mem_distanceRows, length_distanceRows]
  · have hrow : rowAt d xs i ∈ rowsOf d xs := List.mem_map_of_mem (List.mem_range.2 hi)
    have hquery := (length_of_mem_rowsOf hrow).trans hdimension.symm
    have hsize : filled.size = ys.size / d := by
      rw [← Index.length_rows, hrows, List.length_map, length_rowsOf]
    have hscores := Index.scores_range hquery
    rw [hsize, hmetric, hrows, List.map_map] at hscores
    rw [take_drop_distanceRows hi]
    exact hscores

/-- Both buffers end within a row. -/
theorem pairwise_eq_scores_leftOver : ∃ empty filled,
    Index.create 2 .l2 .allCores = .ok empty ∧ empty.add [[1, 0], [0, 2], [3, 3]] = .ok filled ∧
      pairwiseSquaredDistances? #[0, 0, 1, 1, 7] #[1, 0, 0, 2, 3, 3, 9] 2 =
        some [1, 4, 18, 1, 2, 8] ∧
      filled.scores [1, 1] [0, 1, 2] = .ok [1, 2, 8] := by
  obtain ⟨matrix, empty, filled, hmatrix, -, -, hempty, hfilled, -, hscores⟩ :=
    @pairwise_eq_scores 2 (by decide) .allCores rfl #[0, 0, 1, 1, 7] #[1, 0, 0, 2, 3, 3, 9]
  have hvalue : pairwiseSquaredDistances? #[0, 0, 1, 1, 7] #[1, 0, 0, 2, 3, 3, 9] 2 =
      some [1, 4, 18, 1, 2, 8] := by
    decide +kernel
  have hrows : rowsOf 2 #[1, 0, 0, 2, 3, 3, 9] = [[1, 0], [0, 2], [3, 3]] := by decide +kernel
  have hrow : rowAt 2 #[0, 0, 1, 1, 7] 1 = [1, 1] := by decide +kernel
  have hsecond := hscores 1 (by decide)
  rw [hvalue] at hmatrix
  cases hmatrix
  rw [hrows] at hfilled
  rw [hrow] at hsecond
  exact ⟨empty, filled, hempty, hfilled, hvalue, hsecond⟩

end NeighborSearch
