import NeighborSearch.Index.Basic
import NeighborSearch.Proofs.FirstFault

/-! The rows of an index as a list.

Cutting values into pieces of one width loses nothing (`flatten_cut`), and reading a buffer
of whole rows is cutting it (`rowsOf_eq_cut`), so that appending whole rows to a buffer
appends them to the list (`rowsOf_append`). For an index, `rows` is the list that all else is
told by: its length is the size, its entries are the rows by id, and an addition puts its
rows, prepared for the metric, behind those that are there (`rows_append`). -/
namespace NeighborSearch

/-- Consecutive pieces of this width, the last one shorter if there is a remainder. -/
def cut (width : Nat) (values : Row) : List Row :=
  if _ : 0 < width ∧ values ≠ [] then values.take width :: cut width (values.drop width) else []
termination_by values.length
decreasing_by
  rename_i h
  have hpos := List.length_pos_iff.2 h.2
  rw [List.length_drop]
  omega

/-! ### Pieces -/

variable {width : Nat}

/-- Nothing is lost by cutting. -/
theorem flatten_cut (hw : 0 < width) (values : Row) : (cut width values).flatten = values := by
  fun_induction cut width values with
  | case1 values h ih => rw [List.flatten_cons, ih, List.take_append_drop]
  | case2 values h =>
    have hnil : values = [] := Classical.byContradiction fun hne => h ⟨hw, hne⟩
    rw [hnil, List.flatten_nil]

/-- Without a remainder all pieces are whole rows. -/
theorem length_of_mem_cut {values row : Row} (h : width ∣ values.length)
    (hrow : row ∈ cut width values) : row.length = width := by
  fun_induction cut width values with
  | case1 values hne ih =>
    rcases List.mem_cons.1 hrow with rfl | hrow
    · rw [List.length_take]
      exact Nat.min_eq_left (Nat.le_of_dvd (List.length_pos_iff.2 hne.2) h)
    · refine ih ?_ hrow
      rw [List.length_drop]
      exact Nat.dvd_sub h (Nat.dvd_refl width)
  | case2 => exact absurd hrow List.not_mem_nil

theorem length_flatten_rows {rows : List Row} (h : ∀ row ∈ rows, row.length = width) :
    rows.flatten.length = rows.length * width := by
  rw [List.length_flatten, List.map_congr_left h, List.map_const', List.sum_replicate_nat]

/-! ### Reading a buffer row by row -/

theorem getElem?_map_range {α : Type} (f : Nat → α) (n id : Nat) :
    ((List.range n).map f)[id]? = if id < n then some (f id) else none := by
  rw [List.getElem?_map]
  by_cases h : id < n
  · rw [if_pos h, List.getElem?_range h]
    rfl
  · rw [if_neg h, List.getElem?_eq_none (by rw [List.length_range]; omega)]
    rfl

theorem rowAt_eq (values : Row) (i : Nat) :
    rowAt width values.toArray i = (values.drop (i * width)).take width := by
  rw [rowAt, Array.toList_extract, List.extract_eq_take_drop, Nat.add_sub_cancel_left]

theorem rowAt_flatten {rows : List Row} (h : ∀ row ∈ rows, row.length = width) {i : Nat}
    (hi : i < rows.length) : rowAt width rows.flatten.toArray i = rows[i] := by
  induction rows generalizing i with
  | nil => exact absurd hi (Nat.not_lt_zero i)
  | cons row rest ih =>
    have hrow := h row (List.mem_cons_self ..)
    rw [rowAt_eq, List.flatten_cons]
    cases i with
    | zero => rw [Nat.zero_mul, List.drop_zero, List.take_left' hrow, List.getElem_cons_zero]
    | succ i =>
      have hskip : (i + 1) * width = row.length + i * width := by
        rw [hrow, Nat.succ_mul, Nat.add_comm]
      rw [hskip, List.drop_length_add_append, ← rowAt_eq, List.getElem_cons_succ]
      exact ih (fun r hr => h r (List.mem_cons_of_mem _ hr)) _

theorem rowsOf_flatten {rows : List Row} (hw : 0 < width)
    (h : ∀ row ∈ rows, row.length = width) :
    rowsOf width rows.flatten.toArray = rows := by
  have hlen : rows.flatten.toArray.size / width = rows.length := by
    rw [List.size_toArray, length_flatten_rows h, Nat.mul_div_cancel _ hw]
  rw [rowsOf, hlen]
  apply List.ext_getElem
  · rw [List.length_map, List.length_range]
  · intro i hi hi'
    rw [List.getElem_map, List.getElem_range, rowAt_flatten h hi']

theorem rowsOf_eq_cut {values : Array Float32} (hw : 0 < width) (h : width ∣ values.size) :
    rowsOf width values = cut width values.toList := by
  have hrows := rowsOf_flatten hw fun _ => @length_of_mem_cut width values.toList _ h
  rwa [flatten_cut hw, Array.toArray_toList] at hrows

theorem rowsOf_append {a b : Array Float32} (hw : 0 < width) (ha : width ∣ a.size)
    (hb : width ∣ b.size) : rowsOf width (a ++ b) = rowsOf width a ++ rowsOf width b := by
  rw [rowsOf_eq_cut hw ha, rowsOf_eq_cut hw hb]
  have hab : a ++ b = (cut width a.toList ++ cut width b.toList).flatten.toArray := by
    rw [List.flatten_append, flatten_cut hw, flatten_cut hw, ← Array.toList_append,
      Array.toArray_toList]
  rw [hab]
  refine rowsOf_flatten hw fun row hrow => ?_
  rcases List.mem_append.1 hrow with hrow | hrow
  · exact length_of_mem_cut ha hrow
  · exact length_of_mem_cut hb hrow

/-- A row is in range if the buffer does not end before it does. -/
theorem RowBuffer.stop_le_iff {b : RowBuffer} {id : Nat} :
    id * b.width + b.width ≤ b.values.size ↔ id < b.size := by
  rw [size, ← Nat.succ_le_iff, Nat.le_div_iff_mul_le b.width_pos, Nat.succ_mul]

namespace Metric

theorem prepare_eq (m : Metric) (row : Row) :
    m.prepare row = if m = .cosine then unitRow row else row := by
  cases m <;> rfl

end Metric

namespace Index

/-- A buffer is stored row by row as the metric prepares rows. -/
theorem rowsOf_stored {metric : Metric} {values : Array Float32} (hw : 0 < width) :
    rowsOf width (stored metric width values) = (rowsOf width values).map metric.prepare := by
  rw [stored]
  by_cases hm : metric.normalizes = true
  · have hprepare : metric.prepare = unitRow := by
      funext row
      rw [Metric.prepare, if_pos hm]
    rw [if_pos hm, hprepare, rowsOf_flatten hw]
    intro row hrow
    obtain ⟨r, hr, rfl⟩ := List.mem_map.1 hrow
    rw [length_unitRow, length_of_mem_rowsOf hr]
  · have hprepare : metric.prepare = id := by
      funext row
      rw [Metric.prepare, if_neg hm]
      rfl
    rw [if_neg hm, hprepare, List.map_id]

/-! ### Rows of the wrong length -/

theorem mismatch?_map {f : Row → Row} (hf : ∀ row, (f row).length = row.length)
    (width start : Nat) (rows : List Row) :
    mismatch? width start (rows.map f) = mismatch? width start rows := by
  induction rows generalizing start with
  | nil => rfl
  | cons row rest ih => rw [List.map_cons, mismatch?, mismatch?, hf, ih]

/-- The error names the first row of the wrong length. -/
theorem mismatch?_eq_some_iff {width start : Nat} {rows : List Row} {e : SearchError} :
    mismatch? width start rows = some e ↔
      ∃ place row, IsFirst (fun row : Row => row.length ≠ width) rows place row ∧
        e = .dimensionMismatch (start + place) width row.length := by
  constructor
  · intro h
    induction rows generalizing start with
    | nil => cases h
    | cons row rest ih =>
      rw [mismatch?] at h
      split at h
      · rename_i hrow
        obtain ⟨place, bad, hbad, rfl⟩ := ih h
        refine ⟨place + 1, bad, .behind (not_not.2 hrow) hbad, ?_⟩
        rw [Nat.add_right_comm, Nat.add_assoc]
      · rename_i hrow
        exact ⟨0, row, .here hrow, (Option.some.inj h).symm⟩
  · rintro ⟨place, row, h, rfl⟩
    induction h generalizing start with
    | here hrow => exact if_neg hrow
    | behind hrow _ ih =>
      rw [mismatch?, if_pos (not_not.1 hrow), ih, Nat.add_right_comm, Nat.add_assoc]

theorem mismatch?_append_cons {front : List Row} (hfront : ∀ row ∈ front, row.length = width)
    {row : Row} (hrow : row.length ≠ width) (back : List Row) (start : Nat) :
    mismatch? width start (front ++ row :: back) =
      some (.dimensionMismatch (start + front.length) width row.length) :=
  mismatch?_eq_some_iff.2
    ⟨_, row, .append_cons (fun row hmem => not_not.2 (hfront row hmem)) hrow back, rfl⟩

/-! ### An index as the list of its rows -/

variable (i : Index)

theorem dimension_pos : 0 < i.dimension := i.buffer.width_pos

@[simp] theorem length_rows : i.rows.length = i.size := by
  show (rowsOf _ _).length = _
  rw [rowsOf, List.length_map, List.length_range]
  rfl

theorem getElem?_rows (id : Nat) :
    i.rows[id]? = if id < i.size then some (i.buffer.storedRow id) else none :=
  getElem?_map_range i.buffer.storedRow i.size id

theorem row?_eq (id : Nat) : i.row? id = i.rows[id]? := by
  rw [getElem?_rows, row?, RowBuffer.row?]
  simp only [RowBuffer.stop_le_iff]
  rfl

theorem isEmpty_iff : i.isEmpty = true ↔ i.size = 0 := by
  show i.buffer.values.isEmpty = true ↔ i.buffer.values.size / i.buffer.width = 0
  rw [Array.isEmpty_iff_size_eq_zero]
  obtain ⟨n, hn⟩ := i.buffer.width_dvd_size
  have hw := i.buffer.width_pos
  rw [hn, Nat.mul_div_cancel_left _ hw, Nat.mul_eq_zero]
  omega

/-- An index is told by its rows. -/
theorem eq_of_rows_eq {i j : Index} (hmetric : i.metric = j.metric)
    (hthreads : i.threads = j.threads) (hdimension : i.dimension = j.dimension)
    (hrows : i.rows = j.rows) : i = j := by
  have hvalues : ∀ b : RowBuffer, b.values = b.rows.flatten.toArray := by
    intro b
    rw [RowBuffer.rows, rowsOf_eq_cut b.width_pos b.width_dvd_size, flatten_cut b.width_pos]
  obtain ⟨_, _, buffer⟩ := i
  obtain ⟨_, _, buffer'⟩ := j
  have hbuffer : buffer = buffer' := by
    have hvalues' : buffer.values = buffer'.values := by
      rw [hvalues buffer, hvalues buffer']
      exact congrArg (fun rows : List Row => rows.flatten.toArray) hrows
    cases buffer
    cases buffer'
    cases hdimension
    cases hvalues'
    rfl
  cases hmetric
  cases hthreads
  cases hbuffer
  rfl

/-- What is appended stands, prepared, behind the rows that are there. -/
theorem rows_append {values : Array Float32} (h : i.dimension ∣ values.size) :
    (i.append values h).rows = i.rows ++ (rowsOf i.dimension values).map i.metric.prepare := by
  show rowsOf i.dimension (i.buffer.values ++ stored i.metric i.dimension values) = _
  rw [rowsOf_append i.dimension_pos i.buffer.width_dvd_size (dvd_size_stored h),
    rowsOf_stored i.dimension_pos]
  rfl

end Index

end NeighborSearch
