import NeighborSearch.Proofs.Session.AppendOnly
import NeighborSearch.Proofs.Session.Refusals
import NeighborSearch.RowBuffer.Words

/-! Offsets in words reach the rows.

The checked product and the checked sum are words exactly if the numbers are
(`mulWords?_eq_some_iff`), and a buffer that fits in words ends at one, so that an offset that is no
word is out of range. That is why reading by words is reading by numbers, for every word
(`wordRow?_eq_row?`), and why no offset of a row in range wraps around (`reaches_of_lt`).
`ids_never_wrap` says it of all that can be asked of a session's index. -/
namespace NeighborSearch

namespace RowBuffer

/-! ### Words -/

variable {a b c : UInt64}

theorem mulWords?_eq_some_iff : mulWords? a b = some c ↔ c.toNat = a.toNat * b.toNat := by
  have hword : c.toNat < UInt64.size := c.toNat_lt_size
  rw [mulWords?]
  split
  · rename_i hlt
    rw [Option.some.injEq, ← UInt64.toNat_inj, UInt64.toNat_mul, Nat.mod_eq_of_lt hlt, eq_comm]
  · constructor
    · rintro ⟨⟩
    · omega

theorem addWords?_eq_some_iff : addWords? a b = some c ↔ c.toNat = a.toNat + b.toNat := by
  have hword : c.toNat < UInt64.size := c.toNat_lt_size
  rw [addWords?]
  split
  · rename_i hlt
    rw [Option.some.injEq, ← UInt64.toNat_inj, UInt64.toNat_add, Nat.mod_eq_of_lt hlt, eq_comm]
  · constructor
    · rintro ⟨⟩
    · omega

theorem mulWords?_ofNat {m n : Nat} (hm : m < UInt64.size) (hn : n < UInt64.size)
    (h : m * n < UInt64.size) : mulWords? (.ofNat m) (.ofNat n) = some (.ofNat (m * n)) := by
  rw [mulWords?_eq_some_iff, UInt64.toNat_ofNat_of_lt' hm, UInt64.toNat_ofNat_of_lt' hn,
    UInt64.toNat_ofNat_of_lt' h]

theorem addWords?_ofNat {m n : Nat} (h : m + n < UInt64.size) :
    addWords? (.ofNat m) (.ofNat n) = some (.ofNat (m + n)) := by
  rw [addWords?_eq_some_iff, UInt64.toNat_ofNat_of_lt' ((Nat.le_add_right m n).trans_lt h),
    UInt64.toNat_ofNat_of_lt' ((Nat.le_add_left n m).trans_lt h), UInt64.toNat_ofNat_of_lt' h]

/-! ### Offsets -/

/-- The width and the length of the buffer are words. -/
structure Fits (b : RowBuffer) : Prop where
  width : b.width < UInt64.size
  values : b.values.size < UInt64.size

/-- The row with this id stands between these offsets. -/
structure Delimits (b : RowBuffer) (id : Nat) (start stop : UInt64) : Prop where
  start : start.toNat = id * b.width
  stop : stop.toNat = id * b.width + b.width

variable {b : RowBuffer} {start stop : UInt64}

theorem Delimits.slice_eq {id : Nat} (h : b.Delimits id start stop) :
    b.slice start stop = b.storedRow id := by
  rw [slice, storedRow, rowAt, h.start, h.stop]

/-- What is read lies between offsets that are calculated without wrapping around. -/
theorem wordRow?_eq_some_iff (hwidth : b.width < UInt64.size) {id : UInt64} {row : Row} :
    b.wordRow? id = some row ↔ ∃ start stop, b.Delimits id.toNat start stop ∧
      stop.toNat ≤ b.values.size ∧ b.slice start stop = row := by
  have hword : (UInt64.ofNat b.width).toNat = b.width := UInt64.toNat_ofNat_of_lt' hwidth
  simp only [wordRow?, Option.bind_eq_bind, Option.bind_eq_some_iff, mulWords?_eq_some_iff,
    addWords?_eq_some_iff, Option.ite_none_right_eq_some, Option.some.injEq, hword]
  constructor
  · rintro ⟨start, hstart, stop, hstop, hread⟩
    exact ⟨start, stop, ⟨hstart, hstart ▸ hstop⟩, hread⟩
  · rintro ⟨start, stop, h, hread⟩
    exact ⟨start, h.start, stop, h.start ▸ h.stop, hread⟩

/-- An offset that is no word lies behind the end of a buffer that fits. -/
theorem wordRow?_eq_row? (h : b.Fits) (id : UInt64) : b.wordRow? id = b.row? id.toNat := by
  refine Option.ext fun row => ?_
  rw [wordRow?_eq_some_iff h.width, row?]
  split
  · rename_i hstop
    have hvalues := h.values
    have hdelimits : b.Delimits id.toNat (.ofNat (id.toNat * b.width))
        (.ofNat (id.toNat * b.width + b.width)) :=
      ⟨UInt64.toNat_ofNat_of_lt' (by omega), UInt64.toNat_ofNat_of_lt' (by omega)⟩
    constructor
    · rintro ⟨start, stop, hrow, -, rfl⟩
      rw [hrow.slice_eq]
    · rintro ⟨⟩
      exact ⟨_, _, hdelimits, hdelimits.stop.trans_le hstop, hdelimits.slice_eq⟩
  · rename_i hstop
    constructor
    · rintro ⟨start, stop, hrow, hle, -⟩
      exact absurd (hrow.stop.symm.trans_le hle) hstop
    · rintro ⟨⟩

/-- For a row in range the offsets are words. -/
theorem delimits_of_lt (h : b.Fits) {id : UInt64} (hid : id.toNat < b.size) :
    let width := UInt64.ofNat b.width
    b.Delimits id.toNat (id * width) (id * width + width) := by
  have hword : (UInt64.ofNat b.width).toNat = b.width := UInt64.toNat_ofNat_of_lt' h.width
  have hstop := (stop_le_iff.2 hid).trans_lt h.values
  have hstart : (id * UInt64.ofNat b.width).toNat = id.toNat * b.width := by
    rw [UInt64.toNat_mul, hword]
    exact Nat.mod_eq_of_lt ((Nat.le_add_right _ _).trans_lt hstop)
  refine ⟨hstart, ?_⟩
  rw [UInt64.toNat_add, hstart, hword]
  exact Nat.mod_eq_of_lt hstop

/-- A row in range is reached without overflow, within the buffer. -/
theorem reaches_of_lt (h : b.Fits) {id : UInt64} (hid : id.toNat < b.size) :
    id.toNat * b.width < UInt64.size ∧
      id.toNat * b.width + b.width < UInt64.size ∧
      (id * UInt64.ofNat b.width + UInt64.ofNat b.width).toNat ≤ b.values.size ∧
      b.row? id.toNat = some (b.wordStoredRow id) := by
  have hrow := delimits_of_lt h hid
  have hstop := stop_le_iff.2 hid
  have hlt := hstop.trans_lt h.values
  refine ⟨(Nat.le_add_right _ _).trans_lt hlt, hlt, hrow.stop.trans_le hstop, ?_⟩
  rw [row?, if_pos hstop, wordStoredRow, hrow.slice_eq]

end RowBuffer

namespace Index
variable {i : Index} {query : Row}

/-- Chosen rows are scored or searched only if the query has their length and all of them are
there. -/
theorem sound_of_accepted {ids : List Nat} (h : (∃ distances, i.scores query ids = .ok distances) ∨
    ∃ k hits, i.searchAmong query ids k = .ok hits) :
    query.length = i.dimension ∧ ∀ id ∈ ids, id < i.size := by
  rcases h with h | ⟨k, h⟩
  · exact (refuses_of_error_iff (fun _ => scores_eq_error_iff) not_exists_scoreFault_iff).ok_iff.1 h
  · exact ((refuses_of_error_iff (fun _ => searchAmong_eq_error_iff)
      (not_exists_countFault_iff not_exists_scoreFault_iff)).ok_iff.1 h).2

/-- Scores are calculated from the rows that words reach. -/
theorem scores_eq_words (hfits : i.buffer.Fits) (hquery : query.length = i.dimension)
    {ids : List UInt64} (hids : ∀ id ∈ ids, id.toNat < i.size) :
    i.scores query (ids.map UInt64.toNat) = .ok (ids.map fun id =>
      i.metric.score (i.metric.prepare query) (i.buffer.wordStoredRow id)) := by
  have hnumbers : ∀ id ∈ ids.map UInt64.toNat, id < i.size := by
    rintro _ hid
    obtain ⟨id, hmem, rfl⟩ := List.mem_map.1 hid
    exact hids id hmem
  rw [scores_eq_ok hquery hnumbers, List.map_map]
  refine congrArg Except.ok (List.map_congr_left fun id hid => ?_)
  show i.metric.score _ (i.buffer.storedRow id.toNat) = _
  rw [← (RowBuffer.delimits_of_lt hfits (hids id hid)).slice_eq]
  rfl

end Index

namespace Session

/-- **No id wraps around.** As long as the buffer of a session's index fits in words, reading a row
by any word gives the row at this place among the accepted rows, or nothing if there is none. For
ids that are accepted when scores or the nearest of chosen rows are asked for, neither the product
with the dimension nor the sum behind it overflows, the row ends within the buffer, and it is the
one that the id reads. -/
theorem ids_never_wrap {dimension : UInt64} {metric : Metric} {threads : Threads} {empty : Index}
    (created : Index.create dimension.toNat metric threads = .ok empty) (steps : List Step)
    (fits : ((start empty).run steps).2.index.buffer.values.size < UInt64.size) :
    let i := ((start empty).run steps).2.index
    let rows := ((start empty).acceptedRows steps).map metric.prepare
    i.size = rows.length ∧
      (∀ id : UInt64, i.buffer.wordRow? id = rows[id.toNat]? ∧ i.row? id.toNat = rows[id.toNat]?) ∧
      ∀ (query : Row) (ids : List UInt64),
        ((∃ distances, i.scores query (ids.map UInt64.toNat) = .ok distances) ∨
          ∃ k hits, i.searchAmong query (ids.map UInt64.toNat) k = .ok hits) →
        (∀ id ∈ ids,
          id.toNat * dimension.toNat < UInt64.size ∧
          id.toNat * dimension.toNat + dimension.toNat < UInt64.size ∧
          (id * dimension + dimension).toNat ≤ i.buffer.values.size ∧
          i.row? id.toNat = some (i.buffer.wordStoredRow id)) ∧
        i.scores query (ids.map UInt64.toNat) = .ok (ids.map fun id =>
          i.metric.score (i.metric.prepare query) (i.buffer.wordStoredRow id)) := by
  intro i rows
  obtain ⟨hmetric, hdimension, hnone⟩ := create_eq_ok created
  have hrun : empty.Extends i _ := run_extends (start empty) steps
  have hrows : i.rows = rows := by
    rw [hrun.rows, hnone, hmetric, List.nil_append]
  have hwidth : i.buffer.width = dimension.toNat := hrun.dimension.trans hdimension
  have hfits : i.buffer.Fits := ⟨hwidth ▸ dimension.toNat_lt_size, fits⟩
  refine ⟨?_, fun id => ⟨?_, ?_⟩, fun query ids haccepted => ?_⟩
  · rw [← Index.length_rows, hrows]
  · rw [RowBuffer.wordRow?_eq_row? hfits, ← hrows]
    exact i.row?_eq id.toNat
  · rw [i.row?_eq, hrows]
  · obtain ⟨hquery, hnumbers⟩ := Index.sound_of_accepted haccepted
    have hids : ∀ id ∈ ids, id.toNat < i.buffer.size :=
      fun id hid => hnumbers _ (List.mem_map_of_mem hid)
    refine ⟨fun id hid => ?_, Index.scores_eq_words hfits hquery hids⟩
    have hreaches := RowBuffer.reaches_of_lt hfits (hids id hid)
    rwa [hwidth, UInt64.ofNat_toNat] at hreaches

/-- An index for the plane, in which nothing is made a unit row. -/
def emptyGrid : Index := ⟨.innerProduct, .allCores, .empty 2 Nat.two_pos⟩

/-- The id 2⁶³ reads nothing, although its product with the dimension wraps around to the first
row; ids in range are scored as they are asked for, twice if asked for twice. -/
theorem ids_never_wrap_grid :
    let i := ((start emptyGrid).run [.addFlat #[3, 4, 0, 2]]).2.index
    let huge : UInt64 := 0x8000000000000000
    i.buffer.values.size < UInt64.size ∧ i.buffer.wordStoredRow huge = [3, 4] ∧
      i.buffer.wordRow? huge = none ∧ i.buffer.wordRow? 1 = some [0, 2] ∧
      i.row? 1 = some (i.buffer.wordStoredRow 1) ∧
      i.scores [1, 1] [1, 0, 1] = .ok ([1, 0, 1].map fun id =>
        i.metric.score [1, 1] (i.buffer.wordStoredRow id)) := by
  intro i huge
  have created : Index.create (2 : UInt64).toNat .innerProduct .allCores = .ok emptyGrid := rfl
  have haccepted : (start emptyGrid).acceptedRows [.addFlat #[3, 4, 0, 2]] = [[3, 4], [0, 2]] := by
    decide +kernel
  have hfits : i.buffer.values.size < UInt64.size := by decide
  obtain ⟨_, hread, hids⟩ := ids_never_wrap created [.addFlat #[3, 4, 0, 2]] hfits
  rw [haccepted] at hread
  obtain ⟨hrows, hscores⟩ := hids [1, 1] [1, 0, 1] (.inl ⟨_, rfl⟩)
  obtain ⟨-, -, -, hone⟩ := hrows 1 (by decide)
  exact ⟨hfits, by decide +kernel, (hread huge).1, (hread 1).1, hone, hscores⟩

end Session

end NeighborSearch
