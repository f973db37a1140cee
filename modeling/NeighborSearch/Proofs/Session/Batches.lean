import NeighborSearch.Proofs.Session.AppendOnly

/-! Rows may come in by any calls.

A flat buffer is the list of its pieces: adding it is adding them, and if it ends within a row, the
remainder is the one piece of the wrong length, so that both are refused with the same error
(`Index.mismatch?_cut`, `Index.addFlat_eq_add_cut`). What an index becomes is told by the rows that
come in and not by the calls that bring them (`Index.Extends.unique`), so that rows may be grouped
into calls of either kind at will (`Session.additions_agree`). -/
namespace NeighborSearch

namespace Index
variable {i : Index}

/-! ### A flat buffer and its pieces -/

/-- Only a remainder is no whole row, and it stands behind all of them. -/
theorem mismatch?_cut {width : Nat} (hw : 0 < width) (start : Nat) (values : Row) :
    mismatch? width start (cut width values) =
      if values.length % width = 0 then none
      else some (.dimensionMismatch (start + values.length / width) width
        (values.length % width)) := by
  fun_induction cut width values generalizing start with
  | case1 values h ih =>
    have hpos := List.length_pos_iff.2 h.2
    rw [mismatch?, List.length_take]
    rcases Nat.lt_or_ge values.length width with hlt | hle
    · rw [Nat.min_eq_right (Nat.le_of_lt hlt), if_neg (Nat.ne_of_lt hlt), Nat.mod_eq_of_lt hlt,
        if_neg (Nat.ne_of_gt hpos), Nat.div_eq_of_lt hlt, Nat.add_zero]
    · rw [Nat.min_eq_left hle, if_pos rfl, ih, List.length_drop, ← Nat.mod_eq_sub_mod hle,
        Nat.div_eq_sub_div hw hle, Nat.add_assoc, Nat.add_comm 1]
  | case2 values h =>
    have hnil : values = [] := Classical.byContradiction fun hne => h ⟨hw, hne⟩
    rw [hnil, mismatch?, List.length_nil, Nat.zero_mod, if_pos rfl]

theorem addFlat_eq_error {values : Array Float32} (h : ¬ i.dimension ∣ values.size) :
    i.addFlat values = .error (.dimensionMismatch (values.size / i.dimension) i.dimension
      (values.size % i.dimension)) :=
  dif_neg fun hmod => h (Nat.dvd_of_mod_eq_zero hmod)

/-- An index is told by the one that it extends and by the rows. -/
theorem Extends.unique {j k : Index} {rows : List Row} (hj : i.Extends j rows)
    (hk : i.Extends k rows) : j = k :=
  eq_of_rows_eq (hj.metric.trans hk.metric.symm) (hj.threads.trans hk.threads.symm)
    (hj.dimension.trans hk.dimension.symm) (hj.rows.trans hk.rows.symm)

theorem addFlat_eq_add_cut (i : Index) (values : Array Float32) :
    i.addFlat values = i.add (cut i.dimension values.toList) := by
  have hcut := mismatch?_cut i.dimension_pos 0 values.toList
  rw [Array.length_toList, Nat.zero_add] at hcut
  by_cases hdvd : i.dimension ∣ values.size
  · rw [if_pos (Nat.mod_eq_zero_of_dvd hdvd)] at hcut
    obtain ⟨j, hj⟩ := addFlat_succeeds_iff.2 hdvd
    obtain ⟨k, hk⟩ := add_succeeds_iff.2 (mismatch?_eq_none_iff.1 hcut)
    rw [hj, hk, (addFlat_extends hj).unique (add_extends hk)]
  · rw [if_neg fun hmod => hdvd (Nat.dvd_of_mod_eq_zero hmod)] at hcut
    rw [addFlat_eq_error hdvd, add_eq_error hcut]

end Index

namespace Session
open Index (Extends)

/-! ### Calls that bring rows -/

/-- Rows that one call brings, one by one or packed in one buffer. -/
inductive Batch where
  | listed (rows : List Row)
  | packed (rows : List Row)

namespace Batch

def rows : Batch → List Row
  | listed rows | packed rows => rows

def step : Batch → Step
  | listed rows => .add rows
  | packed rows => .addFlat rows.flatten.toArray

end Batch

variable {s : Session}

/-- Whichever way whole rows come, they are taken in. -/
theorem step_batch {b : Batch} (h : ∀ row ∈ b.rows, row.length = s.index.dimension) :
    ∃ j, s.index.Extends j b.rows ∧
      s.step b.step = (.ok (.size j.size), { s with index := j }) := by
  cases b with
  | listed rows =>
    obtain ⟨j, hj⟩ : ∃ j, s.index.add rows = .ok j := Index.add_succeeds_iff.2 h
    refine ⟨j, Index.add_extends hj, ?_⟩
    show s.added (s.index.add rows) = _
    rw [hj]
    rfl
  | packed rows =>
    have h : ∀ row ∈ rows, row.length = s.index.dimension := h
    have hdvd : s.index.dimension ∣ rows.flatten.toArray.size := by
      rw [List.size_toArray]
      exact dvd_length_flatten h
    obtain ⟨j, hj⟩ := Index.addFlat_succeeds_iff.2 hdvd
    have hextends := Index.addFlat_extends hj
    rw [← rowsOf_eq_cut s.index.dimension_pos hdvd, rowsOf_flatten s.index.dimension_pos h]
      at hextends
    refine ⟨j, hextends, ?_⟩
    show s.added (s.index.addFlat rows.flatten.toArray) = _
    rw [hj]
    rfl

/-- Calls one after the other bring all of their rows. -/
theorem run_batches {batches : List Batch}
    (h : ∀ b ∈ batches, ∀ row ∈ b.rows, row.length = s.index.dimension) :
    ∃ j, s.index.Extends j (batches.flatMap Batch.rows) ∧
      (s.run (batches.map Batch.step)).2 = { s with index := j } ∧
      ∀ answer ∈ (s.run (batches.map Batch.step)).1, ∃ n, answer = .ok (.size n) := by
  induction batches generalizing s with
  | nil => exact ⟨s.index, .refl s.index, rfl, fun _ hanswer => absurd hanswer List.not_mem_nil⟩
  | cons b rest ih =>
    obtain ⟨k, hk, hstep⟩ := step_batch (h b List.mem_cons_self)
    -- the next call meets an index of the same dimension
    obtain ⟨j, hj, hstate, hanswers⟩ := @ih { s with index := k } fun c hc row hrow =>
      (h c (List.mem_cons_of_mem b hc) row hrow).trans hk.dimension.symm
    rw [List.map_cons, List.flatMap_cons, run, hstep]
    refine ⟨j, hk.trans hj, hstate, fun answer hanswer => ?_⟩
    rcases List.mem_cons.1 hanswer with rfl | hanswer
    · exact ⟨k.size, rfl⟩
    · exact hanswers answer hanswer

/-- **All ways to add the same rows agree.** A flat buffer is added as its pieces are, with the same
index or the same error: without a remainder both succeed, and a remainder is refused as the row
that it stands for, which changes nothing. Rows of the right length are taken in by any sequence of
calls, each of which brings some of them one by one or in a buffer, and what there is in the end is
what one call with all of them gives. -/
theorem additions_agree (s : Session) :
    (∀ values : Array Float32,
      let pieces := cut s.index.dimension values.toList
      s.index.addFlat values = s.index.add pieces ∧
        s.step (.addFlat values) = s.step (.add pieces) ∧
        if s.index.dimension ∣ values.size then
          ∃ j, s.index.addFlat values = .ok j ∧ s.index.Extends j pieces
        else
          s.step (.addFlat values) =
            (.error (.dimensionMismatch (values.size / s.index.dimension) s.index.dimension
              (values.size % s.index.dimension)), s)) ∧
      ∀ batches : List Batch,
        (∀ b ∈ batches, ∀ row ∈ b.rows, row.length = s.index.dimension) →
        (s.run (batches.map Batch.step)).2 = (s.step (.add (batches.flatMap Batch.rows))).2 ∧
          (∃ j, s.index.add (batches.flatMap Batch.rows) = .ok j) ∧
          ∀ answer ∈ (s.run (batches.map Batch.step)).1, ∃ n, answer = .ok (.size n) := by
  refine ⟨fun values => ?_, fun batches h => ?_⟩
  · have hsame := s.index.addFlat_eq_add_cut values
    refine ⟨hsame, congrArg s.added hsame, ?_⟩
    split
    · rename_i hdvd
      obtain ⟨j, hj⟩ := Index.addFlat_succeeds_iff.2 hdvd
      exact ⟨j, hj, Index.addFlat_extends hj⟩
    · rename_i hdvd
      exact congrArg s.added (Index.addFlat_eq_error hdvd)
  · have hrows : ∀ row ∈ batches.flatMap Batch.rows, row.length = s.index.dimension := by
      intro row hrow
      obtain ⟨b, hb, hrow⟩ := List.mem_flatMap.1 hrow
      exact h b hb row hrow
    obtain ⟨j, hj, hstate, hanswers⟩ := run_batches h
    obtain ⟨k, hk⟩ := Index.add_succeeds_iff.2 hrows
    refine ⟨?_, ⟨k, hk⟩, hanswers⟩
    rw [hstate, hj.unique (Index.add_extends hk)]
    exact (congrArg (fun outcome => (s.added outcome).2) hk).symm

/-- A buffer that ends within its second row is refused for that row; three rows come in by a
buffer, a call without rows and a call with one row as they do by one call. -/
theorem additions_agree_plane :
    (start emptyPlane).step (.addFlat #[3, 4, 1]) =
        (.error (.dimensionMismatch 1 2 1), start emptyPlane) ∧
      ((start emptyPlane).run [.addFlat #[3, 4, 0, 2], .add [], .add [[1, 1]]]).2 =
        ((start emptyPlane).step (.add [[3, 4], [0, 2], [1, 1]])).2 := by
  obtain ⟨hflat, hgroups⟩ := additions_agree (start emptyPlane)
  constructor
  · have hrefused := (hflat #[3, 4, 1]).2.2
    rwa [if_neg (by decide +kernel)] at hrefused
  · exact (hgroups [.packed [[3, 4], [0, 2]], .listed [], .listed [[1, 1]]] (by decide +kernel)).1

end Session

end NeighborSearch
