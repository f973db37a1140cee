import NeighborSearch.Proofs.FirstFault
import NeighborSearch.Proofs.Session.Interruption

/-! What searches are refused with.

Three things can be wrong with what a search is asked: no neighbors (`CountFault`), rows of the
wrong length (`RowFault`), ids that no row has (`ScoreFault`). They are looked for in this order,
and an error names the first row or id at fault. An operation `Refuses` if these are its errors,
each with a fault that it comes from, and if without a fault it gives a result. So do all
operations that read an index (`reads_refuse`), whatever is stored; a switch that is not raised
adds nothing to it, and one that is raised does not get ahead of a fault. -/
namespace NeighborSearch

/-! ### Faults -/

/-- The first row of another length is at fault. -/
inductive RowFault (width : Nat) (rows : List Row) : SearchError → Prop
  | mismatch {place : Nat} {row : Row}
      (h : IsFirst (fun row : Row => row.length ≠ width) rows place row) :
      RowFault width rows (.dimensionMismatch place width row.length)

/-- The query is at fault, or else the first id that no row has. -/
inductive Index.ScoreFault (i : Index) (query : Row) (ids : List Nat) : SearchError → Prop
  | query (h : query.length ≠ i.dimension) :
      i.ScoreFault query ids (.dimensionMismatch 0 i.dimension query.length)
  | id {place id : Nat} (hq : query.length = i.dimension)
      (h : IsFirst (fun id => i.size ≤ id) ids place id) :
      i.ScoreFault query ids (.idOutOfRange id i.size)

/-- Asking for no neighbors comes before all other faults. -/
inductive CountFault (k : Nat) (fault : SearchError → Prop) : SearchError → Prop
  | zero (hk : k = 0) : CountFault k fault (.invalidK 0)
  | other {e : SearchError} (hk : 1 ≤ k) (h : fault e) : CountFault k fault e

/-- The errors are these faults, and there is a result if and only if all is sound. -/
structure Refuses {α : Type} (outcome : Outcome α) (fault : SearchError → Prop) (sound : Prop) :
    Prop where
  error_iff : ∀ e, outcome = .error e ↔ fault e
  ok_iff : (∃ a, outcome = .ok a) ↔ sound

theorem refuses_of_error_iff {α : Type} {outcome : Outcome α} {fault : SearchError → Prop}
    {sound : Prop} (h : ∀ e, outcome = .error e ↔ fault e) (hsound : sound ↔ ¬ ∃ e, fault e) :
    Refuses outcome fault sound := by
  refine ⟨h, ?_⟩
  simp only [hsound, ← h]
  cases outcome with
  | ok a => exact ⟨fun _ => nofun, fun _ => ⟨a, rfl⟩⟩
  | error e => exact ⟨nofun, fun hnone => absurd ⟨e, rfl⟩ hnone⟩

section Faults
variable {width k : Nat} {rows : List Row} {e : SearchError} {fault : SearchError → Prop}

theorem not_exists_rowFault_iff :
    (∀ row ∈ rows, row.length = width) ↔ ¬ ∃ e, RowFault width rows e := by
  have hany : (∃ e, RowFault width rows e) ↔ ∃ row ∈ rows, row.length ≠ width := by
    rw [← exists_isFirst_iff]
    constructor
    · rintro ⟨_, ⟨h⟩⟩
      exact ⟨_, _, h⟩
    · rintro ⟨place, row, h⟩
      exact ⟨_, .mismatch h⟩
  rw [hany]
  simp

theorem not_exists_scoreFault_iff {i : Index} {query : Row} {ids : List Nat} :
    (query.length = i.dimension ∧ ∀ id ∈ ids, id < i.size) ↔ ¬ ∃ e, i.ScoreFault query ids e := by
  constructor
  · rintro ⟨hq, hids⟩ ⟨_, h | ⟨-, h⟩⟩
    · exact h hq
    · exact absurd h.holds (Nat.not_le.2 (hids _ (List.mem_of_getElem? h.getElem?)))
  · intro hnone
    have hq : query.length = i.dimension :=
      Classical.byContradiction fun hq => hnone ⟨_, .query hq⟩
    refine ⟨hq, fun id hid => Nat.lt_of_not_le fun hle => ?_⟩
    obtain ⟨place, first, h⟩ := exists_isFirst_iff.2 ⟨id, hid, hle⟩
    exact hnone ⟨_, .id hq h⟩

theorem not_exists_countFault_iff {sound : Prop} (h : sound ↔ ¬ ∃ e, fault e) :
    (1 ≤ k ∧ sound) ↔ ¬ ∃ e, CountFault k fault e := by
  rw [h]
  constructor
  · rintro ⟨hk, hnone⟩ ⟨_, hzero | ⟨-, hfault⟩⟩
    · omega
    · exact hnone ⟨_, hfault⟩
  · intro hnone
    have hk : 1 ≤ k := Nat.pos_of_ne_zero fun hzero => hnone ⟨_, .zero hzero⟩
    exact ⟨hk, fun ⟨e, hfault⟩ => hnone ⟨e, .other hk hfault⟩⟩

theorem countFault_iff_of_pos (hk : 1 ≤ k) : CountFault k fault e ↔ fault e := by
  constructor
  · rintro (hzero | ⟨-, h⟩)
    · omega
    · exact h
  · exact .other hk

theorem countFault_zero_iff : CountFault 0 fault e ↔ e = .invalidK 0 := by
  constructor
  · rintro (_ | ⟨hk, -⟩)
    · rfl
    · omega
  · rintro rfl
    exact .zero rfl

end Faults

/-! ### Checks -/

namespace Index
variable {i : Index} {queries : List Row} {query : Row} {ids : List Nat} {k : Nat}
  {e : SearchError}

theorem checkRows_eq_error_iff :
    i.checkRows queries = .error e ↔ RowFault i.dimension queries e := by
  have hcheck : i.checkRows queries = .error e ↔ mismatch? i.dimension 0 queries = some e := by
    rw [checkRows]
    split <;> simp_all
  rw [hcheck, mismatch?_eq_some_iff]
  constructor
  · rintro ⟨place, row, h, rfl⟩
    rw [Nat.zero_add]
    exact .mismatch h
  · rintro ⟨h⟩
    exact ⟨_, _, h, by rw [Nat.zero_add]⟩

theorem checkSearch_eq_error_iff :
    i.checkSearch queries k = .error e ↔ CountFault k (RowFault i.dimension queries) e := by
  rw [checkSearch]
  split
  · rename_i hk
    subst hk
    rw [countFault_zero_iff, Except.error.injEq, eq_comm]
  · rename_i hk
    rw [checkRows_eq_error_iff, countFault_iff_of_pos (Nat.pos_of_ne_zero hk)]

theorem checkIds_eq_error_iff : i.checkIds ids = .error e ↔
    ∃ place id, IsFirst (fun id => i.size ≤ id) ids place id ∧ e = .idOutOfRange id i.size := by
  have hfind : ∀ id, ids.find? (i.size ≤ ·) = some id ↔
      ∃ place, IsFirst (fun id => i.size ≤ id) ids place id := by
    intro id
    rw [find?_eq_some_iff]
    simp only [decide_eq_true_eq]
  rw [checkIds]
  cases hids : ids.find? (i.size ≤ ·) with
  | none =>
    constructor
    · rintro ⟨⟩
    · rintro ⟨place, id, h, _⟩
      rw [(hfind id).2 ⟨place, h⟩] at hids
      cases hids
  | some first =>
    constructor
    · rintro ⟨⟩
      obtain ⟨place, h⟩ := (hfind first).1 hids
      exact ⟨place, first, h, rfl⟩
    · rintro ⟨place, id, h, rfl⟩
      rw [(hfind id).2 ⟨place, h⟩, Option.some.injEq] at hids
      rw [hids]

/-! ### Operations -/

theorem searchWatched_of_checkSearch_error {σ : Type} {watch : Watch σ} {s : σ}
    (h : i.checkSearch queries k = .error e) :
    i.searchWatched watch queries k s = (.error e, s) := by
  rw [searchWatched, h]

theorem search_eq_error_iff :
    i.search queries k = .error e ↔ CountFault k (RowFault i.dimension queries) e := by
  rw [← checkSearch_eq_error_iff]
  cases hcheck : i.checkSearch queries k with
  | error e' =>
    rw [search, searchWatched_of_checkSearch_error hcheck, Except.error.injEq, Except.error.injEq]
  | ok _ =>
    obtain ⟨hk, hq⟩ := checkSearch_eq_ok_iff.1 hcheck
    rw [search_eq_ok hq hk]
    constructor <;> rintro ⟨⟩

theorem rangeSearch_eq_error_iff {radius : Float32} :
    i.rangeSearch queries radius = .error e ↔ RowFault i.dimension queries e := by
  rw [rangeSearch, bind_eq_error_iff, checkRows_eq_error_iff, answerBatch_idle]
  simp

theorem rowFault_singleton_iff {width : Nat} : RowFault width [query] e ↔
    query.length ≠ width ∧ e = .dimensionMismatch 0 width query.length := by
  constructor
  · rintro ⟨h⟩
    cases h with
    | here hq => exact ⟨hq, rfl⟩
    | behind _ h => cases h
  · rintro ⟨hq, rfl⟩
    exact .mismatch (.here hq)

theorem scores_eq_error_iff : i.scores query ids = .error e ↔ i.ScoreFault query ids e := by
  have hrows : i.checkRows [query] = .ok () ↔ query.length = i.dimension := by
    rw [checkRows_eq_ok_iff, List.forall_mem_singleton]
  rw [scores, bind_eq_error_iff, checkRows_eq_error_iff, rowFault_singleton_iff]
  simp only [bind_eq_error_iff, checkIds_eq_error_iff, hrows]
  constructor
  · rintro (⟨hq, rfl⟩ | ⟨_, hq, ⟨place, id, h, rfl⟩ | ⟨_, _, h⟩⟩)
    · exact .query hq
    · exact .id hq h
    · cases h
  · rintro (hq | ⟨hq, h⟩)
    · exact .inl ⟨hq, rfl⟩
    · exact .inr ⟨(), hq, .inl ⟨_, _, h, rfl⟩⟩

theorem searchAmong_eq_error_iff :
    i.searchAmong query ids k = .error e ↔ CountFault k (i.ScoreFault query ids) e := by
  rw [searchAmong]
  split
  · rename_i hk
    subst hk
    rw [countFault_zero_iff, Except.error.injEq, eq_comm]
  · rename_i hk
    rw [bind_eq_error_iff, scores_eq_error_iff, countFault_iff_of_pos (Nat.pos_of_ne_zero hk)]
    refine or_iff_left ?_
    rintro ⟨_, _, ⟨⟩⟩

/-- A watch that never says stop makes no difference to what a search gives. -/
theorem searchWatched_eq_search {σ : Type} {watch : Watch σ} {s : σ}
    (hnever : ∀ n < queries.length, watch.stopped (watch.before s n) = false) :
    (i.searchWatched watch queries k s).1 = i.search queries k := by
  cases hcheck : i.checkSearch queries k with
  | error e =>
    have hsearch := search_eq_error_iff.2 (checkSearch_eq_error_iff.1 hcheck)
    rw [searchWatched_of_checkSearch_error hcheck, hsearch]
  | ok _ =>
    obtain ⟨hk, hq⟩ := checkSearch_eq_ok_iff.1 hcheck
    rw [searchWatched_of_not_stopped hq hk hnever]

/-- **What searches are refused with**, whatever the index holds. Asking for no neighbors comes
first, then the first row of the wrong length, then the first id that no row has; without a fault
there is a result, also if the index, the batch or the list of ids is empty. A watch, such as that
of a switch, changes none of this as long as it does not say stop, and never gets ahead of a
fault. -/
theorem reads_refuse (i : Index) :
    (∀ queries k, Refuses (i.search queries k) (CountFault k (RowFault i.dimension queries))
      (1 ≤ k ∧ ∀ query ∈ queries, query.length = i.dimension)) ∧
    (∀ queries radius, Refuses (i.rangeSearch queries radius) (RowFault i.dimension queries)
      (∀ query ∈ queries, query.length = i.dimension)) ∧
    (∀ query ids, Refuses (i.scores query ids) (i.ScoreFault query ids)
      (query.length = i.dimension ∧ ∀ id ∈ ids, id < i.size)) ∧
    (∀ query ids k, Refuses (i.searchAmong query ids k) (CountFault k (i.ScoreFault query ids))
      (1 ≤ k ∧ query.length = i.dimension ∧ ∀ id ∈ ids, id < i.size)) ∧
    (∀ {σ : Type} (watch : Watch σ) (state : σ) (queries : List Row) (k : Nat),
      (∀ e, CountFault k (RowFault i.dimension queries) e →
        i.searchWatched watch queries k state = (.error e, state)) ∧
      ((∀ n < queries.length, watch.stopped (watch.before state n) = false) →
        Refuses (i.searchWatched watch queries k state).1
          (CountFault k (RowFault i.dimension queries))
          (1 ≤ k ∧ ∀ query ∈ queries, query.length = i.dimension))) ∧
    ∀ (board : Switchboard) (handle : Nat) (queries : List Row) (k : Nat),
      board.isRaised handle = false →
        Refuses (i.searchWatched (Session.handleWatch handle none) queries k board).1
          (CountFault k (RowFault i.dimension queries))
          (1 ≤ k ∧ ∀ query ∈ queries, query.length = i.dimension) := by
  have hsearch : ∀ queries k, Refuses (i.search queries k)
      (CountFault k (RowFault i.dimension queries))
      (1 ≤ k ∧ ∀ query ∈ queries, query.length = i.dimension) := fun queries k =>
    refuses_of_error_iff (fun _ => search_eq_error_iff)
      (not_exists_countFault_iff not_exists_rowFault_iff)
  refine ⟨hsearch, fun queries radius => ?_, fun query ids => ?_, fun query ids k => ?_,
    fun watch state queries k => ⟨fun e hfault => ?_, fun hnever => ?_⟩,
    fun board handle queries k hlow => ?_⟩
  · exact refuses_of_error_iff (fun _ => rangeSearch_eq_error_iff) not_exists_rowFault_iff
  · exact refuses_of_error_iff (fun _ => scores_eq_error_iff) not_exists_scoreFault_iff
  · exact refuses_of_error_iff (fun _ => searchAmong_eq_error_iff)
      (not_exists_countFault_iff not_exists_scoreFault_iff)
  · exact searchWatched_of_checkSearch_error (checkSearch_eq_error_iff.2 hfault)
  · rw [searchWatched_eq_search hnever]
    exact hsearch queries k
  · rw [searchWatched_eq_search fun n _ => ?_]
    · exact hsearch queries k
    · rw [Session.before_handleWatch]
      exact hlow

/-- Two of three queries are too long or too short, and the first one of them is named; an empty
index answers all that is asked of it in the right way. -/
theorem reads_refuse_emptyLine :
    let i := Session.emptyLine
    let board := Switchboard.empty.create
    i.search [[0], [1, 2], []] 1 = .error (.dimensionMismatch 1 1 2) ∧
      i.search [[0], [1, 2], []] 0 = .error (.invalidK 0) ∧
      i.searchAmong [0] [7, 3] 1 = .error (.idOutOfRange 7 0) ∧
      (∃ scores, i.scores [0] [] = .ok scores) ∧
      ∃ results, (i.searchWatched (Session.handleWatch 0 none) [[0]] 1 board).1 = .ok results := by
  intro i board
  obtain ⟨hsearch, _, hscores, hamong, _, hswitch⟩ := reads_refuse i
  have hsecond : IsFirst (fun row : Row => row.length ≠ 1) [[0], [1, 2], []] 1 [1, 2] :=
    .behind (by decide) (.here (by decide))
  have hid : i.ScoreFault [0] [7, 3] (.idOutOfRange 7 i.size) := .id rfl (.here (by decide))
  have hsize : i.size = 0 := by decide
  rw [hsize] at hid
  refine ⟨((hsearch _ 1).error_iff _).2 (.other le_rfl (.mismatch hsecond)),
    ((hsearch _ 0).error_iff _).2 (.zero rfl),
    ((hamong _ _ 1).error_iff _).2 (.other le_rfl hid), ?_, ?_⟩
  · exact (hscores [0] []).ok_iff.2 ⟨rfl, by decide⟩
  · exact (hswitch board 0 [[0]] 1 rfl).ok_iff.2 ⟨le_rfl, by decide⟩

end Index

end NeighborSearch
