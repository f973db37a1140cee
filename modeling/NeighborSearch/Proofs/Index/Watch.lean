import NeighborSearch.Proofs.Index.Search

/-! How a batch ends that somebody watches.

A watch is asked before each query, in the state that reading the queries so far has left
(`Watch.before`). The first time it says stop (`Watch.firstStop?`), the batch ends with the
number of that query; if it never does, the batch ends as if nobody had watched
(`searchWatched_eq`). A batch that is refused does not come to any query
(`searchWatched_of_error`). -/
namespace NeighborSearch

namespace Watch
variable {σ : Type} (watch : Watch σ)

/-- The state in which the watch is asked before the query with this number. -/
def before (s : σ) : Nat → σ
  | 0 => s
  | n + 1 => watch.read n (before s n)

/-- The first of so many queries that is not started. -/
def firstStop? (s : σ) (n : Nat) : Option Nat :=
  (List.range n).find? fun i => watch.stopped (watch.before s i)

variable {watch} {s : σ}

theorem firstStop?_eq_some_iff {n i : Nat} :
    watch.firstStop? s n = some i ↔
      i < n ∧ watch.stopped (watch.before s i) = true ∧
        ∀ j < i, watch.stopped (watch.before s j) = false := by
  simp only [firstStop?, List.find?_range_eq_some, List.mem_range, Bool.not_eq_true',
    and_left_comm]

theorem firstStop?_eq_none_iff {n : Nat} :
    watch.firstStop? s n = none ↔ ∀ i < n, watch.stopped (watch.before s i) = false := by
  simp only [firstStop?, List.find?_range_eq_none, Bool.not_eq_true']

end Watch

/-- The batch from the query `next` on, in the state in which the watch is asked before it. -/
theorem answerBatch_before {σ : Type} (watch : Watch σ) (answer : Row → ResultSet) (s : σ)
    (next : Nat) (queries : List Row) :
    answerBatch watch answer next queries (watch.before s next) =
      match (List.range' next queries.length).find? fun i => watch.stopped (watch.before s i) with
      | some n => (.error (.interrupted n), watch.before s n)
      | none => (.ok (queries.map answer), watch.before s (next + queries.length)) := by
  induction queries generalizing next with
  | nil => rfl
  | cons query rest ih =>
    rw [answerBatch, List.length_cons, List.range'_succ, List.find?_cons]
    by_cases hstop : watch.stopped (watch.before s next) = true
    · rw [if_pos hstop, hstop]
    · have hrest : answerBatch watch answer (next + 1) rest (watch.read next (watch.before s next))
          = _ := ih (next + 1)
      rw [if_neg hstop, hrest, Bool.eq_false_iff.2 hstop, Nat.add_right_comm, Nat.add_assoc next]
      cases (List.range' (next + 1) rest.length).find? fun i => watch.stopped (watch.before s i) <;>
        rfl

namespace Index
variable {i : Index} {σ : Type} {watch : Watch σ} {queries : List Row} {k : Nat} {s : σ}

/-- A batch with queries of the right length: it is stopped before the first query before which
the watch says so, or gives what a search gives. -/
theorem searchWatched_eq (hq : ∀ query ∈ queries, query.length = i.dimension) (hk : 1 ≤ k) :
    i.searchWatched watch queries k s =
      match watch.firstStop? s queries.length with
      | some n => (.error (.interrupted n), watch.before s n)
      | none => (i.search queries k, watch.before s queries.length) := by
  have hbatch := answerBatch_before watch (i.nearest k) s 0 queries
  rw [← List.range_eq_range', Nat.zero_add] at hbatch
  rw [searchWatched, checkSearch_eq_ok_iff.2 ⟨hk, hq⟩, search_eq_ok hq hk]
  exact hbatch

theorem searchWatched_of_stopped (hq : ∀ query ∈ queries, query.length = i.dimension) (hk : 1 ≤ k)
    {n : Nat} (hn : n < queries.length) (hstop : watch.stopped (watch.before s n) = true)
    (hfirst : ∀ m < n, watch.stopped (watch.before s m) = false) :
    i.searchWatched watch queries k s = (.error (.interrupted n), watch.before s n) := by
  rw [searchWatched_eq hq hk, Watch.firstStop?_eq_some_iff.2 ⟨hn, hstop, hfirst⟩]

theorem searchWatched_of_not_stopped (hq : ∀ query ∈ queries, query.length = i.dimension)
    (hk : 1 ≤ k) (hnever : ∀ n < queries.length, watch.stopped (watch.before s n) = false) :
    i.searchWatched watch queries k s =
      (i.search queries k, watch.before s queries.length) := by
  rw [searchWatched_eq hq hk, Watch.firstStop?_eq_none_iff.2 hnever]

/-- A batch that is refused is not read. -/
theorem searchWatched_of_error {e : SearchError} (h : i.search queries k = .error e) :
    i.searchWatched watch queries k s = (.error e, s) := by
  rw [search, searchWatched] at h
  rw [searchWatched]
  cases hcheck : i.checkSearch queries k with
  | error e' =>
    rw [hcheck] at h
    rw [Except.error.inj h]
  | ok _ =>
    rw [hcheck] at h
    simp only [answerBatch_idle] at h
    cases h

/-- The watch is left in a state in which it is asked before some query, or after the last. -/
theorem exists_searchWatched_state (i : Index) (watch : Watch σ) (queries : List Row) (k : Nat)
    (s : σ) : ∃ n, (i.searchWatched watch queries k s).2 = watch.before s n := by
  cases hcheck : i.checkSearch queries k with
  | error e =>
    refine ⟨0, ?_⟩
    rw [searchWatched, hcheck]
    rfl
  | ok _ =>
    obtain ⟨hk, hq⟩ := checkSearch_eq_ok_iff.1 hcheck
    rw [searchWatched_eq hq hk]
    split
    · exact ⟨_, rfl⟩
    · exact ⟨_, rfl⟩

end Index

end NeighborSearch
