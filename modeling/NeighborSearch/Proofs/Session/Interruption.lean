import NeighborSearch.Proofs.Index.Watch
import NeighborSearch.Proofs.Interrupt
import NeighborSearch.Proofs.Session.AppendOnly

/-! Searches that a handle interrupts.

The watch of such a search sees the switch of its handle as it was when the search began, and
raised from the moment on at which a query trips it (`stopped_handleWatch`). So the search is not
begun if the switch is raised (`step_of_raised`), and ends behind the query that trips it
(`step_of_tripped`), unless that is the last one (`step_of_not_tripped`). All of this is said of
every session that was run on a serial index in `interrupted_at_first_raised`. -/
namespace NeighborSearch.Session
open Switchboard (Connected)

/-! ### The switches of a session -/

theorem before_handleWatch (handle : Nat) (tripAt : Option Nat) (board : Switchboard) (n : Nat) :
    (handleWatch handle tripAt).before board n =
      if tripAt.any (· < n) then board.raise handle else board := by
  induction n with
  | zero => cases tripAt <;> rfl
  | succ n ih =>
    rw [Watch.before, ih]
    cases tripAt with
    | none => rfl
    | some t =>
      simp only [handleWatch, Option.any_some, decide_eq_true_eq, Option.some.injEq]
      rcases Nat.lt_trichotomy t n with hlt | rfl | hgt
      · rw [if_neg (by omega), if_pos hlt, if_pos (by omega)]
      · rw [if_pos rfl, if_neg (by omega), if_pos (by omega)]
      · rw [if_neg (by omega), if_neg (by omega), if_neg (by omega)]

theorem connected_step {s : Session} (h : s.flags.Connected) (next : Step) :
    (s.step next).2.flags.Connected := by
  have hadded : ∀ outcome : Outcome Index, (s.added outcome).2.flags.Connected := by
    intro outcome
    cases outcome <;> exact h
  cases next with
  | add rows => exact hadded _
  | addText rows => exact hadded _
  | addFlat values => exact hadded _
  | addSynthetic source => exact hadded _
  | searchInterruptible queries k handle tripAt =>
    obtain ⟨n, hn⟩ := s.index.exists_searchWatched_state (handleWatch handle tripAt) queries k
      s.flags
    rw [step_searchInterruptible]
    show (s.index.searchWatched _ queries k s.flags).2.Connected
    rw [hn, before_handleWatch]
    split
    · exact h.set handle true
    · exact h
  | newHandle => exact h.create
  | cloneHandle handle => exact h.clone handle
  | raiseHandle handle => exact h.set handle true
  | lowerHandle handle => exact h.set handle false
  | _ => exact h

theorem connected_run {s : Session} (h : s.flags.Connected) (steps : List Step) :
    (s.run steps).2.flags.Connected := by
  induction steps generalizing s with
  | nil => exact h
  | cons next rest ih => exact ih (connected_step h next)

theorem connected_start (i : Index) : (start i).flags.Connected := Switchboard.connected_empty.create

/-! ### When the watch says stop -/

variable {board : Switchboard} {handle : Nat}

theorem stopped_handleWatch (h : board.Connected) (hhandle : handle < board.handles.size)
    (tripAt : Option Nat) (n : Nat) :
    (handleWatch handle tripAt).stopped ((handleWatch handle tripAt).before board n) =
      (board.isRaised handle || tripAt.any (· < n)) := by
  have hreached := Array.getElem?_eq_getElem hhandle
  rw [before_handleWatch]
  show Switchboard.isRaised _ handle = _
  split
  · rename_i htrip
    rw [Switchboard.raise, Switchboard.isRaised_set h hreached, if_pos hreached, htrip,
      Bool.or_true]
  · rename_i htrip
    rw [Bool.not_eq_true] at htrip
    rw [htrip, Bool.or_false]

/-! ### How a search of a session ends -/

section Search
variable {s : Session} {queries : List Row} {k handle : Nat} {tripAt : Option Nat}

theorem step_of_stopped (hq : ∀ query ∈ queries, query.length = s.index.dimension) (hk : 1 ≤ k)
    {n : Nat} (hn : n < queries.length)
    (hstop : (handleWatch handle tripAt).stopped
      ((handleWatch handle tripAt).before s.flags n) = true)
    (hfirst : ∀ m < n, (handleWatch handle tripAt).stopped
      ((handleWatch handle tripAt).before s.flags m) = false) :
    (s.step (.searchInterruptible queries k handle tripAt)).1 = .error (.interrupted n) := by
  rw [step_searchInterruptible, Index.searchWatched_of_stopped hq hk hn hstop hfirst]
  rfl

theorem step_of_not_stopped (hq : ∀ query ∈ queries, query.length = s.index.dimension)
    (hk : 1 ≤ k)
    (hnever : ∀ n < queries.length, (handleWatch handle tripAt).stopped
      ((handleWatch handle tripAt).before s.flags n) = false) :
    (s.step (.searchInterruptible queries k handle tripAt)).1 =
      (s.index.search queries k).map .results := by
  rw [step_searchInterruptible, Index.searchWatched_of_not_stopped hq hk hnever]

theorem step_of_search_error {e : SearchError} (h : s.index.search queries k = .error e) :
    s.step (.searchInterruptible queries k handle tripAt) = (.error e, s) := by
  rw [step_searchInterruptible, Index.searchWatched_of_error h]
  rfl

/-- With the switch raised, no query is started. -/
theorem step_of_raised (hc : s.flags.Connected) (hh : handle < s.flags.handles.size)
    (hq : ∀ query ∈ queries, query.length = s.index.dimension) (hk : 1 ≤ k)
    (hraised : s.flags.isRaised handle = true) (hne : queries ≠ []) :
    (s.step (.searchInterruptible queries k handle tripAt)).1 = .error (.interrupted 0) := by
  refine step_of_stopped hq hk (List.length_pos_iff.2 hne) ?_ fun m hm => absurd hm (Nat.not_lt_zero m)
  rw [stopped_handleWatch hc hh, hraised, Bool.true_or]

/-- The query that trips the switch is answered, and the next one is not started. -/
theorem step_of_tripped (hc : s.flags.Connected) (hh : handle < s.flags.handles.size)
    (hq : ∀ query ∈ queries, query.length = s.index.dimension) (hk : 1 ≤ k)
    (hraised : s.flags.isRaised handle = false) {i : Nat} (hi : i + 1 < queries.length) :
    (s.step (.searchInterruptible queries k handle (some i))).1 =
      .error (.interrupted (i + 1)) := by
  refine step_of_stopped hq hk hi ?_ fun m hm => ?_
  · rw [stopped_handleWatch hc hh, hraised]
    simp
  · rw [stopped_handleWatch hc hh, hraised]
    simpa using Nat.le_of_lt_succ hm

/-- A trip at the last query or behind it comes too late. -/
theorem step_of_not_tripped (hc : s.flags.Connected) (hh : handle < s.flags.handles.size)
    (hq : ∀ query ∈ queries, query.length = s.index.dimension) (hk : 1 ≤ k)
    (hraised : s.flags.isRaised handle = false)
    (hlate : ∀ i, tripAt = some i → queries.length ≤ i + 1) :
    (s.step (.searchInterruptible queries k handle tripAt)).1 =
      (s.index.search queries k).map .results := by
  refine step_of_not_stopped hq hk fun n hn => ?_
  rw [stopped_handleWatch hc hh, hraised, Bool.false_or]
  cases tripAt with
  | none => rfl
  | some i =>
    have hi := hlate i rfl
    rw [Option.any_some, decide_eq_false_iff_not]
    omega

end Search

/-- **A search is interrupted before the first query before which the switch is seen raised**, and
else gives what it gives when nobody watches. So a switch that is raised lets no query start, one
that is tripped by a query ends the search behind it, and a search without a further query is not
interrupted. A search that is refused trips nothing, and none changes the index. -/
theorem interrupted_at_first_raised {dimension : Nat} {metric : Metric} {empty : Index}
    (created : Index.create dimension metric (.count 1) = .ok empty) (steps : List Step) :
    let s := ((start empty).run steps).2
    -- whatever is seen between the queries
    (∀ {σ : Type} (watch : Watch σ) (state : σ) (queries : List Row) (k : Nat), 1 ≤ k →
      (∀ query ∈ queries, query.length = dimension) →
      (∀ n < queries.length, watch.stopped (watch.before state n) = true →
        (∀ m < n, watch.stopped (watch.before state m) = false) →
        (s.index.searchWatched watch queries k state).1 = .error (.interrupted n)) ∧
      ((∀ n < queries.length, watch.stopped (watch.before state n) = false) →
        (s.index.searchWatched watch queries k state).1 = s.index.search queries k)) ∧
    -- a switch that is raised beforehand, or that a query trips
    (∀ handle < s.flags.handles.size, ∀ (tripAt : Option Nat) (queries : List Row) (k : Nat),
      1 ≤ k → (∀ query ∈ queries, query.length = dimension) →
      let answer := (s.step (.searchInterruptible queries k handle tripAt)).1
      ∃ results, s.index.search queries k = .ok results ∧
        (queries = [] → answer = .ok (.results [])) ∧
        (s.flags.isRaised handle = true → queries ≠ [] → answer = .error (.interrupted 0)) ∧
        (s.flags.isRaised handle = false →
          (∀ i, tripAt = some i → i + 1 < queries.length →
            answer = .error (.interrupted (i + 1))) ∧
          ((∀ i, tripAt = some i → queries.length ≤ i + 1) →
            answer = .ok (.results results)))) ∧
    -- a search that is refused
    (∀ (queries : List Row) (handle : Nat) (tripAt : Option Nat),
      s.step (.searchInterruptible queries 0 handle tripAt) = (.error (.invalidK 0), s)) ∧
    (∀ (front : List Row) (query : Row) (back : List Row) (k handle : Nat)
      (tripAt : Option Nat), 1 ≤ k → (∀ row ∈ front, row.length = dimension) →
      query.length ≠ dimension →
      s.step (.searchInterruptible (front ++ query :: back) k handle tripAt) =
        (.error (.dimensionMismatch front.length dimension query.length), s)) ∧
    ∀ (queries : List Row) (k handle : Nat) (tripAt : Option Nat),
      (s.step (.searchInterruptible queries k handle tripAt)).2.index = s.index := by
  intro s
  have hwidth : s.index.dimension = dimension :=
    (run_extends (start empty) steps).dimension.trans (create_eq_ok created).2.1
  have hc : s.flags.Connected := connected_run (connected_start empty) steps
  rw [← hwidth]
  refine ⟨fun watch state queries k hk hq => ⟨fun n hn hstop hfirst => ?_, fun hnever => ?_⟩,
    fun handle hh tripAt queries k hk hq => ?_, fun queries handle tripAt => ?_,
    fun front query back k handle tripAt hk hfront hquery => ?_, fun _ _ _ _ => rfl⟩
  · rw [Index.searchWatched_of_stopped hq hk hn hstop hfirst]
  · rw [Index.searchWatched_of_not_stopped hq hk hnever]
  · refine ⟨_, Index.search_eq_ok hq hk, fun hnil => ?_, step_of_raised hc hh hq hk,
      fun hraised => ⟨fun i htrip hi => ?_, fun hlate => ?_⟩⟩
    · subst hnil
      rw [step_of_not_stopped hq hk fun n hn => absurd hn (Nat.not_lt_zero n),
        Index.search_eq_ok hq hk]
      rfl
    · subst htrip
      exact step_of_tripped hc hh hq hk hraised hi
    · rw [step_of_not_tripped hc hh hq hk hraised hlate, Index.search_eq_ok hq hk]
      rfl
  · exact step_of_search_error (s.index.search_zero queries)
  · have hmismatch := Index.mismatch?_append_cons hfront hquery back 0
    rw [Nat.zero_add] at hmismatch
    exact step_of_search_error (Index.search_eq_error hk hmismatch)

/-- A serial index for points of a line. -/
def emptyLine : Index := ⟨.l2, .count 1, .empty 1 Nat.one_pos⟩

/-- The second of three queries trips the switch, and the third one is not started; if the third
one trips it, the search goes through. -/
theorem interrupted_at_first_raised_line :
    let s := ((start emptyLine).run [.add [[0], [2]]]).2
    (s.step (.searchInterruptible [[0], [1], [2]] 1 0 (some 1))).1 = .error (.interrupted 2) ∧
      (s.step (.searchInterruptible [[0], [1], [2]] 1 0 (some 2))).1 =
        (s.index.search [[0], [1], [2]] 1).map .results := by
  have created : Index.create 1 .l2 (.count 1) = .ok emptyLine := rfl
  obtain ⟨_, hhandle, _⟩ := interrupted_at_first_raised created [.add [[0], [2]]]
  have hq : ∀ query ∈ [[(0 : Float32)], [1], [2]], query.length = 1 := by decide
  obtain ⟨_, _, _, _, htripped⟩ :=
    hhandle 0 (by decide) (some 1) [[0], [1], [2]] 1 (by decide) hq
  obtain ⟨_, hsearch, _, _, hlate⟩ :=
    hhandle 0 (by decide) (some 2) [[0], [1], [2]] 1 (by decide) hq
  refine ⟨(htripped rfl).1 1 rfl (by decide), ?_⟩
  rw [hsearch]
  exact (hlate rfl).2 (by decide)

end NeighborSearch.Session
