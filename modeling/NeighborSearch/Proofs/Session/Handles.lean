import NeighborSearch.Proofs.Interrupt.History
import NeighborSearch.Proofs.Session.Refusals

/-! What the handles of a session report.

A step does at most one thing to handles (`event?`): a search raises the switch of its handle if
the query that trips it was answered. So the switches of a session are told by what its steps did
to handles (`flags_run`), and each handle reports what was last done to a handle of its class
(`handles_share_along_clones`). -/
namespace NeighborSearch.Session
open Switchboard (Event History)
open Switchboard.History (handleCount Akin reported)

/-- How many queries were answered in a search that ended so. -/
def answered (queries : List Row) : Outcome Answer → Nat
  | .ok _ => queries.length
  | .error (.interrupted completed) => completed
  | .error _ => 0

/-- What a step does to handles. -/
def event? (s : Session) (next : Step) : Option Event :=
  match next with
  | .newHandle => some .create
  | .cloneHandle handle => some (.clone handle)
  | .raiseHandle handle => some (.set handle true)
  | .lowerHandle handle => some (.set handle false)
  | .searchInterruptible queries _ handle (some i) =>
    if i < answered queries (s.step next).1 then some (.set handle true) else none
  | _ => none

/-- What steps do to handles, behind what was done before. -/
def history (past : History) (s : Session) : List Step → History
  | [] => past
  | next :: rest => history ((s.event? next).toList ++ past) (s.step next).2 rest

/-! ### One step -/

variable {s : Session} {queries : List Row} {k handle : Nat}

/-- A query that trips the switch raises it if the query is answered. -/
theorem flags_searchInterruptible (s : Session) (queries : List Row) (k handle : Nat)
    (tripAt : Option Nat) :
    let found := s.step (.searchInterruptible queries k handle tripAt)
    found.2.flags =
      if tripAt.any (· < answered queries found.1) then s.flags.raise handle else s.flags := by
  rw [step_searchInterruptible]
  cases hcheck : s.index.checkSearch queries k with
  | error e =>
    have hnone : answered queries (.error e) = 0 := by
      obtain _ | ⟨_, ⟨_⟩⟩ := Index.checkSearch_eq_error_iff.1 hcheck <;> rfl
    simp only [Index.searchWatched_of_checkSearch_error hcheck]
    show s.flags = if tripAt.any (· < answered queries (.error e)) then _ else _
    rw [hnone]
    cases tripAt <;> rfl
  | ok _ =>
    obtain ⟨hk, hq⟩ := Index.checkSearch_eq_ok_iff.1 hcheck
    simp only [Index.searchWatched_eq hq hk, Index.search_eq_ok hq hk]
    cases (handleWatch handle tripAt).firstStop? s.flags queries.length with
    | some n => exact before_handleWatch handle tripAt s.flags n
    | none => exact before_handleWatch handle tripAt s.flags queries.length

theorem flags_step (s : Session) (next : Step) :
    (s.step next).2.flags = (s.event? next).elim s.flags s.flags.apply := by
  have hadded : ∀ outcome : Outcome Index, (s.added outcome).2.flags = s.flags := by
    intro outcome
    cases outcome <;> rfl
  cases next with
  | add rows => exact hadded _
  | addText rows => exact hadded _
  | addFlat values => exact hadded _
  | addSynthetic source => exact hadded _
  | searchInterruptible queries k handle tripAt =>
    refine (flags_searchInterruptible s queries k handle tripAt).trans ?_
    cases tripAt with
    | none => rfl
    | some i =>
      rw [event?]
      simp only [Option.any_some, decide_eq_true_eq]
      split <;> rfl
  | _ => rfl

/-! ### Runs -/

theorem flags_run {past : History} (h : s.flags = Switchboard.replay past) (steps : List Step) :
    (s.run steps).2.flags = Switchboard.replay (s.history past steps) := by
  induction steps generalizing s past with
  | nil => exact h
  | cons next rest ih =>
    have hstep : (s.step next).2.flags =
        Switchboard.replay ((s.event? next).toList ++ past) := by
      rw [flags_step, h]
      cases s.event? next <;> rfl
    exact ih hstep

/-- **Handles share their switch along cloning, and with nobody else.** After any steps every
handle reports what was last done to a handle of its class: raised by hand or by the query of a
search, lowered, or nothing at all. A step that sets no handle of the class does not show at it,
and no search ever lowers a handle, however it ends. -/
theorem handles_share_along_clones (index : Index) (steps : List Step) :
    let s := ((start index).run steps).2
    let past := (start index).history [.create] steps
    s.flags.status = (List.range (handleCount past)).map (reported past) ∧
      (∀ handle < handleCount past, s.flags.isRaised handle = reported past handle) ∧
      (∀ next, ∀ handle < handleCount past,
        (∀ other raised, s.event? next = some (.set other raised) → ¬ Akin past handle other) →
          (s.step next).2.flags.isRaised handle = s.flags.isRaised handle) ∧
      ∀ queries k handle tripAt other, s.flags.isRaised other = true →
        (s.step (.searchInterruptible queries k handle tripAt)).2.flags.isRaised other = true := by
  intro s past
  have hflags : s.flags = Switchboard.replay past := flags_run rfl steps
  have hraised : ∀ handle < handleCount past, s.flags.isRaised handle = reported past handle := by
    rw [hflags]
    exact fun _ => Switchboard.isRaised_replay
  refine ⟨?_, hraised, fun next handle hhandle hapart => ?_,
    fun queries k handle tripAt other hother => ?_⟩
  · rw [Switchboard.status_eq, hflags, Switchboard.size_handles_replay, ← hflags]
    exact List.map_congr_left fun handle hhandle => hraised handle (List.mem_range.1 hhandle)
  · rw [flags_step]
    cases hevent : s.event? next with
    | none => rfl
    | some event =>
      rw [Option.elim_some, hflags]
      exact Switchboard.isRaised_apart hhandle fun other raised heq =>
        hapart other raised (hevent.trans (congrArg some heq))
  · rw [flags_searchInterruptible]
    split
    · rw [Switchboard.raise]
      cases hreached : s.flags.handles[handle]? with
      | none => rwa [Switchboard.set, hreached]
      | some switch =>
        rw [Switchboard.isRaised_set (hflags ▸ Switchboard.connected_replay past) hreached, hother,
          ite_self]
    · exact hother

/-- Two clones of the first handle, one of them a clone of a clone, and a handle of its own: what
is done to the one class does not show at the other. -/
theorem handles_share_along_clones_two_classes :
    let steps : List Step := [.cloneHandle 0, .newHandle, .raiseHandle 1, .cloneHandle 1,
      .searchInterruptible [[0], [1]] 1 2 (some 1), .lowerHandle 3]
    let s := ((start emptyLine).run steps).2
    s.flags.status = [false, false, true, false] ∧ s.flags.isRaised 2 = true ∧
      (s.step (.raiseHandle 0)).2.flags.isRaised 2 = true := by
  intro steps s
  obtain ⟨hstatus, hraised, hapart, _⟩ := handles_share_along_clones emptyLine steps
  have hpast : (start emptyLine).history [.create] steps =
      [.set 3 false, .set 2 true, .clone 1, .set 1 true, .create, .clone 0, .create] := by
    decide +kernel
  rw [hpast] at hstatus hraised hapart
  have htwo : s.flags.isRaised 2 = true := (hraised 2 (by decide)).trans (by decide)
  refine ⟨hstatus.trans (by decide), htwo, (hapart (.raiseHandle 0) 2 (by decide) ?_).trans htwo⟩
  rintro other raised ⟨⟩
  decide

end NeighborSearch.Session
