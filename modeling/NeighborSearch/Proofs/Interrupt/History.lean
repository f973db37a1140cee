import Mathlib.Logic.Relation
import NeighborSearch.Proofs.Interrupt

/-! Handles share a switch along cloning.

A history is what was done to handles, the latest event first, and `replay` is the switchboard that
it leaves. The history alone says which handles belong together: those that chains of clones
connect (`Akin`), which is to say those that stem from the same new handle (`akin_iff`). It also
says what a handle has to report: what was last set through a handle of its class, and nothing
raised if nothing was set (`reported`). The switchboard keeps no classes, but two handles reach one
switch exactly if they belong together (`reaches_same_iff`), so every handle reports what it has to
(`isRaised_replay`). -/
namespace NeighborSearch.Switchboard

inductive Event where
  | create
  | clone (parent : Nat)
  | set (handle : Nat) (raised : Bool)
deriving DecidableEq

/-- The latest event first. -/
abbrev History := List Event

def apply (b : Switchboard) : Event → Switchboard
  | .create => b.create
  | .clone parent => b.clone parent
  | .set handle raised => b.set handle raised

/-- The switchboard that a history leaves. -/
def replay : History → Switchboard
  | [] => empty
  | event :: past => (replay past).apply event

/-! ### What a history says of handles -/

namespace History

/-- How many handles were given out. A handle that is not there cannot be cloned. -/
def handleCount : History → Nat
  | [] => 0
  | .create :: past => handleCount past + 1
  | .clone parent :: past =>
    if parent < handleCount past then handleCount past + 1 else handleCount past
  | .set _ _ :: past => handleCount past

/-- The second handle is a clone of the first one. -/
inductive Cloned : History → Nat → Nat → Prop
  | now {past : History} {parent : Nat} (h : parent < handleCount past) :
      Cloned (.clone parent :: past) parent (handleCount past)
  | before {event : Event} {past : History} {parent child : Nat} (h : Cloned past parent child) :
      Cloned (event :: past) parent child

/-- Chains of clones connect the two handles. -/
def Akin (history : History) : Nat → Nat → Prop := Relation.EqvGen (Cloned history)

/-- The new handle from which a handle stems, over all the clones in between. -/
def origin : History → Nat → Nat
  | [], handle => handle
  | .clone parent :: past, handle =>
    if parent < handleCount past ∧ handle = handleCount past then origin past parent
    else origin past handle
  | .create :: past, handle | .set _ _ :: past, handle => origin past handle

variable {history past : History} {event : Event} {handle other parent child : Nat}

theorem handleCount_le (event : Event) (past : History) :
    handleCount past ≤ handleCount (event :: past) := by
  cases event with
  | create => exact Nat.le_succ _
  | set _ _ => exact Nat.le_refl _
  | clone parent =>
    rw [handleCount]
    split
    · exact Nat.le_succ _
    · exact Nat.le_refl _

/-! ### Clones -/

theorem Cloned.parent_lt_child (h : Cloned history parent child) : parent < child := by
  induction h with
  | now h => exact h
  | before _ ih => exact ih

theorem Cloned.child_lt (h : Cloned history parent child) : child < handleCount history := by
  induction h with
  | @now past parent h =>
    rw [handleCount, if_pos h]
    exact Nat.lt_succ_self _
  | before _ ih => exact Nat.lt_of_lt_of_le ih (handleCount_le _ _)

theorem Akin.before (h : Akin past handle other) : Akin (event :: past) handle other :=
  Relation.EqvGen.mono (fun _ _ => Cloned.before) _ _ h

/-! ### Where handles stem from -/

/-- What comes later does not change it. -/
theorem origin_cons (event : Event) (h : handle < handleCount past) :
    origin (event :: past) handle = origin past handle := by
  cases event with
  | create => rfl
  | set _ _ => rfl
  | clone parent => exact if_neg fun hnew => Nat.ne_of_lt h hnew.2

theorem origin_le (history : History) (handle : Nat) : origin history handle ≤ handle := by
  induction history generalizing handle with
  | nil => exact Nat.le_refl handle
  | cons event past ih =>
    cases event with
    | create => exact ih handle
    | set _ _ => exact ih handle
    | clone parent =>
      rw [origin]
      split
      · rename_i hnew
        have hparent := ih parent
        omega
      · exact ih handle

/-- A handle that was not given out yet stems from nothing but itself. -/
theorem origin_of_le (h : handleCount history ≤ handle) : origin history handle = handle := by
  induction history with
  | nil => rfl
  | cons event past ih =>
    have hpast := ih (Nat.le_trans (handleCount_le event past) h)
    cases event with
    | create => exact hpast
    | set _ _ => exact hpast
    | clone parent =>
      rw [origin, if_neg, hpast]
      rintro ⟨hparent, rfl⟩
      rw [handleCount, if_pos hparent] at h
      omega

theorem Cloned.origin_eq (h : Cloned history parent child) :
    origin history parent = origin history child := by
  induction h with
  | now h => rw [origin_cons _ h, origin, if_pos ⟨h, rfl⟩]
  | @before event past parent child h ih =>
    rw [origin_cons event (Nat.lt_trans h.parent_lt_child h.child_lt),
      origin_cons event h.child_lt, ih]

theorem akin_origin (history : History) (handle : Nat) :
    Akin history (origin history handle) handle := by
  induction history generalizing handle with
  | nil => exact .refl handle
  | cons event past ih =>
    cases event with
    | create => exact (ih handle).before
    | set _ _ => exact (ih handle).before
    | clone parent =>
      rw [origin]
      split
      · rename_i hnew
        obtain ⟨hparent, rfl⟩ := hnew
        exact (ih parent).before.trans _ _ _ (.rel _ _ (.now hparent))
      · exact (ih handle).before

/-- Handles belong together if and only if they stem from the same new one. -/
theorem akin_iff : Akin history handle other ↔ origin history handle = origin history other := by
  constructor
  · intro h
    induction h with
    | rel _ _ h => exact h.origin_eq
    | refl _ => rfl
    | symm _ _ _ ih => exact ih.symm
    | trans _ _ _ _ _ ih ih' => exact ih.trans ih'
  · intro h
    have hother := akin_origin history other
    rw [← h] at hother
    exact ((akin_origin history handle).symm _ _).trans _ _ _ hother

instance (history : History) (handle other : Nat) : Decidable (Akin history handle other) :=
  decidable_of_iff _ akin_iff.symm

/-! ### What handles have to report -/

/-- What was last set through one of these handles. -/
def lastSet? (among : Nat → Bool) : History → Option Bool
  | [] => none
  | .set handle raised :: past =>
    if handle < handleCount past ∧ among handle = true then some raised else lastSet? among past
  | .create :: past | .clone _ :: past => lastSet? among past

/-- What was last set through a handle that belongs together with this one, and nothing raised if
nothing was set. -/
def reported (history : History) (handle : Nat) : Bool :=
  (lastSet? (fun other => Akin history handle other) history).getD false

end History

open History (handleCount origin origin_cons origin_le origin_of_le handleCount_le Cloned Akin
  lastSet? reported)

/-! ### What the switchboard keeps -/

variable {b : Switchboard} {history past : History} {event : Event} {handle other switch : Nat}

theorem connected_replay (history : History) : (replay history).Connected := by
  induction history with
  | nil => exact connected_empty
  | cons event past ih =>
    cases event with
    | create => exact ih.create
    | clone parent => exact ih.clone parent
    | set handle raised => exact ih.set handle raised

theorem handles_clone (h : handle < b.handles.size) :
    (b.clone handle).handles = b.handles.push b.handles[handle] := by
  rw [Switchboard.clone, Array.getElem?_eq_getElem h]

theorem clone_of_le (h : b.handles.size ≤ handle) : b.clone handle = b := by
  rw [Switchboard.clone, Array.getElem?_eq_none h]

@[simp] theorem size_handles_replay (history : History) :
    (replay history).handles.size = handleCount history := by
  induction history with
  | nil => rfl
  | cons event past ih =>
    cases event with
    | create => rw [replay, apply, create, Array.size_push, ih, handleCount]
    | set _ _ => rw [replay, apply, handles_set, ih, handleCount]
    | clone parent =>
      rw [replay, apply, handleCount]
      split
      · rename_i h
        rw [handles_clone (by rwa [ih]), Array.size_push, ih]
      · rename_i h
        rw [clone_of_le (by rw [ih]; omega), ih]

/-- A handle that was given out goes on reaching its switch. -/
theorem getElem?_handles_apply (event : Event) (h : handle < b.handles.size) :
    (b.apply event).handles[handle]? = b.handles[handle]? := by
  cases event with
  | create => rw [apply, create, Array.getElem?_push_lt h, Array.getElem?_eq_getElem h]
  | set other raised => rw [apply, handles_set]
  | clone parent =>
    rw [apply]
    rcases Nat.lt_or_ge parent b.handles.size with hparent | hparent
    · rw [handles_clone hparent, Array.getElem?_push_lt h, Array.getElem?_eq_getElem h]
    · rw [clone_of_le hparent]

/-- A new handle reaches a switch of its own, and stems from no other handle. -/
theorem create_apart (h : handle < handleCount past) :
    (replay (.create :: past)).handles[handle]? ≠
        (replay (.create :: past)).handles[handleCount past]? ∧
      origin (.create :: past) handle ≠ origin (.create :: past) (handleCount past) := by
  have hsize := size_handles_replay past
  rw [← hsize] at h
  constructor
  · rw [replay, apply, create, ← hsize, Array.getElem?_push_lt h, Array.getElem?_push_size, ne_eq,
      Option.some.injEq]
    exact Nat.ne_of_lt (connected_replay past _ (Array.getElem_mem h))
  · rw [origin, origin, origin_of_le (Nat.le_refl _)]
    have hle := origin_le past handle
    omega

/-- A clone goes with the handle that it was cloned from. -/
theorem clone_together {parent : Nat} (hparent : parent < handleCount past)
    (h : handle < handleCount (.clone parent :: past)) :
    ∃ old < handleCount past,
      (replay (.clone parent :: past)).handles[handle]? =
          (replay (.clone parent :: past)).handles[old]? ∧
        origin (.clone parent :: past) handle = origin (.clone parent :: past) old := by
  rw [handleCount, if_pos hparent] at h
  rcases Nat.lt_succ_iff_lt_or_eq.1 h with h | rfl
  · exact ⟨handle, h, rfl, rfl⟩
  · have hsize := size_handles_replay past
    refine ⟨parent, hparent, ?_, (Cloned.now hparent).origin_eq.symm⟩
    rw [← hsize] at hparent
    rw [replay, getElem?_handles_apply _ hparent, apply, handles_clone hparent, ← hsize,
      Array.getElem?_push_size, Array.getElem?_eq_getElem hparent]

/-- **Two handles reach one switch if and only if they stem from one new handle.** -/
theorem reaches_same_iff (hhandle : handle < handleCount history)
    (hother : other < handleCount history) :
    (replay history).handles[handle]? = (replay history).handles[other]? ↔
      origin history handle = origin history other := by
  induction history generalizing handle other with
  | nil => exact absurd hhandle (Nat.not_lt_zero handle)
  | cons event past ih =>
    have hold : ∀ x < handleCount past, ∀ y < handleCount past,
        ((replay (event :: past)).handles[x]? = (replay (event :: past)).handles[y]? ↔
          origin (event :: past) x = origin (event :: past) y) := by
      intro x hx y hy
      rw [origin_cons event hx, origin_cons event hy, ← ih hx hy, replay,
        getElem?_handles_apply event (by rwa [size_handles_replay]),
        getElem?_handles_apply event (by rwa [size_handles_replay])]
    cases event with
    | set _ _ => exact hold handle hhandle other hother
    | create =>
      rcases Nat.lt_succ_iff_lt_or_eq.1 hhandle with hhandle | rfl <;>
        rcases Nat.lt_succ_iff_lt_or_eq.1 hother with hother | rfl
      · exact hold handle hhandle other hother
      · exact iff_of_false (create_apart hhandle).1 (create_apart hhandle).2
      · exact iff_of_false (create_apart hother).1.symm (create_apart hother).2.symm
      · exact iff_of_true rfl rfl
    | clone parent =>
      by_cases hparent : parent < handleCount past
      · obtain ⟨x, hx, hreach, horigin⟩ := clone_together hparent hhandle
        obtain ⟨y, hy, hreach', horigin'⟩ := clone_together hparent hother
        rw [hreach, horigin, hreach', horigin']
        exact hold x hx y hy
      · rw [handleCount, if_neg hparent] at hhandle hother
        exact hold handle hhandle other hother

/-! ### What handles report -/

theorem switchRaised_create (b : Switchboard) (switch : Nat) :
    b.create.switchRaised switch = b.switchRaised switch := by
  simp only [create, switchRaised, Array.getD_eq_getD_getElem?, Array.getElem?_push]
  split
  · rename_i h
    rw [h, Array.getElem?_eq_none (Nat.le_refl _)]
    rfl
  · rfl

theorem switchRaised_clone (b : Switchboard) (handle switch : Nat) :
    (b.clone handle).switchRaised switch = b.switchRaised switch := by
  unfold Switchboard.clone
  split <;> rfl

theorem status_eq (b : Switchboard) :
    b.status = (List.range b.handles.size).map b.isRaised := by
  apply List.ext_getElem
  · simp [status]
  · intro handle h _
    have hhandle : handle < b.handles.size := by simpa [status] using h
    simp [status, isRaised, hhandle]

/-- A switch is as it was last set through one of the handles that reach it. -/
theorem switchRaised_replay {among : Nat → Bool}
    (hamong : ∀ handle < handleCount history,
      among handle = true ↔ (replay history).handles[handle]? = some switch) :
    (replay history).switchRaised switch = (lastSet? among history).getD false := by
  induction history with
  | nil => rfl
  | cons event past ih =>
    have hpast : ∀ handle < handleCount past,
        among handle = true ↔ (replay past).handles[handle]? = some switch := by
      intro handle hhandle
      rw [hamong handle (Nat.lt_of_lt_of_le hhandle (handleCount_le event past)), replay,
        getElem?_handles_apply event (by rwa [size_handles_replay])]
    cases event with
    | create => exact (switchRaised_create _ _).trans (ih hpast)
    | clone parent => exact (switchRaised_clone _ _ _).trans (ih hpast)
    | set handle raised =>
      rw [replay, apply, switchRaised_set (connected_replay past), lastSet?]
      by_cases hhandle : handle < handleCount past
      · by_cases hset : among handle = true
        · rw [if_pos ((hpast handle hhandle).1 hset), if_pos ⟨hhandle, hset⟩, Option.getD_some]
        · rw [if_neg fun h => hset ((hpast handle hhandle).2 h), if_neg fun h => hset h.2, ih hpast]
      · rw [Array.getElem?_eq_none (by rw [size_handles_replay]; omega), if_neg nofun,
          if_neg fun h => hhandle h.1, ih hpast]

/-- **Every handle reports what was last set through a handle of its class.** -/
theorem isRaised_replay (h : handle < handleCount history) :
    (replay history).isRaised handle = reported history handle := by
  have hreached := Array.getElem?_eq_getElem (show handle < (replay history).handles.size by simpa)
  rw [isRaised, hreached, reported]
  refine switchRaised_replay fun other hother => ?_
  rw [← hreached, reaches_same_iff hother h, decide_eq_true_eq, History.akin_iff, eq_comm]

/-- What is set through other classes does not show at a handle. -/
theorem isRaised_apart {event : Event} (h : handle < handleCount past)
    (hapart : ∀ other raised, event = .set other raised → ¬ Akin past handle other) :
    (replay (event :: past)).isRaised handle = (replay past).isRaised handle := by
  have hsize := size_handles_replay past
  have hthere : handle < (replay past).handles.size := by rwa [hsize]
  have hreached := Array.getElem?_eq_getElem hthere
  have hkept := getElem?_handles_apply event hthere
  rw [isRaised, isRaised, replay, hkept, hreached]
  cases event with
  | create => exact switchRaised_create _ _
  | clone parent => exact switchRaised_clone _ _ _
  | set other raised =>
    refine (switchRaised_set (connected_replay past) other raised _).trans (if_neg fun hother => ?_)
    have hlt : other < handleCount past := by
      rw [← hsize]
      exact (Array.getElem?_eq_some_iff.1 hother).1
    rw [← hreached, reaches_same_iff hlt h, ← History.akin_iff] at hother
    exact hapart other raised rfl (hother.symm _ _)

end NeighborSearch.Switchboard
