import NeighborSearch.Interrupt

/-! Handles reach switches that are there.

A switchboard is connected (`Connected`) if no handle reaches beyond its switches. It is so when
it is empty, and every operation keeps it so. On a connected board a handle reports what was
last set through any handle to the same switch, and setting one switch leaves the others as they
are (`isRaised_set`). -/
namespace NeighborSearch.Switchboard

def Connected (b : Switchboard) : Prop :=
  ∀ switch ∈ b.handles, switch < b.switches.size

theorem connected_empty : empty.Connected := fun _ h => absurd h (Array.not_mem_empty _)

namespace Connected
variable {b : Switchboard}

theorem create (h : b.Connected) : b.create.Connected := by
  intro switch hswitch
  simp only [Switchboard.create, Array.mem_push, Array.size_push] at hswitch ⊢
  rcases hswitch with hswitch | rfl
  · exact Nat.lt_succ_of_lt (h switch hswitch)
  · exact Nat.lt_succ_self _

theorem clone (h : b.Connected) (handle : Nat) : (b.clone handle).Connected := by
  unfold Switchboard.clone
  split
  · rename_i switch hreached
    intro other hother
    rcases Array.mem_push.1 hother with hother | rfl
    · exact h other hother
    · exact h other (Array.mem_of_getElem? hreached)
  · exact h

theorem set (h : b.Connected) (handle : Nat) (raised : Bool) :
    (b.set handle raised).Connected := by
  unfold Switchboard.set
  split
  · intro switch hswitch
    rw [Array.size_setIfInBounds]
    exact h switch hswitch
  · exact h

end Connected

variable {b : Switchboard}

theorem handles_set (handle : Nat) (raised : Bool) :
    (b.set handle raised).handles = b.handles := by
  unfold Switchboard.set
  split <;> rfl

theorem switchRaised_set (hb : b.Connected) (handle : Nat) (raised : Bool) (switch : Nat) :
    (b.set handle raised).switchRaised switch =
      if b.handles[handle]? = some switch then raised else b.switchRaised switch := by
  unfold Switchboard.set
  cases hreached : b.handles[handle]? with
  | none => rfl
  | some reached =>
    have hlt := hb reached (Array.mem_of_getElem? hreached)
    simp only [switchRaised, Array.getD_eq_getD_getElem?, Array.getElem?_setIfInBounds,
      Option.some.injEq]
    by_cases hsame : reached = switch
    · subst hsame
      simp [hlt]
    · rw [if_neg hsame, if_neg hsame]

/-- Setting a switch shows at the handles that reach it, and at no others. -/
theorem isRaised_set (h : b.Connected) {handle switch : Nat}
    (hreached : b.handles[handle]? = some switch) (raised : Bool) (other : Nat) :
    (b.set handle raised).isRaised other =
      if b.handles[other]? = some switch then raised else b.isRaised other := by
  rw [isRaised, isRaised, handles_set]
  cases b.handles[other]? with
  | none => rfl
  | some switch' =>
    show (b.set handle raised).switchRaised switch' = _
    rw [switchRaised_set h, hreached]
    simp only [Option.some.injEq, eq_comm]

end NeighborSearch.Switchboard
