/-! Switches that stop a search, and the handles by which they are reached.

Every handle reaches one switch. A cloned handle reaches the same switch as the one it
was cloned from, so raising or lowering it through one of them shows at the other; a new
handle comes with a switch of its own, not raised. Handles are numbered as they are given
out, and a number that was not given out yet reaches nothing. -/
namespace NeighborSearch

structure Switchboard where
  /-- Whether each switch is raised. -/
  switches : Array Bool
  /-- The switch that each handle reaches. -/
  handles : Array Nat

namespace Switchboard

def empty : Switchboard := ⟨#[], #[]⟩

/-- A new handle with a switch of its own. -/
def create (b : Switchboard) : Switchboard :=
  ⟨b.switches.push false, b.handles.push b.switches.size⟩

/-- One more handle to the switch that a handle reaches. -/
def clone (b : Switchboard) (handle : Nat) : Switchboard :=
  match b.handles[handle]? with
  | some switch => { b with handles := b.handles.push switch }
  | none => b

def set (b : Switchboard) (handle : Nat) (raised : Bool) : Switchboard :=
  match b.handles[handle]? with
  | some switch => { b with switches := b.switches.setIfInBounds switch raised }
  | none => b

def raise (b : Switchboard) (handle : Nat) : Switchboard := b.set handle true

def lower (b : Switchboard) (handle : Nat) : Switchboard := b.set handle false

def switchRaised (b : Switchboard) (switch : Nat) : Bool := b.switches.getD switch false

def isRaised (b : Switchboard) (handle : Nat) : Bool :=
  match b.handles[handle]? with
  | some switch => b.switchRaised switch
  | none => false

/-- What each handle reports, in the order of the handles. -/
def status (b : Switchboard) : List Bool := b.handles.toList.map b.switchRaised

end Switchboard

end NeighborSearch
