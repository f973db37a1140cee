import NeighborSearch.Command.Execute
import NeighborSearch.Proofs.Decimal.Fixed
import NeighborSearch.Proofs.Text.Pieces

/-! Printed lines.

A text is made of lines if each of them is ended and none of them is broken (`Printed`). Tabs and
line ends come before the space in the order of characters, and nothing that numbers are written
with does (`plain_repr`, `Shows.plain`). So lines of words and numbers stay whole when they are
printed one after the other (`printed_joinLines`). -/
namespace NeighborSearch

namespace Text

/-- A text is made of these lines, each of them ended and none of them broken. -/
def Printed (lines : List String) (text : String) : Prop :=
  SetOff '\n' (lines.map String.toList ++ [[]]) text.toList

theorem printed_joinLines {lines : List String} (h : ∀ line ∈ lines, '\n' ∉ line.toList) :
    Printed lines (Command.joinLines lines) := by
  have htext : (Command.joinLines lines).toList =
      (lines.map String.toList).flatMap (· ++ ['\n']) := by
    rw [Command.joinLines, String.toList_join, List.flatMap_map, List.flatMap_map]
    simp only [String.toList_append]
    rfl
  rw [Printed, htext]
  exact setOff_ended (List.forall_mem_map.2 h)

/-- The lines tell the whole text. -/
theorem Printed.eq_join {lines : List String} {text : String} (h : Printed lines text) :
    text = String.join (lines.map (· ++ "\n")) := by
  rw [← String.toList_inj, h.eq_flatMap, String.toList_join, List.flatMap_map, List.flatMap_map]
  simp only [String.toList_append]
  rfl

/-! ### Texts on one line -/

/-- No character comes before the space, as tabs and line ends do. -/
def Plain (text : List Char) : Prop := ∀ c ∈ text, ' '.toNat ≤ c.toNat

instance (text : List Char) : Decidable (Plain text) :=
  List.decidableBAll (fun c : Char => ' '.toNat ≤ c.toNat) text

theorem Plain.not_mem {text : List Char} {c : Char} (h : Plain text) (hc : c.toNat < ' '.toNat) :
    c ∉ text :=
  fun hmem => absurd (h c hmem) (Nat.not_le.2 hc)

@[simp]
theorem plain_append {s t : List Char} : Plain (s ++ t) ↔ Plain s ∧ Plain t :=
  List.forall_mem_append

/-! ### Numbers -/

theorem plain_repr (n : Nat) : Plain n.repr.toList := by
  intro c hc
  rw [Nat.toList_repr] at hc
  have hdigit := Nat.isDigit_of_mem_toDigits (by decide) (by decide) hc
  rw [Char.isDigit, Bool.and_eq_true, decide_eq_true_eq] at hdigit
  have hzero : '0'.toNat ≤ c.toNat := hdigit.1
  exact Nat.le_trans (by decide) hzero

theorem plain_leftpad {c : Char} (hc : ' '.toNat ≤ c.toNat) (columns n : Nat) :
    Plain (String.leftpad columns c (toString n)).toList := by
  rw [String.leftpad, String.toList_ofList]
  exact plain_append.2 ⟨List.forall_mem_replicate.2 (.inr hc), plain_repr n⟩

end Text

theorem Decimal.Shows.plain {f : Binary.Format} {places : Nat} {x : Binary.Number} {text : String}
    (h : Decimal.Shows f places x text) : Text.Plain text.toList := by
  cases h with
  | nan => decide
  | infinity => decide
  | negativeInfinity => decide
  | @finite negative magnitude units _ =>
    have hsign : Text.Plain (if negative then "-" else "").toList := by cases negative <;> decide
    have hwhole : Text.Plain (toString (units / 10 ^ places)).toList := Text.plain_repr _
    have hpoint : Text.Plain ".".toList := by decide
    have hplaces := Text.plain_leftpad (show ' '.toNat ≤ '0'.toNat by decide) places
      (units % 10 ^ places)
    rw [String.toList_append, String.toList_append, String.toList_append]
    simp only [Text.plain_append, hsign, hwhole, hpoint, hplaces, and_self]

end NeighborSearch
