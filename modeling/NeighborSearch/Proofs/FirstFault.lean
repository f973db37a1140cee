import Mathlib.Data.List.Forall2
import NeighborSearch.Error

/-! The first element at fault.

Whatever goes through a list and refuses it names one element, the first one at fault
(`IsFirst`). Looking for an element gives the first one (`find?_eq_some_iff`), and going through
a list with an operation that may fail ends with the error of the first element for which it does
(`mapM_eq_error_iff`), or else has a result for every element (`mapM_eq_ok_iff`). -/
namespace NeighborSearch
variable {α β : Type}

/-- The element at this place has the property, and none before it has. -/
inductive IsFirst (p : α → Prop) : List α → Nat → α → Prop
  | here {x : α} {xs : List α} (hx : p x) : IsFirst p (x :: xs) 0 x
  | behind {x y : α} {xs : List α} {place : Nat} (hx : ¬ p x) (h : IsFirst p xs place y) :
      IsFirst p (x :: xs) (place + 1) y

namespace IsFirst
variable {p : α → Prop} {x y : α} {xs : List α} {place : Nat}

theorem holds (h : IsFirst p xs place y) : p y := by
  induction h with
  | here hx => exact hx
  | behind _ _ ih => exact ih

theorem getElem? (h : IsFirst p xs place y) : xs[place]? = some y := by
  induction h with
  | here _ => rfl
  | behind _ _ ih => exact ih

theorem append_cons {front : List α} (hfront : ∀ y ∈ front, ¬ p y) (hx : p x) (back : List α) :
    IsFirst p (front ++ x :: back) front.length x := by
  induction front with
  | nil => exact .here hx
  | cons y front ih =>
    exact .behind (hfront y (List.mem_cons_self ..))
      (ih fun z hz => hfront z (List.mem_cons_of_mem y hz))

theorem congr {q : α → Prop} (hpq : ∀ x, p x ↔ q x) (h : IsFirst p xs place y) :
    IsFirst q xs place y := by
  induction h with
  | here hx => exact .here ((hpq _).1 hx)
  | behind hx _ ih => exact .behind (fun hq => hx ((hpq _).2 hq)) ih

end IsFirst

variable {p : α → Prop} {x y : α} {xs : List α}

/-- There is a first element with the property if there is any. -/
theorem exists_isFirst_iff : (∃ place x, IsFirst p xs place x) ↔ ∃ x ∈ xs, p x := by
  constructor
  · rintro ⟨place, x, h⟩
    exact ⟨x, List.mem_of_getElem? h.getElem?, h.holds⟩
  · induction xs with
    | nil => exact fun ⟨_, h, _⟩ => absurd h List.not_mem_nil
    | cons x xs ih =>
      intro hany
      by_cases hx : p x
      · exact ⟨0, x, .here hx⟩
      · obtain ⟨place, y, h⟩ := ih (((List.exists_mem_cons_iff ..).1 hany).resolve_left hx)
        exact ⟨place + 1, y, .behind hx h⟩

theorem find?_eq_some_iff {q : α → Bool} :
    xs.find? q = some y ↔ ∃ place, IsFirst (fun x => q x = true) xs place y := by
  constructor
  · induction xs with
    | nil => exact nofun
    | cons x xs ih =>
      intro hfind
      by_cases hx : q x = true
      · rw [List.find?_cons_of_pos hx] at hfind
        exact ⟨0, Option.some.inj hfind ▸ .here hx⟩
      · rw [List.find?_cons_of_neg hx] at hfind
        obtain ⟨place, h⟩ := ih hfind
        exact ⟨place + 1, .behind hx h⟩
  · rintro ⟨place, h⟩
    induction h with
    | here hx => exact List.find?_cons_of_pos hx
    | behind hx _ ih => exact (List.find?_cons_of_neg hx).trans ih

/-! ### Operations that may fail -/

variable {f : α → Outcome β} {z : β} {ys : List β} {e : SearchError}

theorem bind_eq_error_iff {outcome : Outcome α} :
    outcome >>= f = .error e ↔
      outcome = .error e ∨ ∃ a, outcome = .ok a ∧ f a = .error e := by
  cases outcome with
  | error e' =>
    constructor
    · rintro ⟨⟩
      exact .inl rfl
    · rintro (⟨⟨⟩⟩ | ⟨_, h, _⟩)
      · rfl
      · cases h
  | ok a =>
    constructor
    · exact fun h => .inr ⟨a, rfl, h⟩
    · rintro (h | ⟨_, ⟨⟩, h⟩)
      · cases h
      · exact h

theorem mapM_cons_of_ok (hx : f x = .ok z) : (x :: xs).mapM f = (xs.mapM f).map (z :: ·) := by
  rw [List.mapM_cons, hx]
  cases xs.mapM f <;> rfl

theorem mapM_cons_of_error (hx : f x = .error e) : (x :: xs).mapM f = .error e := by
  rw [List.mapM_cons, hx]
  rfl

theorem mapM_eq_ok_iff : xs.mapM f = .ok ys ↔ List.Forall₂ (fun x y => f x = .ok y) xs ys := by
  constructor
  · induction xs generalizing ys with
    | nil =>
      rintro ⟨⟩
      exact .nil
    | cons x xs ih =>
      intro h
      cases hx : f x with
      | error e =>
        rw [mapM_cons_of_error hx] at h
        cases h
      | ok z =>
        rw [mapM_cons_of_ok hx] at h
        cases hxs : xs.mapM f with
        | error e =>
          rw [hxs] at h
          cases h
        | ok zs =>
          rw [hxs] at h
          cases h
          exact .cons hx (ih hxs)
  · intro h
    induction h with
    | nil => rfl
    | cons hx _ ih =>
      rw [mapM_cons_of_ok hx, ih]
      rfl

theorem mapM_eq_error_iff : xs.mapM f = .error e ↔
    ∃ place x, IsFirst (fun x => ∃ e, f x = .error e) xs place x ∧ f x = .error e := by
  constructor
  · induction xs with
    | nil => exact nofun
    | cons x xs ih =>
      intro h
      cases hx : f x with
      | error e' =>
        rw [mapM_cons_of_error hx] at h
        cases h
        exact ⟨0, x, .here ⟨_, hx⟩, hx⟩
      | ok z =>
        rw [mapM_cons_of_ok hx] at h
        cases hxs : xs.mapM f with
        | error e' =>
          rw [hxs] at h
          cases h
          obtain ⟨place, y, hy, hfault⟩ := ih hxs
          exact ⟨place + 1, y, .behind (fun ⟨_, he⟩ => nomatch hx.symm.trans he) hy, hfault⟩
        | ok zs =>
          rw [hxs] at h
          cases h
  · rintro ⟨place, y, hy, hfault⟩
    induction hy with
    | here _ => exact mapM_cons_of_error hfault
    | @behind x _ _ _ hx _ ih =>
      cases hfine : f x with
      | error e' => exact absurd ⟨e', hfine⟩ hx
      | ok z =>
        rw [mapM_cons_of_ok hfine, ih hfault]
        rfl

end NeighborSearch
