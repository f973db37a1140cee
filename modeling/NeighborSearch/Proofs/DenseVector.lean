import NeighborSearch.DenseVector
import NeighborSearch.Proofs.Decimal.Literal
import NeighborSearch.Proofs.FirstFault
import NeighborSearch.Proofs.Text.Pieces

/-! Which texts are vectors.

Every item has to hold a literal (`Holds`), and the first one that does not is the one an error
names. What is read of a text is read of its items one by one, so that a comma between two texts
puts their vectors together (`parse_append_cons`). -/
namespace NeighborSearch.DenseVector
open Text Decimal
variable {item : List Char} {x : Float32} {e : SearchError} {s : List Char} {v : DenseVector}

/-- Without the blanks at both its ends, the item spells the literal. -/
def Holds (item : List Char) (l : Literal) : Prop :=
  ∃ core, Stripped item core ∧ Literal.Spells l core

/-- The item holds a literal of this value. -/
def Gives (item : List Char) (x : Float32) : Prop := ∃ l, Holds item l ∧ x = l.toSingle

/-! ### Items -/

theorem read?_trim_eq_some_iff {l : Literal} :
    Literal.read? (trim item) = some l ↔ Holds item l := by
  rw [Literal.read?_eq_some_iff]
  constructor
  · exact fun h => ⟨trim item, stripped_trim item, h⟩
  · rintro ⟨core, hcore, h⟩
    rwa [← hcore.eq_trim]

theorem readItem_eq_ok_iff : readItem item = .ok x ↔ Gives item x := by
  rw [readItem]
  constructor
  · intro h
    split at h
    · next l hl =>
      cases h
      exact ⟨l, read?_trim_eq_some_iff.1 hl, rfl⟩
    · cases h
  · rintro ⟨l, hl, rfl⟩
    rw [read?_trim_eq_some_iff.2 hl]

theorem readItem_eq_error_iff :
    readItem item = .error e ↔ (¬ ∃ l, Holds item l) ∧ e = .invalidVector (trim item) := by
  rw [readItem]
  constructor
  · intro h
    split at h
    · cases h
    · next hnone =>
      cases h
      refine ⟨?_, rfl⟩
      rintro ⟨l, hl⟩
      exact nomatch hnone.symm.trans (read?_trim_eq_some_iff.2 hl)
  · rintro ⟨hnone, rfl⟩
    split
    · next l hl => exact absurd ⟨l, read?_trim_eq_some_iff.1 hl⟩ hnone
    · rfl

/-! ### Vectors -/

theorem parse_eq_map (s : List Char) : parse s = ((pieces ',' s).mapM readItem).map mk := by
  rw [parse]
  cases (pieces ',' s).mapM readItem <;> rfl

theorem parse_eq_ok_iff : parse s = .ok v ↔ List.Forall₂ Gives (pieces ',' s) v.components := by
  have hitems : (pieces ',' s).mapM readItem = .ok v.components ↔
      List.Forall₂ Gives (pieces ',' s) v.components := by
    simp only [mapM_eq_ok_iff, readItem_eq_ok_iff]
  rw [parse_eq_map, ← hitems]
  cases (pieces ',' s).mapM readItem with
  | error e => exact ⟨nofun, nofun⟩
  | ok xs =>
    constructor
    · rintro ⟨⟩
      rfl
    · rintro ⟨⟩
      rfl

theorem parse_eq_error_iff : parse s = .error e ↔
    ∃ place item, IsFirst (fun item => ¬ ∃ l, Holds item l) (pieces ',' s) place item ∧
      e = .invalidVector (trim item) := by
  have hfault (item : List Char) : (∃ e, readItem item = .error e) ↔ ¬ ∃ l, Holds item l := by
    simp only [readItem_eq_error_iff, exists_and_left, exists_eq, and_true]
  have hitems : parse s = .error e ↔ (pieces ',' s).mapM readItem = .error e := by
    rw [parse_eq_map]
    cases (pieces ',' s).mapM readItem with
    | error e => exact ⟨fun h => by cases h; rfl, fun h => by cases h; rfl⟩
    | ok xs => exact ⟨nofun, nofun⟩
  rw [hitems, mapM_eq_error_iff]
  constructor
  · rintro ⟨place, item, hfirst, hitem⟩
    exact ⟨place, item, hfirst.congr hfault, (readItem_eq_error_iff.1 hitem).2⟩
  · rintro ⟨place, item, hfirst, he⟩
    exact ⟨place, item, hfirst.congr fun item => (hfault item).symm,
      readItem_eq_error_iff.2 ⟨hfirst.holds, he⟩⟩

theorem parse_append_cons (s t : List Char) :
    parse (s ++ ',' :: t) = do
      return ⟨(← parse s).components ++ (← parse t).components⟩ := by
  simp only [parse_eq_map, pieces_append_cons, List.mapM_append]
  cases (pieces ',' s).mapM readItem with
  | error e => rfl
  | ok xs => cases (pieces ',' t).mapM readItem <;> rfl

theorem exists_parse_eq_ok_iff :
    (∃ v, parse s = .ok v) ↔ ∀ item ∈ pieces ',' s, ∃ l, Holds item l := by
  have hfails : (∃ e, parse s = .error e) ↔ ∃ item ∈ pieces ',' s, ¬ ∃ l, Holds item l := by
    rw [← exists_isFirst_iff]
    refine ⟨fun ⟨_, h⟩ => ?_, fun ⟨place, item, hfirst⟩ => ?_⟩
    · obtain ⟨place, item, hfirst, _⟩ := parse_eq_error_iff.1 h
      exact ⟨place, item, hfirst⟩
    · exact ⟨_, parse_eq_error_iff.2 ⟨place, item, hfirst, rfl⟩⟩
  cases hparse : parse s with
  | ok v =>
    refine iff_of_true ⟨v, rfl⟩ fun item hitem => ?_
    by_contra hnone
    obtain ⟨e, he⟩ := hfails.2 ⟨item, hitem, hnone⟩
    exact nomatch hparse.symm.trans he
  | error e =>
    obtain ⟨item, hitem, hnone⟩ := hfails.1 ⟨e, hparse⟩
    exact iff_of_false nofun fun hall => hnone (hall item hitem)

/-- A vector that is read has a component at least, that of the item before the first comma. -/
theorem dimension_pos_of_parse (h : parse s = .ok v) : 0 < v.dimension := by
  have hlength := (parse_eq_ok_iff.1 h).length_eq
  rw [(setOff_pieces ',' s).length_eq] at hlength
  exact Nat.lt_of_lt_of_eq (Nat.succ_pos _) hlength

/-- **A text is a vector if and only if each item between its commas holds a literal**, and the
components are then the values of these literals, in their order. Otherwise the error quotes the
first item that holds none, without the blanks around it. Of two texts with a comma between them,
the first is read first. -/
theorem parse_exact (s : List Char) :
    ∃ items, SetOff ',' items s ∧ items.length = s.count ',' + 1 ∧
      ((∃ v, parse s = .ok v) ↔ ∀ item ∈ items, ∃ l, Holds item l) ∧
      (∀ v, parse s = .ok v → List.Forall₂ Gives items v.components) ∧
      (∀ e, parse s = .error e → ∃ place item core,
        IsFirst (fun item => ¬ ∃ l, Holds item l) items place item ∧ Stripped item core ∧
          e = .invalidVector core ∧
          e.message = "Invalid vector: Invalid float: " ++ String.ofList (quoted core)) ∧
      ∀ t, parse (s ++ ',' :: t) = do
        return ⟨(← parse s).components ++ (← parse t).components⟩ := by
  have hitems := setOff_pieces ',' s
  refine ⟨pieces ',' s, hitems, hitems.length_eq, exists_parse_eq_ok_iff,
    fun v hv => parse_eq_ok_iff.1 hv, fun e he => ?_, parse_append_cons s⟩
  obtain ⟨place, item, hfirst, rfl⟩ := parse_eq_error_iff.1 he
  exact ⟨place, item, trim item, hfirst, stripped_trim item, rfl, rfl⟩

example : parse " -1 , .e5,\u00A0x ,".toList = .error (.invalidVector ".e5".toList) := by
  rfl

end NeighborSearch.DenseVector
