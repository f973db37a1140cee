import Mathlib.Data.List.DropRight
import NeighborSearch.Text.Blank

/-! Items of a text, and what is left of them without the blanks around them.

`pieces` gives the only list of items that a separator can set off in a text
(`setOff_iff_eq_pieces`), and items of two texts that are put together with a separator between
them follow one another (`pieces_append_cons`). `trim` gives the only part of an item that has
blanks alone around it and none at its own ends (`stripped_trim`, `Stripped.eq_trim`). -/
namespace NeighborSearch.Text
variable {separator : Char} {items others : List (List Char)} {item core text s t : List Char}

/-! ### Items -/

/-- A text is made of these items, with a separator between any two and none within them. -/
inductive SetOff (separator : Char) : List (List Char) → List Char → Prop
  | last {item : List Char} (hitem : separator ∉ item) : SetOff separator [item] item
  | another {item text : List Char} {items : List (List Char)} (hitem : separator ∉ item)
      (h : SetOff separator items text) :
      SetOff separator (item :: items) (item ++ separator :: text)

namespace SetOff

theorem length_eq (h : SetOff separator items text) :
    items.length = text.count separator + 1 := by
  induction h with
  | last hitem => rw [List.count_eq_zero.2 hitem, List.length_singleton]
  | another hitem _ ih =>
    rw [List.length_cons, ih, List.count_append, List.count_eq_zero.2 hitem, Nat.zero_add,
      List.count_cons_self]

theorem append (hs : SetOff separator items s) (ht : SetOff separator others t) :
    SetOff separator (items ++ others) (s ++ separator :: t) := by
  induction hs with
  | last hitem => exact .another hitem ht
  | another hitem _ ih =>
    rw [List.append_assoc]
    exact .another hitem ih

/-- What is in none of the items, and is not the separator, is not in the text. -/
theorem not_mem {c : Char} (hc : c ≠ separator) (h : SetOff separator items text)
    (hitems : ∀ item ∈ items, c ∉ item) : c ∉ text := by
  induction h with
  | last _ => exact hitems _ (.head _)
  | another _ _ ih =>
    obtain ⟨hitem, hrest⟩ := List.forall_mem_cons.1 hitems
    simp [hitem, hc, ih hrest]

end SetOff

/-- Items with separators between them. -/
theorem setOff_intercalate (hne : items ≠ []) (h : ∀ item ∈ items, separator ∉ item) :
    SetOff separator items ([separator].intercalate items) := by
  induction items with
  | nil => exact absurd rfl hne
  | cons item items ih =>
    obtain ⟨hitem, hrest⟩ := List.forall_mem_cons.1 h
    cases items with
    | nil =>
      rw [List.intercalate_singleton]
      exact .last hitem
    | cons next items =>
      rw [List.intercalate_cons_cons, List.append_assoc]
      exact .another hitem (ih (List.cons_ne_nil _ _) hrest)

/-- Items with a separator after each of them. -/
theorem setOff_ended (h : ∀ item ∈ items, separator ∉ item) :
    SetOff separator (items ++ [[]]) (items.flatMap (· ++ [separator])) := by
  induction items with
  | nil => exact .last List.not_mem_nil
  | cons item items ih =>
    obtain ⟨hitem, hrest⟩ := List.forall_mem_cons.1 h
    rw [List.flatMap_cons, List.append_assoc]
    exact .another hitem (ih hrest)

/-- Such items tell the whole text. -/
theorem SetOff.eq_flatMap (h : SetOff separator (items ++ [[]]) text) :
    text = items.flatMap (· ++ [separator]) := by
  induction items generalizing text with
  | nil =>
    cases h with
    | last => rfl
    | another _ h => cases h
  | cons item items ih =>
    generalize hrest : items ++ [[]] = rest at ih
    rw [List.cons_append, hrest] at h
    cases h with
    | last => exact absurd hrest (by simp)
    | another _ h => rw [ih h, List.flatMap_cons, List.append_assoc, List.singleton_append]

theorem pieces_of_not_mem (h : separator ∉ text) : pieces separator text = [text] := by
  induction text with
  | nil => rfl
  | cons c cs ih =>
    rw [List.mem_cons, not_or] at h
    rw [pieces, if_neg (Ne.symm h.1), ih h.2]

theorem pieces_item_cons (h : separator ∉ item) :
    pieces separator (item ++ separator :: text) = item :: pieces separator text := by
  induction item with
  | nil => exact if_pos rfl
  | cons c cs ih =>
    rw [List.mem_cons, not_or] at h
    rw [List.cons_append, pieces, if_neg (Ne.symm h.1), ih h.2]

theorem setOff_pieces (separator : Char) (text : List Char) :
    SetOff separator (pieces separator text) text := by
  induction text with
  | nil => exact .last List.not_mem_nil
  | cons c cs ih =>
    rw [pieces]
    split
    · next hc =>
      subst hc
      exact .another List.not_mem_nil ih
    · next hc =>
      have hcons {item : List Char} (hitem : separator ∉ item) : separator ∉ c :: item :=
        List.not_mem_cons_of_ne_of_not_mem (Ne.symm hc) hitem
      generalize pieces separator cs = items at ih
      cases ih with
      | last hitem => exact .last (hcons hitem)
      | another hitem h => exact .another (hcons hitem) h

theorem setOff_iff_eq_pieces : SetOff separator items text ↔ items = pieces separator text := by
  constructor
  · intro h
    induction h with
    | last hitem => exact (pieces_of_not_mem hitem).symm
    | another hitem _ ih => rw [pieces_item_cons hitem, ← ih]
  · rintro rfl
    exact setOff_pieces separator text

theorem pieces_append_cons (separator : Char) (s t : List Char) :
    pieces separator (s ++ separator :: t) = pieces separator s ++ pieces separator t :=
  (setOff_iff_eq_pieces.1 ((setOff_pieces separator s).append (setOff_pieces separator t))).symm

/-! ### Blanks around an item -/

/-- What is left of an item without the blanks at both its ends. -/
structure Stripped (item core : List Char) : Prop where
  around : ∃ left right, item = left ++ core ++ right ∧
    (∀ c ∈ left, isBlank c = true) ∧ ∀ c ∈ right, isBlank c = true
  head : ∀ c ∈ core.head?, isBlank c = false
  last : ∀ c ∈ core.getLast?, isBlank c = false

theorem dropWhile_isBlank_append (hs : ∀ c ∈ s, isBlank c = true)
    (ht : ∀ c ∈ t.head?, isBlank c = false) : (s ++ t).dropWhile isBlank = t := by
  rw [List.dropWhile_append_of_pos hs]
  cases t with
  | nil => rfl
  | cons c cs => exact List.dropWhile_cons_of_neg (by simp [ht c rfl])

theorem isBlank_head?_dropWhile (text : List Char) :
    ∀ c ∈ (text.dropWhile isBlank).head?, isBlank c = false := by
  intro c hc
  have h := List.head?_dropWhile_not isBlank text
  rwa [Option.mem_def.1 hc] at h

theorem Stripped.eq_trim (h : Stripped item core) : core = trim item := by
  obtain ⟨⟨left, right, rfl, hleft, hright⟩, hhead, hlast⟩ := h
  cases core with
  | nil =>
    have hblank : ∀ c ∈ left ++ [] ++ right, isBlank c = true := fun c hc =>
      (List.mem_append.1 (List.append_nil left ▸ hc)).elim (hleft c) (hright c)
    rw [trim, List.dropWhile_eq_nil_iff.2 hblank]
    rfl
  | cons c cs =>
    have hfront : (left ++ (c :: cs ++ right)).dropWhile isBlank = c :: cs ++ right :=
      dropWhile_isBlank_append hleft hhead
    have hback : (right.reverse ++ (c :: cs).reverse).dropWhile isBlank = (c :: cs).reverse :=
      dropWhile_isBlank_append (fun d hd => hright d (List.mem_reverse.1 hd))
        (by rwa [List.head?_reverse])
    rw [trim, trimEnd, List.append_assoc, hfront, List.reverse_append, hback, List.reverse_reverse]

theorem stripped_trim (item : List Char) : Stripped item (trim item) := by
  have hcut : trim item ++ (item.dropWhile isBlank).rtakeWhile isBlank = item.dropWhile isBlank :=
    List.rdropWhile_append_rtakeWhile ..
  refine ⟨⟨item.takeWhile isBlank, (item.dropWhile isBlank).rtakeWhile isBlank, ?_,
    fun c hc => List.mem_takeWhile_imp hc, fun c hc => List.mem_rtakeWhile_imp hc⟩, ?_, ?_⟩
  · rw [List.append_assoc, hcut, List.takeWhile_append_dropWhile]
  · -- What begins the core begins the rest of the item behind the first blanks.
    intro c hc
    refine isBlank_head?_dropWhile item c ?_
    rw [← hcut, List.head?_append, Option.mem_def.1 hc]
    rfl
  · intro c hc
    refine isBlank_head?_dropWhile (item.dropWhile isBlank).reverse c ?_
    rwa [trim, trimEnd, List.getLast?_reverse] at hc

end NeighborSearch.Text
