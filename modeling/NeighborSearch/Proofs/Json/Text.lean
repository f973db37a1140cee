import NeighborSearch.Proofs.Json.Reader

/-! What is printed is read back.

A printed value is spelled as the grammar has it, if its numbers are without needless zeros and its
strings have a text (`Printable`), whatever the depth (`spells_compact`). So the reader, which
follows the grammar, reads it back (`parse?_compact`). -/
namespace NeighborSearch.Json
open Decimal

/-! ### Strings -/

theorem codeUnit?_control : ∀ n < 32,
    codeUnit? '0' '0' (Text.hexDigit (n / 16)) (Text.hexDigit (n % 16)) = some n := by
  decide

/-- A control is no half of a surrogate pair, so that its code spells it. -/
theorem textOfParts_control {c : Char} (hcontrol : c < ' ') (parts : List StringPart) :
    textOfParts (.unit c.toNat :: parts) = (textOfParts parts).map (c :: ·) := by
  have hc : c.toNat < 32 := hcontrol
  have hhigh : isHighSurrogate c.toNat = false := by simp [isHighSurrogate]; omega
  have hlow : isLowSurrogate c.toNat = false := by simp [isLowSurrogate]; omega
  rw [textOfParts.eq_def]
  simp [hhigh, hlow]

/-- An escaped character is one part, which spells it. -/
theorem exists_part_escapeChar (c : Char) : ∃ part,
    (∀ parts cs, SpellsParts parts cs → SpellsParts (part :: parts) (escapeChar c ++ cs)) ∧
      ∀ parts, textOfParts (part :: parts) = (textOfParts parts).map (c :: ·) := by
  unfold escapeChar
  split
  case h_8 hquote hbackslash _ _ _ _ _ =>
    split
    · next hcontrol =>
      exact ⟨.unit c.toNat, fun _ _ h => .unit (codeUnit?_control c.toNat hcontrol) h,
        textOfParts_control hcontrol⟩
    · next hcontrol =>
      exact ⟨.char c, fun _ _ h => .char hquote hbackslash hcontrol h, fun _ => rfl⟩
  all_goals exact ⟨.char _, fun _ _ h => .escape rfl h, fun _ => rfl⟩

theorem exists_parts_flatMap (s : List Char) :
    ∃ parts, SpellsParts parts (s.flatMap escapeChar) ∧ textOfParts parts = some s := by
  induction s with
  | nil => exact ⟨[], .nil, rfl⟩
  | cons c s ih =>
    obtain ⟨parts, hparts, htext⟩ := ih
    obtain ⟨part, hpart, hvalue⟩ := exists_part_escapeChar c
    exact ⟨part :: parts, hpart _ _ hparts, by rw [hvalue, htext, Option.map_some]⟩

theorem spells_renderString (s : List Char) : SpellsString (some s) (renderString (some s)) := by
  obtain ⟨parts, hparts, htext⟩ := exists_parts_flatMap s
  simpa [htext, renderString] using SpellsString.mk hparts

/-! ### Numbers -/

theorem spells_renderExponent (e : Option Int) : SpellsExponent e (renderExponent e) := by
  cases e with
  | none => exact .none
  | some e =>
    have hsign : Literal.SpellsSign (decide (e < 0)) [if e < 0 then '-' else '+'] := by
      by_cases he : e < 0
      · simpa [he] using Literal.SpellsSign.minus
      · simpa [he] using Literal.SpellsSign.plus
    have hdigits := List.ne_nil_of_length_pos (length_toDigits_pos e.natAbs)
    have hspells := SpellsExponent.marked (.inl rfl) hsign hdigits
    have hvalue : (if decide (e < 0) = true then -(ofDigits (toDigits e.natAbs) : Int)
        else ofDigits (toDigits e.natAbs)) = e := by
      simp only [ofDigits_toDigits, decide_eq_true_eq]
      split <;> omega
    rwa [hvalue] at hspells

theorem spells_renderFraction (ds : List Digit) : SpellsFraction ds (renderFraction ds) := by
  cases ds with
  | nil => exact .none
  | cons d ds => exact .point (List.cons_ne_nil d ds)

theorem spells_render {n : Numeral} (hn : isWhole n.whole = true) : SpellsNumeral n n.render := by
  have hminus : SpellsMinus n.negative (if n.negative then ['-'] else []) := by
    cases n.negative
    · exact .none
    · exact .minus
  have hspells := SpellsNumeral.mk hminus hn (spells_renderFraction n.fraction)
    (spells_renderExponent n.exponent)
  rw [Numeral.render, List.append_assoc, List.append_assoc]
  exact hspells

/-! ### Values -/

/-- Numbers without needless zeros, and strings that have a text. -/
inductive Printable : Json → Prop
  | null : Printable null
  | bool (value : Bool) : Printable (bool value)
  | number {value : Numeral} (h : isWhole value.whole = true) : Printable (number value)
  | string (value : List Char) : Printable (string (some value))
  | array {items : List Json} (h : ∀ item ∈ items, Printable item) : Printable (array items)
  | object {fields : List (JsonString × Json)} (hkeys : ∀ field ∈ fields, field.1.isSome = true)
      (h : ∀ field ∈ fields, Printable field.2) : Printable (object fields)

/-- A field as it is printed. -/
def compactMember (field : JsonString × Json) : Member :=
  ⟨field, renderString field.1, compact field.2⟩

theorem compactItems_eq (items : List Json) : compactItems items = items.map compact := by
  induction items with
  | nil => rfl
  | cons item items ih => rw [compactItems, ih, List.map_cons]

theorem compactFields_eq (fields : List (JsonString × Json)) :
    compactFields fields = (fields.map compactMember).map Member.text := by
  induction fields with
  | nil => rfl
  | cons field fields ih => rw [compactFields, ih, List.map_cons, List.map_cons]; rfl

/-- **A printed value is spelled** as the grammar has it. -/
theorem spells_compact {v : Json} (h : Printable v) : Spells v (compact v) := by
  induction h with
  | null => exact .null
  | bool value =>
    cases value
    · exact .false
    · exact .true
  | number h => exact .number (spells_render h)
  | string value => exact .string (spells_renderString value)
  | @array items h ih =>
    rw [compact, compactItems_eq]
    cases items with
    | nil => exact .emptyArray nofun
    | cons item items =>
      have hspells := @Spells.array ((item :: items).map fun item => (item, compact item))
        (by simp) (List.forall_mem_map.2 ih)
      rw [List.map_map, List.map_map] at hspells
      simpa [Function.comp_def] using hspells
  | @object fields hkeys h ih =>
    rw [compact, compactFields_eq]
    cases fields with
    | nil => exact .emptyObject nofun
    | cons field fields =>
      have hspelled : ∀ f ∈ field :: fields, Spells (string f.1) (renderString f.1) := by
        intro f hf
        obtain ⟨key, hkey⟩ := Option.isSome_iff_exists.1 (hkeys f hf)
        rw [hkey]
        exact .string (spells_renderString key)
      have hspells := @Spells.object ((field :: fields).map compactMember) (by simp)
        (List.forall_mem_map.2 hspelled) (List.forall_mem_map.2 ih)
      have hfields : ((field :: fields).map compactMember).map Member.field = field :: fields := by
        simp [compactMember, Function.comp_def]
      rwa [hfields] at hspells

/-- **The text of a value is that value.** -/
theorem parse?_compact {v : Json} (h : Printable v) : parse? (compact v) = some v :=
  parse?_of_spells (spells_compact h)

end NeighborSearch.Json
