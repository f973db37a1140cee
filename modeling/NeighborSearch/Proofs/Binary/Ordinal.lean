import NeighborSearch.Proofs.Binary.Fields

/-! Single-precision values on the number line.

The arithmetic reads a value as a sign, a significand and an exponent; the library reads it
as a place (`place?`). The two readings agree (`unpack_toModel`), and as a magnitude grows, so do
its exponent and, for one exponent, its significand. So the comparison of the arithmetic is
the order of the places: `lt_iff_place` says that one value is below another exactly when
both have a place and the first place is the smaller one. -/
namespace NeighborSearch.Binary
open Float.Model (UnpackedFloat)

/-- The place of a value on the number line; a NaN has none. -/
def place? (x : Float32) : Option Int := single.ordinal? (ofSingle x)

theorem infinity_single : single.infinity = 255 * 2 ^ 23 := rfl

theorem signBit_single : single.signBit = 2 ^ 31 := rfl

/-! ### Comparison -/

/-- A greater magnitude has a greater exponent, or the same one and a greater significand. -/
theorem fields_lt {f : Format} {a b : Nat} (h : a < b) :
    f.exponent a < f.exponent b ∨
      f.exponent a = f.exponent b ∧ f.significand a < f.significand b := by
  have ha : a % 2 ^ f.fractionBits < 2 ^ f.fractionBits := Nat.mod_lt _ (Nat.two_pow_pos _)
  have hb : b % 2 ^ f.fractionBits < 2 ^ f.fractionBits := Nat.mod_lt _ (Nat.two_pow_pos _)
  have hda := Nat.div_add_mod' a (2 ^ f.fractionBits)
  have hdb := Nat.div_add_mod' b (2 ^ f.fractionBits)
  have hle : a / 2 ^ f.fractionBits ≤ b / 2 ^ f.fractionBits := Nat.div_le_div_right h.le
  have hsa := Format.significand_fields (e := a / 2 ^ f.fractionBits) ha
  have hsb := Format.significand_fields (e := b / 2 ^ f.fractionBits) hb
  have hea := Format.exponent_fields (e := a / 2 ^ f.fractionBits) ha
  have heb := Format.exponent_fields (e := b / 2 ^ f.fractionBits) hb
  rw [hda] at hsa hea
  rw [hdb] at hsb heb
  rw [hsa, hsb, hea, heb]
  generalize a / 2 ^ f.fractionBits = qa at *
  generalize b / 2 ^ f.fractionBits = qb at *
  rcases hle.lt_or_eq with hlt | rfl
  · split <;> split <;> omega
  · split <;> omega

theorem compare_fields (f : Format) (a b : Nat) :
    (compare (f.exponent a) (f.exponent b)).then
      (compare (f.significand a) (f.significand b)) = compare a b := by
  rcases Nat.lt_trichotomy a b with h | rfl | h
  · rw [Nat.compare_eq_lt.2 h]
    rcases fields_lt (f := f) h with he | ⟨he, hs⟩
    · rw [Int.compare_eq_lt.2 he, Ordering.lt_then]
    · rw [Int.compare_eq_eq.2 he, Nat.compare_eq_lt.2 hs, Ordering.eq_then]
  · simp
  · rw [Nat.compare_eq_gt.2 h]
    rcases fields_lt (f := f) h with he | ⟨he, hs⟩
    · rw [Int.compare_eq_gt.2 he, Ordering.gt_then]
    · rw [Int.compare_eq_eq.2 he.symm, Nat.compare_eq_gt.2 hs, Ordering.eq_then]

/-- A magnitude on its side of zero. -/
def signed (negative : Bool) (magnitude : Nat) : Int :=
  if negative then -(magnitude : Int) else magnitude

theorem compare_natCast (a b : Nat) : compare (a : Int) b = compare a b := by
  rw [Int.compare_eq_ite_lt, Nat.compare_eq_ite_lt]
  simp only [Int.ofNat_lt]

theorem compare_neg_natCast (a b : Nat) :
    compare (-(a : Int)) (-(b : Int)) = (compare a b).swap := by
  rw [Nat.compare_swap, ← compare_natCast, Int.compare_eq_ite_lt, Int.compare_eq_ite_lt]
  simp only [Int.neg_lt_neg_iff]

section Numbers
variable {f : Format} (na nb : Bool) {a b : Nat}

theorem compare_finite (a b : Nat) :
    (f.unpacked (.finite na a)).compare (f.unpacked (.finite nb b)) =
      some (compare (signed na a) (signed nb b)) := by
  by_cases ha : a = 0 <;> by_cases hb : b = 0 <;> cases na <;> cases nb <;>
    simp [Format.unpacked, signOf, signed, UnpackedFloat.compare, ha, hb, compare_fields,
      compare_natCast, compare_neg_natCast, @eq_comm _ Ordering.lt, @eq_comm _ Ordering.gt,
      Int.compare_eq_lt, Int.compare_eq_gt] <;> omega

theorem compare_infinite (hf : 0 < f.infinity) :
    (f.unpacked (.infinite na)).compare (f.unpacked (.infinite nb)) =
      some (compare (signed na f.infinity) (signed nb f.infinity)) := by
  have hsame : ∀ z : Int, compare z z = .eq := fun z => Int.compare_eq_eq.2 rfl
  have hlt : compare (signed true f.infinity) (signed false f.infinity) = .lt :=
    Int.compare_eq_lt.2 (show -(f.infinity : Int) < f.infinity by omega)
  have hgt : compare (signed false f.infinity) (signed true f.infinity) = .gt :=
    Int.compare_eq_gt.2 (show -(f.infinity : Int) < f.infinity by omega)
  cases na <;> cases nb
  · rw [hsame]
    rfl
  · rw [hgt]
    rfl
  · rw [hlt]
    rfl
  · rw [hsame]
    rfl

theorem compare_infinite_finite (hb : b < f.infinity) :
    (f.unpacked (.infinite na)).compare (f.unpacked (.finite nb b)) =
      some (compare (signed na f.infinity) (signed nb b)) := by
  by_cases hz : b = 0 <;> cases na <;> cases nb <;>
    simp [Format.unpacked, signOf, signed, UnpackedFloat.compare, hz, @eq_comm _ Ordering.lt,
      @eq_comm _ Ordering.gt, Int.compare_eq_lt, Int.compare_eq_gt] <;> omega

theorem compare_finite_infinite (ha : a < f.infinity) :
    (f.unpacked (.finite na a)).compare (f.unpacked (.infinite nb)) =
      some (compare (signed na a) (signed nb f.infinity)) := by
  by_cases hz : a = 0 <;> cases na <;> cases nb <;>
    simp [Format.unpacked, signOf, signed, UnpackedFloat.compare, hz, @eq_comm _ Ordering.lt,
      @eq_comm _ Ordering.gt, Int.compare_eq_lt, Int.compare_eq_gt] <;> omega

end Numbers

theorem ordinal?_eq_none {f : Format} {n : Number} : f.ordinal? n = none ↔ n = .nan := by
  cases n <;> simp [Format.ordinal?]

section Patterns
variable {f : Format}

/-- The arithmetic compares two numbers by their places. -/
theorem compare_decode (hf : 0 < f.infinity) {m n : Nat} {p q : Int}
    (hp : f.ordinal? (f.decode m) = some p) (hq : f.ordinal? (f.decode n) = some q) :
    (f.unpacked (f.decode m)).compare (f.unpacked (f.decode n)) = some (compare p q) := by
  cases hm : f.decode m with
  | nan =>
    rw [hm] at hp
    cases hp
  | infinite na =>
    rw [hm] at hp
    cases hn : f.decode n with
    | nan =>
      rw [hn] at hq
      cases hq
    | infinite nb =>
      rw [hn] at hq
      rw [compare_infinite na nb hf, ← Option.some.inj hp, ← Option.some.inj hq]
      rfl
    | finite nb b =>
      rw [hn] at hq
      rw [compare_infinite_finite na nb (magnitude_lt_infinity hn), ← Option.some.inj hp,
        ← Option.some.inj hq]
      rfl
  | finite na a =>
    rw [hm] at hp
    cases hn : f.decode n with
    | nan =>
      rw [hn] at hq
      cases hq
    | infinite nb =>
      rw [hn] at hq
      rw [compare_finite_infinite na nb (magnitude_lt_infinity hm), ← Option.some.inj hp,
        ← Option.some.inj hq]
      rfl
    | finite nb b =>
      rw [hn] at hq
      rw [compare_finite, ← Option.some.inj hp, ← Option.some.inj hq]
      rfl

/-- Nothing compares with a NaN. -/
theorem compare_eq_none {m n : Number} (h : m = .nan ∨ n = .nan) :
    (f.unpacked m).compare (f.unpacked n) = none := by
  rcases h with rfl | rfl
  · rfl
  · cases f.unpacked m with
    | infinity sign => cases sign <;> rfl
    | notANumber => rfl
    | zero => rfl
    | finite sign => cases sign <;> rfl

end Patterns

/-! ### Values by their places -/

theorem unpack_toModel (x : Float32) : x.toModel.unpack = single.unpacked (ofSingle x) :=
  unpack_eq (F := .binary32) (by decide) x.toBits.toBitVec

theorem toSingle_of_finite {x : Float32} {negative : Bool} {magnitude : Nat}
    (h : ofSingle x = .finite negative magnitude) : toSingle negative magnitude = x := by
  rw [toSingle, Format.pattern_of_decode x.toBits.toNat_lt h, UInt32.ofNat_toNat,
    Float32.ofBits_toBits]

theorem place?_eq_none {x : Float32} : place? x = none ↔ ofSingle x = .nan := ordinal?_eq_none

theorem isNaN_iff {x : Float32} : x.isNaN = true ↔ place? x = none := by
  show x.toModel.unpack.isNaN = true ↔ _
  rw [UnpackedFloat.isNaN_iff, unpack_toModel, place?_eq_none]
  cases ofSingle x with
  | nan => simp [Format.unpacked]
  | infinite negative => simp [Format.unpacked]
  | finite negative magnitude => by_cases hz : magnitude = 0 <;> simp [Format.unpacked, hz]

theorem isFinite_iff {x : Float32} : x.isFinite = true ↔
    ∃ negative magnitude, ofSingle x = .finite negative magnitude := by
  show x.toModel.unpack.isFinite = true ↔ _
  rw [unpack_toModel]
  cases ofSingle x with
  | nan => simp [Format.unpacked, UnpackedFloat.isFinite]
  | infinite negative => simp [Format.unpacked, UnpackedFloat.isFinite]
  | finite negative magnitude =>
    by_cases hz : magnitude = 0 <;> simp [Format.unpacked, UnpackedFloat.isFinite, hz]

/-- A value with a place is an infinity or a finite number at that place. -/
theorem eq_of_place? {x : Float32} {p : Int} (h : place? x = some p) :
    (∃ negative, ofSingle x = .infinite negative ∧ p = signed negative single.infinity) ∨
      ∃ negative magnitude, ofSingle x = .finite negative magnitude ∧
        magnitude < single.infinity ∧ p = signed negative magnitude := by
  rw [place?] at h
  cases hx : ofSingle x with
  | nan =>
    rw [hx] at h
    cases h
  | infinite negative =>
    rw [hx] at h
    exact .inl ⟨negative, rfl, (Option.some.inj h).symm⟩
  | finite negative magnitude =>
    rw [hx] at h
    exact .inr ⟨negative, magnitude, rfl, magnitude_lt_infinity hx, (Option.some.inj h).symm⟩

/-- No place lies beyond the infinities. -/
theorem place?_bounds {x : Float32} {p : Int} (h : place? x = some p) :
    -(single.infinity : Int) ≤ p ∧ p ≤ single.infinity := by
  rcases eq_of_place? h with ⟨negative, _, rfl⟩ | ⟨negative, magnitude, _, hlt, rfl⟩
  · cases negative <;> simp only [signed, if_true, Bool.false_eq_true, if_false] <;> omega
  · cases negative <;> simp only [signed, if_true, Bool.false_eq_true, if_false] <;> omega

/-- The arithmetic compares two values by their places. -/
theorem compare_unpack {x y : Float32} {p q : Int} (hx : place? x = some p)
    (hy : place? y = some q) :
    x.toModel.unpack.compare y.toModel.unpack = some (compare p q) := by
  rw [unpack_toModel, unpack_toModel]
  exact compare_decode (by decide) hx hy

/-- Nothing compares with a NaN. -/
theorem compare_unpack_none {x y : Float32} (h : place? x = none ∨ place? y = none) :
    x.toModel.unpack.compare y.toModel.unpack = none := by
  rw [unpack_toModel, unpack_toModel]
  exact compare_eq_none (h.imp place?_eq_none.1 place?_eq_none.1)

/-- **One value is below another exactly when both have a place and its place is below the
other's.** -/
theorem lt_iff_place {x y : Float32} :
    x < y ↔ ∃ p q, place? x = some p ∧ place? y = some q ∧ p < q := by
  have hlt : x < y ↔ x.toModel.unpack.compare y.toModel.unpack = some .lt := by
    show decide (x.toModel.unpack.lt y.toModel.unpack = true) = true ↔ _
    rw [decide_eq_true_eq, UnpackedFloat.lt, beq_iff_eq]
  rw [hlt]
  cases hx : place? x with
  | none => simp [compare_unpack_none (Or.inl hx)]
  | some p =>
    cases hy : place? y with
    | none => simp [compare_unpack_none (Or.inr hy)]
    | some q => simp [compare_unpack hx hy, Int.compare_eq_lt]

theorem lt_iff_of_place {x y : Float32} {p q : Int} (hx : place? x = some p)
    (hy : place? y = some q) : x < y ↔ p < q := by
  rw [lt_iff_place, hx, hy]
  simp

theorem le_iff_place {x y : Float32} :
    x ≤ y ↔ ∃ p q, place? x = some p ∧ place? y = some q ∧ p ≤ q := by
  have hle : x ≤ y ↔ (x.toModel.unpack.compare y.toModel.unpack).any (·.isLE) = true := by
    show decide (x.toModel.unpack.le y.toModel.unpack = true) = true ↔ _
    rw [decide_eq_true_eq, UnpackedFloat.le]
  rw [hle]
  cases hx : place? x with
  | none => simp [compare_unpack_none (Or.inl hx)]
  | some p =>
    cases hy : place? y with
    | none => simp [compare_unpack_none (Or.inr hy)]
    | some q => simp [compare_unpack hx hy, Int.isLE_compare]

theorem le_iff_of_place {x y : Float32} {p q : Int} (hx : place? x = some p)
    (hy : place? y = some q) : x ≤ y ↔ p ≤ q := by
  rw [le_iff_place, hx, hy]
  simp

/-- Nothing is at most a NaN, and a NaN is at most nothing. -/
theorem isNaN_of_le {x y : Float32} (h : x ≤ y) : x.isNaN = false ∧ y.isNaN = false := by
  obtain ⟨p, q, hx, hy, -⟩ := le_iff_place.1 h
  constructor
  · rw [Bool.eq_false_iff, Ne, isNaN_iff, hx]
    exact Option.some_ne_none p
  · rw [Bool.eq_false_iff, Ne, isNaN_iff, hy]
    exact Option.some_ne_none q

/-- Two values are equal as numbers when they have one place. -/
theorem beq_iff_place {x y : Float32} :
    (x == y) = true ↔ ∃ p, place? x = some p ∧ place? y = some p := by
  show (x.toModel.unpack.compare y.toModel.unpack == some .eq) = true ↔ _
  rw [beq_iff_eq]
  cases hx : place? x with
  | none => simp [compare_unpack_none (Or.inl hx)]
  | some p =>
    cases hy : place? y with
    | none => simp [compare_unpack_none (Or.inr hy)]
    | some q => simp [compare_unpack hx hy, @eq_comm _ p]

end NeighborSearch.Binary
