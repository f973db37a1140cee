import NeighborSearch.Proofs.Binary.Ordinal

/-! The signs of results.

A sum of values whose sign is clear has a clear sign, and so has every square; a NaN has no sign.
Rounding never changes a sign, so this holds of all values, whether a result is rounded, overflows
or vanishes (`SignClear.add`, `signClear_mul_self`). A finite value less itself is the positive
zero (`single_sub_self`). -/
namespace NeighborSearch.Binary
open Float.Model (UnpackedFloat)
open Float.Model.UnpackedFloat (Sign pack)

/-- Whether a number has a sign and it is set. -/
def Number.isNegative : Number → Bool
  | .nan => false
  | .infinite negative | .finite negative _ => negative

/-! ### Signs in the arithmetic -/

/-- No sign, or the positive one. -/
def Unsigned : UnpackedFloat → Prop
  | .notANumber => True
  | .infinity sign | .zero sign | .finite sign _ _ _ => sign = .positive

theorem unsigned_unpacked_iff {f : Format} {n : Number} :
    Unsigned (f.unpacked n) ↔ n.isNegative = false := by
  have hsign : ∀ negative, signOf negative = .positive ↔ negative = false := by
    intro negative
    cases negative <;> simp [signOf]
  cases n with
  | nan => simp [Format.unpacked, Unsigned, Number.isNegative]
  | infinite negative => exact hsign negative
  | finite negative magnitude =>
    rw [Format.unpacked]
    split <;> exact hsign negative

section
variable {F : Float.Model.Format} {u v : UnpackedFloat}

theorem unsigned_roundWithAccuracy (m : Nat) (e : Int)
    (accuracy : Float.Model.UnpackedFloat.Accuracy) :
    Unsigned (.roundWithAccuracy F .positive m e accuracy) := by
  unfold UnpackedFloat.roundWithAccuracy
  dsimp only
  split <;> rfl

theorem unsigned_normalize {m : Int} (hm : 0 ≤ m) (e : Int) :
    Unsigned (.normalize F m e .positive) := by
  unfold UnpackedFloat.normalize
  split
  · rename_i h
    exact absurd (Int.compare_eq_lt.1 h) (by omega)
  · rfl
  · exact unsigned_roundWithAccuracy ..

theorem unsigned_add (hu : Unsigned u) (hv : Unsigned v) : Unsigned (.add F u v) := by
  cases u with
  | notANumber => trivial
  | infinity => cases v <;> cases hu <;> first | trivial | (cases hv; trivial)
  | zero => cases v <;> cases hu <;> first | trivial | (cases hv; trivial)
  | finite =>
    cases v with
    | finite =>
      cases hu
      cases hv
      exact unsigned_normalize (Int.add_nonneg (Int.natCast_nonneg _) (Int.natCast_nonneg _)) _
    | notANumber => trivial
    | infinity => exact hv
    | zero => exact hu

/-- Beside a value with a clear sign, the negative zero does not count. -/
theorem unsigned_add_neg_zero (hu : Unsigned u) :
    Unsigned (.add F u (.zero .negative)) ∧ Unsigned (.add F (.zero .negative) u) := by
  cases u with
  | notANumber => exact ⟨trivial, trivial⟩
  | infinity | finite => exact ⟨hu, hu⟩
  | zero =>
    cases hu
    exact ⟨rfl, rfl⟩

theorem unsigned_mul_self (u : UnpackedFloat) : Unsigned (.mul F u u) := by
  have hsquare : ∀ sign : Sign, sign * sign = .positive := by
    intro sign
    cases sign <;> rfl
  cases u with
  | notANumber => trivial
  | infinity sign => exact hsquare sign
  | zero sign => exact hsquare sign
  | finite sign m e hm =>
    show Unsigned (.roundWithAccuracy F (sign * sign) (m * m) (e + e) .exact)
    rw [hsquare]
    exact unsigned_roundWithAccuracy ..

theorem sub_self_of_isFinite (h : u.isFinite = true) :
    UnpackedFloat.sub F u u = .zero .positive := by
  cases u with
  | notANumber | infinity => cases h
  | zero sign => cases sign <;> rfl
  | finite sign m e hm =>
    simp only [UnpackedFloat.sub, Int.sub_self]
    rfl

/-- Packing keeps the sign. -/
theorem isNegative_decode_pack (h : Unsigned u) :
    ((Format.ofModel F).decode (pack F u).toNat).isNegative = false := by
  have hcomponents : ∀ e m, ((Format.ofModel F).decode
      (Float.Model.UnpackedFloat.packComponents F (signOf false) e m).toNat).isNegative =
        false := by
    intro e m
    rw [decode_packComponents]
    split
    · split <;> rfl
    · rfl
  cases u with
  | notANumber => exact hcomponents _ _
  | infinity =>
    cases h
    exact hcomponents _ _
  | zero =>
    cases h
    exact hcomponents _ _
  | finite =>
    cases h
    unfold pack
    dsimp only
    split
    · exact hcomponents _ _
    · split <;> exact hcomponents _ _

end

/-! ### Signs of single-precision values -/

/-- A NaN, or a value whose sign bit is clear. -/
def SignClear (x : Float32) : Prop := (ofSingle x).isNegative = false

variable {x y : Float32}

theorem signClear_iff_unsigned : SignClear x ↔ Unsigned x.toModel.unpack := by
  rw [unpack_toModel, unsigned_unpacked_iff, SignClear]

theorem SignClear.add (hx : SignClear x) (hy : SignClear y) : SignClear (x + y) := by
  rw [signClear_iff_unsigned] at hx hy
  exact isNegative_decode_pack (F := .binary32) (unsigned_add hx hy)

theorem unpack_neg_zero : (-0.0 : Float32).toModel.unpack = .zero .negative := by
  have hplace : ofSingle (-0.0) = .finite true 0 := by decide +kernel
  rw [unpack_toModel, hplace]
  rfl

theorem SignClear.add_neg_zero (hx : SignClear x) :
    SignClear (x + -0.0) ∧ SignClear (-0.0 + x) := by
  rw [signClear_iff_unsigned] at hx
  have hsum := unsigned_add_neg_zero (F := .binary32) hx
  rw [← unpack_neg_zero] at hsum
  exact ⟨isNegative_decode_pack (F := .binary32) hsum.1,
    isNegative_decode_pack (F := .binary32) hsum.2⟩

theorem signClear_mul_self (x : Float32) : SignClear (x * x) :=
  isNegative_decode_pack (F := .binary32) (unsigned_mul_self _)

theorem single_sub_self (h : x.isFinite = true) : x - x = 0.0 := by
  have hzero : Float32.ofModel (.pack (.zero .positive)) = 0.0 := by decide +kernel
  rw [← hzero, ← sub_self_of_isFinite h]
  rfl

theorem Format.lt_signBit_of_decode {f : Format} {n : Nat}
    (h : (f.decode n).isNegative = false) : f.decode n = .nan ∨ n < f.signBit := by
  simp only [Format.decode] at h ⊢
  split at h
  · rename_i hnan
    exact .inl (if_pos hnan)
  · split at h <;> exact .inr (Nat.lt_of_not_le (of_decide_eq_false h))

theorem SignClear.isNaN_or_toBits_lt (hx : SignClear x) :
    x.isNaN = true ∨ x.toBits < 0x80000000 := by
  refine (Format.lt_signBit_of_decode hx).imp (fun hnan => ?_) fun hlt => ?_
  · exact isNaN_iff.2 (place?_eq_none.2 hnan)
  · exact UInt32.lt_iff_toNat_lt.2 hlt

/-- No place of a value with a clear sign lies below zero. -/
theorem SignClear.place?_nonneg {p : Int} (hx : SignClear x) (h : place? x = some p) : 0 ≤ p := by
  rw [SignClear] at hx
  rcases eq_of_place? h with ⟨negative, hn, rfl⟩ | ⟨negative, magnitude, hn, _, rfl⟩
  · rw [hn] at hx
    cases hx
    exact Int.natCast_nonneg _
  · rw [hn] at hx
    cases hx
    exact Int.natCast_nonneg _

end NeighborSearch.Binary
