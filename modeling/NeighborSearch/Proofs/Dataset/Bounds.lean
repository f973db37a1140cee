import NeighborSearch.Dataset.Words
import NeighborSearch.Proofs.Binary.SignedSum
import NeighborSearch.Proofs.Dataset
import NeighborSearch.Proofs.RowBuffer.Words

/-! Synthetic vectors are well formed.

Draws are exact (`exists_unit`, `exists_symmetric`), so that entries and latent coordinates are at
most one, and a scale is at most 33 / 8. Bounds of this kind are values, which rounding keeps: ten
products come to at most ten, however their sum is rounded (`within_project`), and what is handed to
the sine is at most 42 (`within_scaled`). For the rest, a dataset is a dataset of such angles, the
sine of each of them taken (`generate_eq_map`), and each place that is read is in range
(`wordApply?_eq`). -/
namespace NeighborSearch
open Binary
open NeighborSearch.Random

/-! ### Draws -/

namespace Random
variable {σ : Type} (source : Source σ) (s : σ)

/-- A word without its last bits is less than this power of two. -/
theorem toNat_shiftRight_lt (w : UInt32) {n : UInt32} (hn : n.toNat < 32) :
    (w >>> n).toNat < 2 ^ (32 - n.toNat) := by
  rw [UInt32.toNat_shiftRight, Nat.mod_eq_of_lt hn, Nat.shiftRight_eq_div_pow]
  refine Nat.div_lt_of_lt_mul ?_
  rw [← Nat.pow_add, Nat.add_sub_cancel' hn.le]
  exact w.toNat_lt

theorem exists_unit : ∃ z : Int, 0 ≤ z ∧ z < 2 ^ 24 ∧
    exactValue? (source.unit s).1 = some ((z : ℚ) / 2 ^ 24) := by
  have hlt : ((source.next s).1 >>> 8).toNat < 2 ^ 24 := toNat_shiftRight_lt _ (by decide)
  have hscale : exactValue? 16777216.0 = some (2 ^ 24) := by decide +kernel
  have hword := isInteger_toFloat32 hlt.le
  refine ⟨_, Int.natCast_nonneg _, by exact_mod_cast hlt, ?_⟩
  exact (roundedFrom_div hword hscale (by norm_num)).exact_div rfl hlt.le (by decide)

theorem exists_symmetric : ∃ z : Int, -2 ^ 22 ≤ z ∧ z < 2 ^ 22 ∧
    exactValue? (source.symmetric s).1 = some ((z : ℚ) / 2 ^ 22) := by
  have hlt : ((source.next s).1 >>> 9).toNat < 2 ^ 23 := toNat_shiftRight_lt _ (by decide)
  have hscale : exactValue? 8388608.0 = some (2 ^ 23) := by decide +kernel
  have htwo : exactValue? 2.0 = some 2 := by decide +kernel
  have hone : exactValue? 1.0 = some 1 := by decide +kernel
  -- a significand has room for each of the results, so that nothing is rounded
  have hroom : ((source.next s).1 >>> 9).toNat ≤ 2 ^ 24 := by omega
  have hword := isInteger_toFloat32 hroom
  have hunit := (roundedFrom_div hword hscale (by norm_num)).exact_div rfl hroom (by decide)
  have hdouble := (roundedFrom_mul hunit htwo).exact_div (z := ((source.next s).1 >>> 9).toNat)
    (n := 22) (by ring) hroom (by decide)
  generalize ((source.next s).1 >>> 9).toNat = n at *
  refine ⟨n - 2 ^ 22, by omega, by omega, ?_⟩
  refine (roundedFrom_sub hdouble hone).exact_div ?_ (by omega) (by decide)
  push_cast
  ring

end Random

/-! ### Bounds -/

section Bounds
variable {σ : Type} (source : Source σ) (s : σ) {d : Nat}

theorem within_one {x : Float32} {z : Int} {n : Nat} (h : exactValue? x = some ((z : ℚ) / 2 ^ n))
    (hz : z.natAbs ≤ 2 ^ n) : Within 1 x := by
  have hpower : (0 : ℚ) < 2 ^ n := pow_pos two_pos n
  refine ⟨_, h, ?_⟩
  rw [abs_div, abs_of_pos hpower, div_le_one hpower, ← Int.cast_abs, ← Nat.cast_natAbs]
  exact_mod_cast hz

theorem within_unit : Within 1 (source.unit s).1 := by
  obtain ⟨z, hlow, hhigh, hvalue⟩ := exists_unit source s
  exact within_one hvalue (by omega)

theorem within_symmetric : Within 1 (source.symmetric s).1 := by
  obtain ⟨z, hlow, hhigh, hvalue⟩ := exists_symmetric source s
  exact within_one hvalue (by omega)

namespace Dataset

/-- Whatever 0.1 is rounded to, it is at most an eighth. -/
theorem within_drawScale : Within (33 / 8) (drawScale source s).1 := by
  have hfour : Within 4 4.0 := ⟨4, by decide +kernel, by norm_num⟩
  have htenth : Within (1 / 8) 0.1 := ⟨13421773 / 2 ^ 27, by decide +kernel, by norm_num⟩
  have hproduct := (within_unit source s).mul hfour
    (isValue_of_eq_div (m := 4) (n := 0) (by norm_num) (by decide) (by decide))
  have hsum := hproduct.add htenth
    (isValue_of_eq_div (m := 33) (n := 3) (by norm_num) (by decide) (by decide))
  exact hsum.mono (by norm_num)

/-- Entries are at most one, and scales are at most 33 / 8. -/
structure Embedding.Bounded (e : Embedding d) : Prop where
  entry : ∀ i j, Within 1 (e.entry i j)
  scale : ∀ j, Within (33 / 8) (e.scales.get j)

theorem bounded_drawEmbedding : (drawEmbedding source d s).1.Bounded := by
  constructor
  · intro i j
    show Within 1 ((drawVector source.unit (latentDimension * d) s).1.get _)
    rw [get_drawVector]
    exact within_unit source _
  · intro j
    show Within (33 / 8) ((drawVector (drawScale source) d _).1.get j)
    rw [get_drawVector]
    exact within_drawScale source _

/-- Terms up to one come to at most their number, however their sum is rounded. -/
theorem within_foldl {n : Nat} {term : Fin n → Float32} (hn : n ≤ 2 ^ 24)
    (h : ∀ i, Within 1 (term i)) :
    Within n (Fin.foldl n (fun sum i => sum + term i) (-0.0)) := by
  induction n with
  | zero =>
    have hzero : exactValue? (-0.0) = some 0 := by decide +kernel
    exact ⟨0, hzero, by simp⟩
  | succ n ih =>
    rw [Fin.foldl_succ_last, Nat.cast_succ]
    have hvalue := isValue_natCast hn
    rw [Nat.cast_succ] at hvalue
    exact (ih (by omega) fun i => h i.castSucc).add (h (Fin.last n)) hvalue

variable {e : Embedding d} {latent : Vector Float32 latentDimension}

theorem within_project (he : e.Bounded) (hlatent : ∀ i, Within 1 (latent.get i)) (j : Fin d) :
    Within 10 (e.project latent j) := by
  have hterm : ∀ i, Within 1 (latent.get i * e.entry i j) := by
    intro i
    have hproduct := (hlatent i).mul (he.entry i j)
      (isValue_of_eq_div (m := 1) (n := 0) (by norm_num) (by decide) (by decide))
    exact hproduct.mono (by norm_num)
  exact within_foldl (by decide) hterm

/-- No argument of the sine is greater than 330 / 8. -/
theorem within_scaled (he : e.Bounded) (hlatent : ∀ i, Within 1 (latent.get i)) (j : Fin d) :
    Within 42 (e.scaled latent j) := by
  have hvalue : IsValue (10 * (33 / 8)) :=
    isValue_of_eq_div (m := 330) (n := 3) (by norm_num) (by decide) (by decide)
  exact ((within_project he hlatent j).mul (he.scale j) hvalue).mono (by norm_num)

end Dataset

end Bounds

/-! ### Offsets -/

namespace Dataset.Embedding
variable {d : Nat} (e : Embedding d)

theorem dimension_lt (h : latentDimension * d < UInt64.size) : d < UInt64.size :=
  (Nat.le_mul_of_pos_left d (by decide)).trans_lt h

/-- The offset of an entry is less than the number of entries, and so it is a word. -/
theorem wordLookup?_eq (h : latentDimension * d < UInt64.size) (i : Fin latentDimension)
    (j : Fin d) : e.wordLookup? (.ofNat i) (.ofNat j) = some (e.entry i j) := by
  have hplace := (entry_lt i j).trans h
  have hi : i.val < UInt64.size := i.isLt.trans (by decide)
  have hstart := (Nat.le_add_right _ _).trans_lt hplace
  rw [wordLookup?, RowBuffer.mulWords?_ofNat hi (dimension_lt h) hstart]
  simp only [Option.bind_eq_bind, Option.bind_some, RowBuffer.addWords?_ofNat hplace,
    UInt64.toNat_ofNat_of_lt' hplace]
  exact Vector.getElem?_eq_getElem (entry_lt i j)

theorem wordProject?_eq (h : latentDimension * d < UInt64.size)
    (latent : Vector Float32 latentDimension) (j : Fin d) :
    e.wordProject? latent (.ofNat j) = some (e.project latent j) := by
  simp only [wordProject?, wordLookup?_eq e h, Option.bind_eq_bind, Option.bind_some]
  rw [List.foldlM_pure, project, Fin.foldl_eq_finRange_foldl]
  rfl

theorem wordScaled?_eq (h : latentDimension * d < UInt64.size)
    (latent : Vector Float32 latentDimension) (j : Fin d) :
    e.wordScaled? latent (.ofNat j) = some (e.scaled latent j) := by
  have hj := j.isLt.trans (dimension_lt h)
  simp only [wordScaled?, wordProject?_eq e h, Option.bind_eq_bind, Option.bind_some,
    UInt64.toNat_ofNat_of_lt' hj, Vector.getElem?_eq_getElem j.isLt]
  rfl

/-- A sample that is read by words is the sample: nothing that is read is out of range. -/
theorem wordApply?_eq (h : latentDimension * d < UInt64.size) (sine : Float32 → Float32)
    (latent : Vector Float32 latentDimension) :
    e.wordApply? sine latent = some (e.apply sine latent) := by
  simp only [wordApply?, wordScaled?_eq e h, Option.bind_eq_bind, Option.bind_some]
  rw [List.mapM_pure, apply, List.ofFn_eq_map]
  rfl

end Dataset.Embedding

/-! ### Datasets of angles -/

namespace Dataset
variable {σ : Type} (source : Source σ) (sine : Float32 → Float32) (d : Nat) (s : σ)

/-- The dataset with a function taken of all components. -/
def map (f : Float32 → Float32) (ds : Dataset) : Dataset :=
  ⟨ds.dimension, ds.database.map (List.map f), ds.queries.map (List.map f)⟩

theorem sample_eq_map : sample source sine d s = List.map sine ∘ sample source id d s := by
  funext r
  rw [Function.comp_apply, sample_eq, sample_eq]
  exact (List.map_ofFn ..).symm

/-- A dataset holds the sines of the one in which no sine is taken. -/
theorem generate_eq_map (nb nq : Nat) :
    generate source sine d nb nq s = (generate source id d nb nq s).map sine := by
  rw [generate_eq, generate_eq, map, List.map_map, List.map_map, sample_eq_map source sine]
  rfl

/-- What the sine is taken of. -/
theorem within_angles {nb nq : Nat} {row : Row}
    (hrow : row ∈ (generate source id d nb nq s).database ++
      (generate source id d nb nq s).queries) {x : Float32} (hx : x ∈ row) : Within 42 x := by
  rw [database_append_queries] at hrow
  obtain ⟨r, -, rfl⟩ := List.mem_map.1 hrow
  rw [sample_eq] at hx
  obtain ⟨j, rfl⟩ := List.mem_ofFn.1 hx
  refine within_scaled (bounded_drawEmbedding source s) (fun i => ?_) j
  rw [drawn, get_drawVector]
  exact within_symmetric source _

/-- **Synthetic vectors are well formed**, whatever words the source gives, if only the sine of a
finite number lies between -1 and 1. Database and queries have the size that is asked for, with
rows of the dimension; each row is what is found by reading the projection and the scales by words,
so that no place is out of range; what the sine is taken of is finite and at most 42, with either
sign; and so each component lies between -1 and 1, and none is a NaN. The dataset of a seed holds
the sines of such angles. -/
theorem generate_wellFormed {sine : Float32 → Float32}
    (bounded : ∀ x : Float32, x.isFinite = true → -1 ≤ sine x ∧ sine x ≤ 1) (nb nq : Nat)
    (fits : latentDimension * d < UInt64.size) :
    let drawing := drawEmbedding source d s
    let ds := generate source sine d nb nq s
    let angles := generate source id d nb nq s
    ds.Shape d nb nq ∧
      (∀ r < nb + nq, (ds.database ++ ds.queries)[r]? =
        drawing.1.wordApply? sine
          (drawn (drawVector source.symmetric latentDimension) r drawing.2)) ∧
      ds = angles.map sine ∧
      (∀ row ∈ angles.database ++ angles.queries, ∀ x ∈ row,
        x.isFinite = true ∧ -42 ≤ x ∧ x ≤ 42) ∧
      (∀ row ∈ ds.database ++ ds.queries, ∀ x ∈ row,
        x.isNaN = false ∧ -1 ≤ x ∧ x ≤ 1) ∧
      ∀ seed, ofSeed d nb nq seed =
        (generate ChaCha.source id d nb nq (.ofSeed seed)).map Float32.sin := by
  intro drawing ds angles
  have hmap : ds = angles.map sine := generate_eq_map source sine d s nb nq
  have hangles : ∀ row ∈ angles.database ++ angles.queries, ∀ x ∈ row, Within 42 x :=
    fun row hrow x hx => within_angles source d s hrow hx
  refine ⟨generate_shape source sine d s nb nq, fun r hr => ?_, hmap, fun row hrow x hx => ?_,
    fun row hrow x hx => ?_, fun seed => generate_eq_map ChaCha.source Float32.sin d _ nb nq⟩
  · rw [database_append_queries, getElem?_map_range, if_pos hr, Embedding.wordApply?_eq _ fits,
      sample_eq]
  · have hlow : exactValue? (-42) = some (-42) := by decide +kernel
    have hhigh : exactValue? 42 = some 42 := by decide +kernel
    have hwithin := hangles row hrow x hx
    exact ⟨hwithin.isFinite, hwithin.ge hlow, hwithin.le hhigh⟩
  · have hrows : ds.database ++ ds.queries =
        (angles.database ++ angles.queries).map (List.map sine) := by
      rw [hmap, List.map_append]
      rfl
    rw [hrows] at hrow
    obtain ⟨angleRow, hangleRow, rfl⟩ := List.mem_map.1 hrow
    obtain ⟨angle, hangle, rfl⟩ := List.mem_map.1 hx
    have hsine := bounded angle (hangles angleRow hangleRow angle hangle).isFinite
    exact ⟨(isNaN_of_le hsine.1).2, hsine⟩

/-- The sine by twelve terms of its series, rounded once. -/
def seriesSine (x : Float32) : Float32 :=
  match exactValue? x with
  | none => 0.0
  | some v =>
    let terms := (List.range 12).map fun n =>
      (-1 : ℚ) ^ n * v ^ (2 * n + 1) / (2 * n + 1).factorial
    let y := toSingle (terms.sum < 0) (single.nearest terms.sum.num.natAbs terms.sum.den)
    if -1 ≤ y ∧ y ≤ 1 then y else 0.0

theorem seriesSine_bounded (x : Float32) : -1 ≤ seriesSine x ∧ seriesSine x ≤ 1 := by
  have hzero : (-1 : Float32) ≤ 0.0 ∧ (0.0 : Float32) ≤ 1 := by decide +kernel
  rw [seriesSine]
  split
  · exact hzero
  · extract_lets terms y
    split
    · assumption
    · exact hzero

/-- For one seed, the first vector of the plane and what is known of its first component. -/
theorem generate_wellFormed_plane :
    let ds := generate ChaCha.source seriesSine 2 1 1 (.ofSeed 1234)
    let x := Float32.ofBits 0xbf7901b4
    latentDimension * 2 < UInt64.size ∧ ds.Shape 2 1 1 ∧
      ds.database = [[x, Float32.ofBits 0x3de50442]] ∧ x.isNaN = false ∧ -1 ≤ x ∧ x ≤ 1 := by
  intro ds x
  have hfits : latentDimension * 2 < UInt64.size := by decide
  have hdatabase : ds.database = [[x, Float32.ofBits 0x3de50442]] := by decide +kernel
  obtain ⟨hshape, -, -, -, hcomponents, -⟩ := generate_wellFormed ChaCha.source 2 (.ofSeed 1234)
    (fun x _ => seriesSine_bounded x) 1 1 hfits
  have hrow : [x, Float32.ofBits 0x3de50442] ∈ ds.database ++ ds.queries := by
    rw [hdatabase]
    exact List.mem_cons_self
  exact ⟨hfits, hshape, hdatabase, hcomponents _ hrow x List.mem_cons_self⟩

end Dataset

end NeighborSearch
