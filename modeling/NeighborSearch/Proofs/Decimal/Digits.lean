import Mathlib
import NeighborSearch.Decimal.Basic

/-! Numbers and their digits.

`toDigits` and `ofDigits` undo each other (`ofDigits_toDigits`), the digits of a number tell its
size (`pow_length_le`, `lt_pow_length`) and do not begin with a zero (`head_toDigits_ne_zero`).
Digits that are written out are read back up to the first character that is none
(`spanDigits_map_toChar`). -/
namespace NeighborSearch.Decimal
variable {n : Nat} {ds es : List Digit}

/-! ### The number that digits spell -/

theorem foldl_digits (n : Nat) (ds : List Digit) :
    ds.foldl (fun n d => 10 * n + d.val) n = n * 10 ^ ds.length + ofDigits ds := by
  induction ds generalizing n with
  | nil => simp [ofDigits]
  | cons d ds ih =>
    have hds : ofDigits (d :: ds) = d.val * 10 ^ ds.length + ofDigits ds := by
      rw [ofDigits, List.foldl_cons, ih, Nat.mul_zero, Nat.zero_add]
    rw [List.foldl_cons, ih, hds, List.length_cons, pow_succ]
    ring

theorem ofDigits_append (ds es : List Digit) :
    ofDigits (ds ++ es) = ofDigits ds * 10 ^ es.length + ofDigits es := by
  rw [ofDigits, List.foldl_append, foldl_digits _ es]
  rfl

theorem ofDigits_replicate_zero (n : Nat) : ofDigits (List.replicate n Digit.zero) = 0 := by
  induction n with
  | zero => rfl
  | succ n ih =>
    have hzero : Digit.zero.val = 0 := rfl
    rwa [List.replicate_succ, ofDigits, List.foldl_cons, hzero]

theorem ofDigits_lt (ds : List Digit) : ofDigits ds < 10 ^ ds.length := by
  induction ds using List.reverseRecOn with
  | nil => exact Nat.one_pos
  | append_singleton ds d ih =>
    have hd := d.isLt
    have hlast : ofDigits [d] = d.val := by simp [ofDigits]
    rw [ofDigits_append, hlast, List.length_append, List.length_singleton, pow_one, pow_succ]
    omega

/-! ### The digits of a number -/

theorem toDigits_go (n : Nat) (tail : List Digit) : toDigits.go n tail = toDigits n ++ tail := by
  induction n using Nat.strong_induction_on generalizing tail with
  | _ n ih =>
    have hgo : ∀ t, toDigits.go n t = if n < 10 then ⟨n % 10, Nat.mod_lt _ (by decide)⟩ :: t
        else toDigits.go (n / 10) (⟨n % 10, Nat.mod_lt _ (by decide)⟩ :: t) := fun t => by
      rw [toDigits.go]
    rw [toDigits, hgo, hgo []]
    split
    · rfl
    · have hlt : n / 10 < n := Nat.div_lt_self (by omega) (by decide)
      rw [ih _ hlt, ih _ hlt, List.append_assoc]
      rfl

theorem toDigits_of_lt (h : n < 10) : toDigits n = [⟨n, h⟩] := by
  rw [toDigits, toDigits.go, if_pos h]
  simp only [Nat.mod_eq_of_lt h]

theorem toDigits_of_le (h : 10 ≤ n) :
    toDigits n = toDigits (n / 10) ++ [⟨n % 10, Nat.mod_lt _ (by decide)⟩] := by
  rw [toDigits, toDigits.go, if_neg (by omega), toDigits_go]

theorem ofDigits_toDigits (n : Nat) : ofDigits (toDigits n) = n := by
  induction n using Nat.strong_induction_on with
  | _ n ih =>
    rcases Nat.lt_or_ge n 10 with h | h
    · simp [toDigits_of_lt h, ofDigits]
    · have hlast : ofDigits [⟨n % 10, Nat.mod_lt _ (by decide)⟩] = n % 10 := by simp [ofDigits]
      rw [toDigits_of_le h, ofDigits_append, hlast, ih _ (by omega), List.length_singleton]
      omega

theorem lt_pow_length (n : Nat) : n < 10 ^ (toDigits n).length := by
  have h := ofDigits_lt (toDigits n)
  rwa [ofDigits_toDigits] at h

theorem length_toDigits_pos (n : Nat) : 0 < (toDigits n).length := by
  rcases Nat.lt_or_ge n 10 with h | h
  · rw [toDigits_of_lt h]
    exact Nat.one_pos
  · rw [toDigits_of_le h, List.length_append]
    exact Nat.succ_pos _

theorem pow_length_le (h : 0 < n) : 10 ^ ((toDigits n).length - 1) ≤ n := by
  induction n using Nat.strong_induction_on with
  | _ n ih =>
    rcases Nat.lt_or_ge n 10 with hlt | hge
    · rw [toDigits_of_lt hlt]
      exact h
    · have hrest := ih (n / 10) (by omega) (by omega)
      have hpos := length_toDigits_pos (n / 10)
      rw [toDigits_of_le hge, List.length_append, List.length_singleton, Nat.add_sub_cancel]
      obtain ⟨l, hl⟩ : ∃ l, (toDigits (n / 10)).length = l + 1 :=
        ⟨_, (Nat.sub_add_cancel hpos).symm⟩
      rw [hl, Nat.add_sub_cancel] at hrest
      rw [hl, pow_succ]
      omega

/-- No digit too many: only the number zero begins with a zero. -/
theorem head_toDigits_ne_zero (h : 0 < n) : ∃ d rest, toDigits n = d :: rest ∧ d ≠ Digit.zero := by
  induction n using Nat.strong_induction_on with
  | _ n ih =>
    rcases Nat.lt_or_ge n 10 with hlt | hge
    · refine ⟨⟨n, hlt⟩, [], toDigits_of_lt hlt, fun hzero => ?_⟩
      exact h.ne' (congrArg Fin.val hzero)
    · obtain ⟨d, rest, hrest, hd⟩ := ih (n / 10) (by omega) (by omega)
      exact ⟨d, _, by rw [toDigits_of_le hge, hrest, List.cons_append], hd⟩

/-! ### Digits in a text -/

theorem Digit.ofChar?_toChar (d : Digit) : Digit.ofChar? d.toChar = some d := by
  revert d
  decide

theorem Digit.eq_toChar {c : Char} {d : Digit} (h : Digit.ofChar? c = some d) : c = d.toChar := by
  rw [Digit.ofChar?] at h
  split at h
  · next hc =>
    cases h
    rw [Digit.toChar, Nat.add_sub_of_le hc.1, Char.ofNat_toNat]
  · cases h

/-- Whether a text does not begin with a digit. -/
def NoDigit (cs : List Char) : Prop := ∀ c rest, cs = c :: rest → Digit.ofChar? c = none

theorem spanDigits_of_noDigit {cs : List Char} (h : NoDigit cs) : spanDigits cs = ([], cs) := by
  cases cs with
  | nil => rfl
  | cons c rest => rw [spanDigits, h c rest rfl]

theorem spanDigits_map_toChar (ds : List Digit) {rest : List Char} (h : NoDigit rest) :
    spanDigits (ds.map Digit.toChar ++ rest) = (ds, rest) := by
  induction ds with
  | nil => exact spanDigits_of_noDigit h
  | cons d ds ih => rw [List.map_cons, List.cons_append, spanDigits, Digit.ofChar?_toChar, ih]

theorem eq_of_spanDigits {cs rest : List Char} (h : spanDigits cs = (ds, rest)) :
    cs = ds.map Digit.toChar ++ rest := by
  induction cs generalizing ds with
  | nil =>
    cases h
    rfl
  | cons c cs ih =>
    rw [spanDigits] at h
    split at h
    · cases h
      rfl
    · next d hd =>
      cases h
      rw [List.map_cons, List.cons_append, ← ih rfl, ← Digit.eq_toChar hd]

end NeighborSearch.Decimal
