import NeighborSearch.Json.Codec
import NeighborSearch.Proofs.Json.ReadBack
import NeighborSearch.Proofs.Json.Text

/-! What vectors and hits come back as from their JSON form.

What a record is written as can be read back (`Printable`): a number begins with a zero only if
that is all there is before the point. So a record comes back as its values do (`ComeBackAs`), and
these are whole numbers of 64 bits and finite single-precision values. With a reader that takes the
nearest double first, one single-precision value and its negative are changed; with one that scales
words, nothing is (`vectors_and_hits_come_back`). This library has such a one, so its vectors and
hits survive (`vectors_and_hits_survive`). -/
namespace NeighborSearch
open Json Decimal

/-! ### Numbers in a text -/

namespace Json

theorem isWhole_cons {d : Digit} (hd : d ≠ Digit.zero) (ds : List Digit) :
    isWhole (d :: ds) = true := by
  cases ds with
  | nil => rfl
  | cons e ds => exact bne_iff_ne.2 hd

theorem isWhole_toDigits (n : Nat) : isWhole (toDigits n) = true := by
  rcases Nat.eq_zero_or_pos n with rfl | hn
  · rw [toDigits_of_lt (by decide)]
    rfl
  · obtain ⟨d, ds, hds, hd⟩ := head_toDigits_ne_zero hn
    rw [hds]
    exact isWhole_cons hd ds

theorem isWhole_positional (negative : Bool) {d : Digit} (hd : d ≠ Digit.zero) (ds : List Digit)
    (e : Int) : isWhole (positional negative (d :: ds) e).whole = true := by
  rw [positional]
  split
  · exact isWhole_cons hd _
  · dsimp only
    generalize (-e).toNat = places
    by_cases hlength : places < (d :: ds).length
    · obtain ⟨n, hn⟩ : ∃ n, (d :: ds).length - places = n + 1 :=
        ⟨(d :: ds).length - places - 1, by omega⟩
      rw [show places + 1 - (d :: ds).length = 0 by omega]
      show isWhole ((d :: ds).take ((d :: ds).length - places)) = true
      rw [hn, List.take_succ_cons]
      exact isWhole_cons hd _
    · obtain ⟨n, hn⟩ : ∃ n, places + 1 - (d :: ds).length = n + 1 :=
        ⟨places - (d :: ds).length, by omega⟩
      rw [hn, List.length_append, zeros, List.length_replicate,
        show n + 1 + (d :: ds).length - places = 1 by omega]
      rfl

theorem isWhole_numeral (negative : Bool) (k : Nat) :
    isWhole (singleLayout.numeral negative k).whole = true := by
  cases k with
  | zero => rfl
  | succ k =>
    obtain ⟨-, hpos, -⟩ := shortest_spec (f := Binary.single) (by decide) (by decide) k
    obtain ⟨d, ds, hds, hd⟩ := head_toDigits_ne_zero hpos
    have hdigits : toDigits (shortest singleLayout.format (k + 1)).coefficient = d :: ds := hds
    rw [Layout.numeral, if_neg (Nat.succ_ne_zero k), hdigits]
    split
    · exact isWhole_positional negative hd ds _
    · rfl

theorem printable_ofNat (n : Nat) : Printable (.ofNat n) := .number (isWhole_toDigits n)

theorem printable_ofSingle (x : Float32) : Printable (.ofSingle x) := by
  rw [Json.ofSingle]
  cases Binary.ofSingle x with
  | nan => exact .null
  | infinite negative => exact .null
  | finite negative k => exact .number (isWhole_numeral negative k)

/-! ### Records -/

theorem printable_record {fields : List (String × Json)}
    (h : ∀ field ∈ fields, Printable field.2) : Printable (.record fields) := by
  refine .object ?_ ?_
  · exact List.forall_mem_map.2 fun _ _ => rfl
  · exact List.forall_mem_map.2 h

theorem read?_write {α : Type} (ofJson? : Json → Option α) {v : Json} (h : Printable v) :
    read? ofJson? (write v) = ofJson? v := by
  rw [read?, write, String.toList_ofList, parse?_compact h, Option.bind_some]

theorem list?_map {α β : Type} (toJson : α → Json) (ofJson? : Json → Option β) (f : α → β)
    {xs : List α} (h : ∀ x ∈ xs, ofJson? (toJson x) = some (f x)) :
    list? ofJson? (.array (xs.map toJson)) = some (xs.map f) := by
  rw [list?]
  induction xs with
  | nil => rfl
  | cons x xs ih =>
    rw [List.map_cons, List.mapM_cons, h x List.mem_cons_self,
      ih fun y hy => h y (List.mem_cons_of_mem x hy)]
    rfl

/-! ### Vectors and hits -/

/-- What vectors of finite components and hits with 64-bit ids and finite distances are written as
is read as the same vectors and hits, with each of their single-precision values changed like
this. -/
structure ComeBackAs (reader : Numeral → Option Float32) (f : Float32 → Float32) : Prop where
  vectors : ∀ v : DenseVector, (∀ x ∈ v.components, x.isFinite = true) →
    read? (DenseVector.ofJsonBy? reader) (write v.toJson) = some ⟨v.components.map f⟩
  hits : ∀ n : Neighbor, n.id < 2 ^ 64 → n.score.isFinite = true →
    read? (Neighbor.ofJsonBy? reader) (write n.toJson) = some ⟨n.id, f n.score⟩

/-- Records come back as their single-precision values do. -/
theorem comeBackAs {reader : Numeral → Option Float32} {f : Float32 → Float32}
    (h : ∀ x : Float32, x.isFinite = true → singleBy? reader (Json.ofSingle x) = some (f x)) :
    ComeBackAs reader f := by
  constructor
  · intro v hv
    have hprintable : Printable v.toJson := by
      refine printable_record (List.forall_mem_singleton.2 (.array ?_))
      exact List.forall_mem_map.2 fun x _ => printable_ofSingle x
    have hdata := list?_map Json.ofSingle (singleBy? reader) f fun x hx => h x (hv x hx)
    rw [read?_write _ hprintable]
    show (list? (singleBy? reader) (.array (v.components.map .ofSingle))).bind _ = _
    rw [hdata]
    rfl
  · intro n hid hscore
    have hprintable : Printable n.toJson := by
      refine printable_record ?_
      rintro field (_ | ⟨_, _ | ⟨_, ⟨⟩⟩⟩)
      · exact printable_ofNat n.id
      · exact printable_ofSingle n.score
    rw [read?_write _ hprintable]
    show (do return Neighbor.mk (← nat? (.ofNat n.id)) (← singleBy? reader (.ofSingle n.score))) = _
    rw [nat?_ofNat hid, h n.score hscore]
    rfl

/-- **What vectors and hits come back as from their JSON form** is a matter of the reader of numbers.
If numbers are rounded to the nearest double and then to single precision, the value with the bits
`15ae43fd` and its negative come back as their neighbors, and everything else as it was, down to
the signs of zeros. If words are scaled by one power of ten, everything comes back as it was. -/
theorem vectors_and_hits_come_back (reader : Numeral → Option Float32) :
    (RoundsTwice reader → ComeBackAs reader throughDouble) ∧
      (ScalesWords reader → ComeBackAs reader id) :=
  ⟨fun h => comeBackAs fun _ hx => h.singleBy?_ofSingle hx,
    fun h => comeBackAs fun _ hx => h.singleBy?_ofSingle hx⟩

/-- A value whose decimal lies next to a midpoint, the negative zero and the least value. -/
theorem vectors_and_hits_come_back_delicate :
    (RoundsTwice readTwice ∧
      read? (DenseVector.ofJsonBy? readTwice) (write (DenseVector.mk
          [Float32.ofBits 0x15ae43fd, -0.0, Float32.ofBits 1]).toJson) =
        some ⟨[Float32.ofBits 0x15ae43fe, -0.0, Float32.ofBits 1]⟩) ∧
    ScalesWords Numeral.single? ∧
      read? (DenseVector.ofJsonBy? Numeral.single?) (write (DenseVector.mk
          [Float32.ofBits 0x15ae43fd, -0.0, Float32.ofBits 1]).toJson) =
        some ⟨[Float32.ofBits 0x15ae43fd, -0.0, Float32.ofBits 1]⟩ ∧
      read? (Neighbor.ofJsonBy? Numeral.single?) (write (Neighbor.mk (2 ^ 64 - 1) (-0.0)).toJson) =
        some ⟨2 ^ 64 - 1, -0.0⟩ := by
  have hrounded := (vectors_and_hits_come_back readTwice).1 readTwice_roundsTwice
  have hscaled := (vectors_and_hits_come_back Numeral.single?).2 single?_scalesWords
  exact ⟨⟨readTwice_roundsTwice, hrounded.vectors _ (by decide +kernel)⟩, single?_scalesWords,
    hscaled.vectors _ (by decide +kernel), hscaled.hits _ (by decide) (by decide +kernel)⟩

/-- **Not every vector survives if numbers are rounded twice**: this one is read as another one,
which is written as another text. -/
theorem vector_lost_between_doubles :
    RoundsTwice readTwice ∧ (Float32.ofBits 0x15ae43fd).isFinite = true ∧
      write (DenseVector.mk [Float32.ofBits 0x15ae43fd]).toJson =
        "\x7b\"data\":[7.038531e-26]\x7d" ∧
      read? (DenseVector.ofJsonBy? readTwice) "\x7b\"data\":[7.038531e-26]\x7d" =
        some ⟨[Float32.ofBits 0x15ae43fe]⟩ ∧
      DenseVector.mk [Float32.ofBits 0x15ae43fe] ≠ ⟨[Float32.ofBits 0x15ae43fd]⟩ ∧
      write (DenseVector.mk [Float32.ofBits 0x15ae43fe]).toJson =
        "\x7b\"data\":[7.0385313e-26]\x7d" := by
  have hfinite : (Float32.ofBits 0x15ae43fd).isFinite = true := by decide +kernel
  have hwrite : write (DenseVector.mk [Float32.ofBits 0x15ae43fd]).toJson =
      "\x7b\"data\":[7.038531e-26]\x7d" := by
    decide +kernel
  have hread := (comeBackAs fun _ hx => readTwice_roundsTwice.singleBy?_ofSingle hx).vectors
    ⟨[Float32.ofBits 0x15ae43fd]⟩ (List.forall_mem_singleton.2 hfinite)
  rw [hwrite] at hread
  refine ⟨readTwice_roundsTwice, hfinite, hwrite, hread, fun h => ?_, by decide +kernel⟩
  have hbits := congrArg (fun v => v.components.map Float32.toBits) h
  exact absurd hbits (by decide +kernel)

end Json

/-- **Vectors and hits survive their JSON form** as this library reads it. -/
theorem Json.vectors_and_hits_survive :
    (∀ v : DenseVector, (∀ x ∈ v.components, x.isFinite = true) →
        read? DenseVector.ofJson? (write v.toJson) = some v) ∧
      ∀ n : Neighbor, n.id < 2 ^ 64 → n.score.isFinite = true →
        read? Neighbor.ofJson? (write n.toJson) = some n := by
  have h : ComeBackAs Numeral.single? id :=
    comeBackAs fun _ hx => single?_scalesWords.singleBy?_ofSingle hx
  refine ⟨fun v hv => ?_, h.hits⟩
  have hread := h.vectors v hv
  rwa [List.map_id] at hread

end NeighborSearch
