import NeighborSearch.Dataset
import NeighborSearch.Proofs.Index.Rows

/-! A dataset is one sequence of samples, cut in two.

A source is a state, and drawing goes through it (`stateAfter`). So the draw with some number is a
matter of the state in which drawing starts (`drawn`), however many draws there are, and drawing a
list is listing the draws by number (`drawList_eq`). Behind the embedding a dataset draws samples
only, those of the database before those of the queries: its rows are the samples by number
(`generate_eq`), and where the database ends is of no matter for any of them
(`generate_one_sequence`). -/
namespace NeighborSearch

namespace Random
variable {σ α : Type} (draw : σ → α × σ)

/-! ### Draws by number -/

/-- The state that so many draws leave. -/
def stateAfter : Nat → σ → σ
  | 0, s => s
  | n + 1, s => stateAfter n (draw s).2

/-- The draw with this number, counted from zero. -/
def drawn (n : Nat) (s : σ) : α := (draw (stateAfter draw n s)).1

theorem stateAfter_add (m n : Nat) (s : σ) :
    stateAfter draw (m + n) s = stateAfter draw n (stateAfter draw m s) := by
  induction m generalizing s with
  | zero => rw [Nat.zero_add, stateAfter]
  | succ m ih => rw [Nat.succ_add, stateAfter, stateAfter, ih]

theorem drawn_add (m n : Nat) (s : σ) :
    drawn draw (m + n) s = drawn draw n (stateAfter draw m s) := by
  rw [drawn, drawn, stateAfter_add]

/-- The states are those of every draw that goes through them in this way. -/
theorem stateAfter_congr {β : Type} {draw : σ → α × σ} {draw' : σ → β × σ}
    (h : ∀ s, (draw s).2 = (draw' s).2) (n : Nat) (s : σ) :
    stateAfter draw n s = stateAfter draw' n s := by
  induction n generalizing s with
  | zero => rfl
  | succ n ih => rw [stateAfter, stateAfter, h, ih]

theorem drawInto_eq (n : Nat) (before : Array α) (s : σ) :
    drawInto draw n before s =
      (before ++ ((List.range n).map fun i => drawn draw i s).toArray, stateAfter draw n s) := by
  induction n generalizing before s with
  | zero => simp [drawInto, stateAfter]
  | succ n ih =>
    have hdraws : (List.range (n + 1)).map (fun i => drawn draw i s) =
        (draw s).1 :: (List.range n).map fun i => drawn draw i (draw s).2 := by
      rw [List.range_succ_eq_map, List.map_cons, List.map_map]
      rfl
    show drawInto draw n (before.push (draw s).1) (draw s).2 = _
    rw [ih, hdraws, stateAfter]
    congr 1
    apply Array.toList_inj.1
    simp

/-- A vector of draws holds the draws by number. -/
theorem get_drawVector (n : Nat) (s : σ) (i : Fin n) :
    (drawVector draw n s).1.get i = drawn draw i s := by
  simp only [drawVector, drawInto_eq, Vector.get, Array.empty_append, List.getElem_toArray,
    List.getElem_map, List.getElem_range]
  rfl

/-- A list of draws holds the draws by number. -/
theorem drawList_eq (n : Nat) (s : σ) :
    drawList draw n s = ((List.range n).map fun i => drawn draw i s, stateAfter draw n s) := by
  simp only [drawList, drawInto_eq, Array.toList_append, List.nil_append]

end Random

open NeighborSearch.Random

namespace Dataset
variable {σ : Type} (source : Source σ) (sine : Float32 → Float32) (d : Nat) (s : σ)

/-! ### Samples by number -/

/-- The sample with this number: no size of a dataset comes into it. -/
def sample (r : Nat) : Row :=
  let (e, s) := drawEmbedding source d s
  drawn (drawSample source sine e) r s

theorem length_sample (r : Nat) : (sample source sine d s r).length = d :=
  List.length_ofFn

/-- The rows of the database are the first samples, those of the queries come next. -/
theorem generate_eq (nb nq : Nat) :
    generate source sine d nb nq s =
      ⟨d, (List.range nb).map (sample source sine d s),
        (List.range nq).map fun r => sample source sine d s (nb + r)⟩ := by
  simp only [generate, drawList_eq, sample, drawn_add]
  rfl

/-- A sample uses up the words of its latent point, whatever the sine. -/
theorem stateAfter_drawSample (e : Embedding d) (r : Nat) :
    stateAfter (drawSample source sine e) r s =
      stateAfter (drawVector source.symmetric latentDimension) r s := by
  refine stateAfter_congr (fun s => ?_) r s
  rfl

/-- A sample is the image of the latent point with its number. -/
theorem sample_eq (r : Nat) :
    sample source sine d s r =
      let (e, s) := drawEmbedding source d s
      e.apply sine (drawn (drawVector source.symmetric latentDimension) r s) := by
  simp only [sample, drawn, stateAfter_drawSample, drawSample]

/-- How many rows there are, and how long they are. -/
structure Shape (ds : Dataset) (d nb nq : Nat) : Prop where
  dimension : ds.dimension = d
  database : ds.database.length = nb
  queries : ds.queries.length = nq
  length_row : ∀ row ∈ ds.database ++ ds.queries, row.length = d

theorem generate_shape (nb nq : Nat) : (generate source sine d nb nq s).Shape d nb nq := by
  rw [generate_eq]
  refine ⟨rfl, by simp, by simp, fun row hrow => ?_⟩
  rcases List.mem_append.1 hrow with hrow | hrow
  · obtain ⟨r, _, rfl⟩ := List.mem_map.1 hrow
    exact length_sample source sine d s r
  · obtain ⟨r, _, rfl⟩ := List.mem_map.1 hrow
    exact length_sample source sine d s (nb + r)

theorem database_append_queries (nb nq : Nat) :
    (generate source sine d nb nq s).database ++ (generate source sine d nb nq s).queries =
      (List.range (nb + nq)).map (sample source sine d s) := by
  rw [generate_eq, List.range_add, List.map_append, List.map_map]
  rfl

/-- **Database and queries are one sequence of samples.** Database and queries together are the
database of as many rows; each row is the sample with its number; and a larger dataset begins with
the database of a smaller one. This holds of every source of random words and every sine, and so
of the datasets that are made from a seed. -/
theorem generate_one_sequence (nb nq : Nat) :
    (generate source sine d nb nq s).database ++ (generate source sine d nb nq s).queries =
        (generate source sine d (nb + nq) 0 s).database ∧
      (∀ r, ((generate source sine d nb nq s).database ++
          (generate source sine d nb nq s).queries)[r]? =
        if r < nb + nq then some (sample source sine d s r) else none) ∧
      (∀ more others, (generate source sine d nb nq s).database <+:
        (generate source sine d (nb + more) others s).database) ∧
      ∀ seed, (ofSeed d nb nq seed).database ++ (ofSeed d nb nq seed).queries =
        (ofSeed d (nb + nq) 0 seed).database := by
  refine ⟨?_, fun r => ?_, fun more others => ?_, fun seed => ?_⟩
  · rw [database_append_queries, generate_eq]
  · rw [database_append_queries, getElem?_map_range]
  · rw [generate_eq, generate_eq, List.range_add, List.map_append]
    exact List.prefix_append _ _
  · rw [ofSeed, database_append_queries, ofSeed, generate_eq]

end Dataset

end NeighborSearch
