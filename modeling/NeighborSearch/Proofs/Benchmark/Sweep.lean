import Mathlib.Data.List.Forall2
import NeighborSearch.Benchmark.Sweep

/-! What a benchmark goes through.

The stopwatch of a benchmark may keep a state of its own and show whatever it likes. A computation
takes one such state to another; `Gives` says that it succeeds, and with what. A list is gone
through element by element, each one in the state that its predecessor leaves (`InTurn`), so a
benchmark that succeeds has measured one dimension after the other (`gives_run_iff`), and for each
of them one number of neighbors after the other (`gives_measureDimension_iff`). -/
namespace NeighborSearch.Benchmark
variable {σ α β : Type}

/-- From the first state on the computation succeeds with this result and leaves the second one. -/
def Gives (x : ExceptT SearchError (StateM σ) α) (s : σ) (a : α) (t : σ) : Prop :=
  Id.run (x.run.run s) = (.ok a, t)

/-- The elements of a list are gone through one after the other, each in the state that its
predecessor leaves. -/
inductive InTurn (f : α → ExceptT SearchError (StateM σ) β) : σ → List α → List β → σ → Prop
  | nil (s : σ) : InTurn f s [] [] s
  | cons {s t u : σ} {x : α} {y : β} {xs : List α} {ys : List β} :
      Gives (f x) s y t → InTurn f t xs ys u → InTurn f s (x :: xs) (y :: ys) u

/-! ### Steps of a computation -/

section Steps
variable {s t : σ}

theorem gives_pure_iff {a b : α} : Gives (pure a) s b t ↔ a = b ∧ s = t := by
  show ((Except.ok a : Except SearchError α), s) = (.ok b, t) ↔ _
  rw [Prod.mk.injEq, Except.ok.injEq]

theorem gives_bind_iff {x : ExceptT SearchError (StateM σ) α}
    {f : α → ExceptT SearchError (StateM σ) β} {b : β} :
    Gives (x >>= f) s b t ↔ ∃ a r, Gives x s a r ∧ Gives (f a) r b t := by
  rcases hx : Id.run (x.run.run s) with ⟨e | a, r⟩
  · have failed : Id.run ((x >>= f).run.run s) = (.error e, r) := by
      simp only [ExceptT.run_bind, StateT.run_bind, Id.run_bind, hx]
      rfl
    constructor
    · intro h
      cases failed.symm.trans h
    · rintro ⟨_, _, h, -⟩
      cases hx.symm.trans h
  · have goesOn : Id.run ((x >>= f).run.run s) = Id.run ((f a).run.run r) := by
      simp only [ExceptT.run_bind, StateT.run_bind, Id.run_bind, hx]
    constructor
    · intro h
      exact ⟨a, r, hx, goesOn.symm.trans h⟩
    · rintro ⟨_, _, h, h'⟩
      cases hx.symm.trans h
      exact goesOn.trans h'

theorem gives_bind_pure_iff {x : ExceptT SearchError (StateM σ) α} {g : α → β} {b : β} :
    Gives (x >>= fun a => pure (g a)) s b t ↔ ∃ a, Gives x s a t ∧ b = g a := by
  simp only [gives_bind_iff, gives_pure_iff]
  constructor
  · rintro ⟨a, _, h, rfl, rfl⟩
    exact ⟨a, h, rfl⟩
  · rintro ⟨a, h, rfl⟩
    exact ⟨a, t, h, rfl, rfl⟩

theorem gives_attempt_bind_iff {outcome : Outcome α}
    {f : α → ExceptT SearchError (StateM σ) β} {b : β} :
    Gives (attempt outcome >>= f) s b t ↔ ∃ a, outcome = .ok a ∧ Gives (f a) s b t := by
  cases outcome with
  | error e =>
    constructor
    · intro h
      cases h
    · rintro ⟨_, h, _⟩
      cases h
  | ok a =>
    constructor
    · intro h
      exact ⟨a, rfl, h⟩
    · rintro ⟨_, h, hf⟩
      cases h
      exact hf

variable {f : α → ExceptT SearchError (StateM σ) β} {xs : List α} {ys : List β}

theorem gives_mapM_iff : Gives (xs.mapM f) s ys t ↔ InTurn f s xs ys t := by
  induction xs generalizing s ys t with
  | nil =>
    rw [List.mapM_nil, gives_pure_iff]
    constructor
    · rintro ⟨rfl, rfl⟩
      exact .nil s
    · intro h
      cases h
      exact ⟨rfl, rfl⟩
  | cons x xs ih =>
    rw [List.mapM_cons, gives_bind_iff]
    simp only [gives_bind_pure_iff, ih]
    constructor
    · rintro ⟨y, r, hy, rest, hrest, rfl⟩
      exact .cons hy hrest
    · intro h
      cases h with
      | cons hy hrest => exact ⟨_, _, hy, _, hrest, rfl⟩

/-- What each step relates, the whole lists have element by element. -/
theorem InTurn.forall₂ {R : α → β → Prop} (h : InTurn f s xs ys t)
    (step : ∀ {x s y t}, Gives (f x) s y t → R x y) : List.Forall₂ R xs ys := by
  induction h with
  | nil => exact .nil
  | cons hy _ ih => exact .cons (step hy) ih

/-- Each result is that of a step. -/
theorem InTurn.gives_of_mem {y : β} (h : InTurn f s xs ys t) (hy : y ∈ ys) :
    ∃ x s' t', Gives (f x) s' y t' := by
  induction h with
  | nil => cases hy
  | cons hfirst _ ih =>
    rcases List.mem_cons.1 hy with rfl | hy
    · exact ⟨_, _, _, hfirst⟩
    · exact ih hy

end Steps

/-! ### The parts of a benchmark -/

section Parts
variable {watch : Stopwatch (StateM σ)} {plan : Plan} {s t : σ} {d k : Nat}

theorem gives_measure_iff {index : Index} {queries : List Row} {m : Measurement} :
    Gives (measure watch plan d index queries k) s m t ↔
      ∃ found, Gives (repeatSearch watch index queries k plan.runs (.forRuns plan.runs, 0)) s
        found t ∧ m = ⟨d, k, found.2, found.1.summary⟩ :=
  gives_bind_pure_iff

theorem gives_measureDimension_iff {line : List Measurement} :
    Gives (measureDimension watch plan d) s line t ↔
      ∃ index, indexOf plan (.ofSeed d plan.nb plan.nq plan.seed) = .ok index ∧
        InTurn (measure watch plan d index (Dataset.ofSeed d plan.nb plan.nq plan.seed).queries)
          s plan.ks line t := by
  rw [measureDimension, gives_attempt_bind_iff]
  simp only [gives_mapM_iff]

theorem gives_run_iff {report : Report} :
    Gives (run watch plan) s report t ↔
      ∃ grid, InTurn (measureDimension watch plan) s plan.dims grid t ∧
        report = ⟨plan, grid.flatten⟩ := by
  rw [run, gives_bind_pure_iff]
  simp only [gives_mapM_iff]

end Parts

end NeighborSearch.Benchmark
