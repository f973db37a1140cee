import NeighborSearch.Timing

/-! What a log keeps.

Durations come in one after the other. As long as there is warm-up left, each one uses some of it
up and is lost; all later ones are kept in their order (`foldl_record`). Nothing but what is kept
shows in a statistic (`agree_of_samples`), so a log with warm-up tells the same as one without any
that the first durations were never given to (`warmup_is_dropped_prefix`). -/
namespace NeighborSearch.TimingLog

/-- Of any durations as many are lost as the warm-up says, or all if there are not so many. -/
theorem foldl_record (log : TimingLog) (durations : List Duration) :
    durations.foldl record log =
      ⟨log.warmup - durations.length,
        log.samples ++ ((durations.drop log.warmup).map Duration.inMilliseconds).toArray⟩ := by
  induction durations generalizing log with
  | nil => simp
  | cons d rest ih =>
    obtain ⟨warmup, samples⟩ := log
    rw [List.foldl_cons, ih]
    cases warmup with
    | zero => simp [record]
    | succ warmup => simp [record]

theorem size_foldl_record (log : TimingLog) (durations : List Duration) :
    (durations.foldl record log).size = log.size + (durations.length - log.warmup) := by
  simp [foldl_record, size]

/-- What a new log keeps of some durations, in milliseconds. -/
theorem samples_foldl_record (warmup : Nat) (durations : List Duration) :
    (durations.foldl record (new warmup)).samples =
      ((durations.drop warmup).map Duration.inMilliseconds).toArray := by
  simp [foldl_record, new]

/-! ### Warm-up -/

/-- Whatever is asked of two logs, they give the same answers. -/
structure Agree (log other : TimingLog) : Prop where
  size : log.size = other.size
  isEmpty : log.isEmpty = other.isEmpty
  meanMs : log.meanMs = other.meanMs
  stdMs : log.stdMs = other.stdMs
  percentileMs : ∀ p, log.percentileMs p = other.percentileMs p
  summary : log.summary = other.summary

/-- No answer tells how much warm-up is left. -/
theorem agree_of_samples {log other : TimingLog} (h : log.samples = other.samples) :
    Agree log other := by
  obtain ⟨warmup, samples⟩ := log
  obtain ⟨warmup', samples'⟩ := other
  cases h
  exact ⟨rfl, rfl, rfl, rfl, fun _ => rfl, rfl⟩

/-- **Warm-up is exactly a dropped prefix**: a log with warm-up agrees with a log without any that
takes in the same durations but the first ones. At every moment it has lost as many durations as
its warm-up says, or all so far, so a fifth of all if it was made for so many. -/
theorem warmup_is_dropped_prefix (warmup : Nat) (durations : List Duration) :
    Agree (durations.foldl record (new warmup))
        ((durations.drop (min warmup durations.length)).foldl record (new 0)) ∧
      (∀ m, ((durations.take m).foldl record (new warmup)).size =
        min m durations.length - min warmup (min m durations.length)) ∧
      (durations.foldl record (forRuns durations.length)).size =
        durations.length - durations.length / 5 := by
  have hdropped : durations.drop (min warmup durations.length) = durations.drop warmup := by
    rcases Nat.le_total warmup durations.length with h | h
    · rw [Nat.min_eq_left h]
    · rw [Nat.min_eq_right h, List.drop_length, List.drop_eq_nil_of_le h]
  refine ⟨agree_of_samples ?_, fun m => ?_, ?_⟩
  · rw [samples_foldl_record, samples_foldl_record, hdropped, List.drop_zero]
  · rw [size_foldl_record, List.length_take]
    simp only [new, size, List.size_toArray, List.length_nil]
    omega
  · rw [size_foldl_record, forRuns]
    simp [new, size]

end NeighborSearch.TimingLog
