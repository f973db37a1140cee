import NeighborSearch.Json.Codec
import NeighborSearch.Proofs.Benchmark.Matrix
import NeighborSearch.Proofs.Json.Number
import NeighborSearch.Proofs.Timing.Statistics

/-! The numbers of a report.

The timing of a measurement is the summary of a log that was given as many durations as there were
runs, whatever the stopwatch showed (`timing_of_mem`). Statistics of a log are finite and not
negative, and those are written as numbers without a minus sign, so a report in JSON holds no null
and nothing below zero (`timings_finite`). -/
namespace NeighborSearch
open Binary

/-- A finite number whose sign bit is clear. -/
structure Binary.Proper (x : Float) : Prop where
  isFinite : x.isFinite = true
  signClear : x.toBits < 0x8000000000000000

theorem Binary.Proper.exists_magnitude {x : Float} (h : Proper x) :
    ∃ k, ofDouble x = .finite false k := by
  obtain ⟨negative, k, hx⟩ := double_isFinite_iff.1 h.isFinite
  have hpattern : double.pattern negative k = x.toBits.toNat :=
    Format.pattern_of_decode x.toBits.toNat_lt hx
  have hlt : x.toBits.toNat < double.signBit := UInt64.lt_iff_toNat_lt.1 h.signClear
  cases negative with
  | false => exact ⟨k, hx⟩
  | true =>
    have hsign : double.pattern true k = double.signBit + k := rfl
    omega

theorem Binary.Bounded.proper {n : Nat} {x : Float} (h : Bounded n x) : Proper x :=
  ⟨h.isFinite, h.toBits_lt⟩

namespace TimingSummary

/-- All four statistics of a summary are finite, with clear signs. -/
structure Proper (s : TimingSummary) : Prop where
  meanMs : Binary.Proper s.meanMs
  stdMs : Binary.Proper s.stdMs
  p50Ms : Binary.Proper s.p50Ms
  p99Ms : Binary.Proper s.p99Ms

end TimingSummary

theorem TimingLog.Sampled.proper_summary {log : TimingLog} (h : log.Sampled) :
    log.summary.Proper where
  meanMs := h.bounded_meanMs.proper
  stdMs := h.bounded_stdMs.proper
  p50Ms := (h.bounded_percentileMs 50.0).proper
  p99Ms := (h.bounded_percentileMs 99.0).proper

/-! ### Values without nulls and minus signs -/

namespace Json

/-- Nowhere in a value is a null, or a number with a minus sign. -/
inductive NonNegative : Json → Prop
  | bool (b : Bool) : NonNegative (.bool b)
  | number {n : Numeral} (h : n.negative = false) : NonNegative (.number n)
  | string (s : JsonString) : NonNegative (.string s)
  | array {items : List Json} (h : ∀ item ∈ items, NonNegative item) : NonNegative (.array items)
  | object {fields : List (JsonString × Json)} (h : ∀ field ∈ fields, NonNegative field.2) :
      NonNegative (.object fields)

theorem nonNegative_ofNat (n : Nat) : NonNegative (.ofNat n) := .number rfl

theorem nonNegative_ofDouble {x : Float} (h : Proper x) : NonNegative (.ofDouble x) := by
  obtain ⟨k, hx⟩ := h.exists_magnitude
  rw [Json.ofDouble, hx]
  exact .number (negative_numeral _ _ _)

theorem nonNegative_record {fields : List (String × Json)}
    (h : ∀ field ∈ fields, NonNegative field.2) : NonNegative (.record fields) :=
  .object (List.forall_mem_map.2 h)

theorem nonNegative_map {α : Type} {toJson : α → Json} {xs : List α}
    (h : ∀ x ∈ xs, NonNegative (toJson x)) : NonNegative (.array (xs.map toJson)) :=
  .array (List.forall_mem_map.2 h)

end Json

/-! ### Reports -/

theorem TimingSummary.nonNegative_toJson {s : TimingSummary} (h : s.Proper) :
    s.toJson.NonNegative := by
  refine Json.nonNegative_record ?_
  simp only [List.forall_mem_cons]
  exact ⟨Json.nonNegative_ofNat _, Json.nonNegative_ofDouble h.meanMs,
    Json.nonNegative_ofDouble h.stdMs, Json.nonNegative_ofDouble h.p50Ms,
    Json.nonNegative_ofDouble h.p99Ms, List.forall_mem_nil _⟩

namespace Benchmark
variable {σ : Type} {watch : Stopwatch (StateM σ)} {plan : Plan} {s t : σ}

theorem Plan.nonNegative_toJson (plan : Plan) : plan.toJson.NonNegative := by
  refine Json.nonNegative_record ?_
  simp only [List.forall_mem_cons]
  exact ⟨Json.nonNegative_map fun _ _ => Json.nonNegative_ofNat _, Json.nonNegative_ofNat _,
    Json.nonNegative_ofNat _, Json.nonNegative_map fun _ _ => Json.nonNegative_ofNat _,
    Json.nonNegative_ofNat _, Json.nonNegative_ofNat _, .string _, Json.nonNegative_ofNat _,
    List.forall_mem_nil _⟩

theorem Measurement.nonNegative_toJson {m : Measurement} (h : m.timing.Proper) :
    m.toJson.NonNegative := by
  refine Json.nonNegative_record ?_
  simp only [List.forall_mem_cons]
  exact ⟨Json.nonNegative_ofNat _, Json.nonNegative_ofNat _, Json.nonNegative_ofNat _,
    TimingSummary.nonNegative_toJson h, List.forall_mem_nil _⟩

theorem Report.nonNegative_toJson {report : Report}
    (h : ∀ m ∈ report.measurements, m.timing.Proper) : report.toJson.NonNegative := by
  refine Json.nonNegative_record ?_
  simp only [List.forall_mem_cons]
  exact ⟨report.plan.nonNegative_toJson,
    Json.nonNegative_map fun m hm => Measurement.nonNegative_toJson (h m hm),
    List.forall_mem_nil _⟩

/-- Each search that goes well leaves a duration in the log. -/
theorem exists_durations {index : Index} {queries : List Row} {k n : Nat}
    {found last : TimingLog × Nat} (h : Gives (repeatSearch watch index queries k n found) s last t) :
    ∃ durations : List Duration, durations.length = n ∧
      last.1 = durations.foldl TimingLog.record found.1 := by
  induction n generalizing found s with
  | zero =>
    obtain ⟨rfl, -⟩ := gives_pure_iff.1 h
    exact ⟨[], rfl, rfl⟩
  | succ n ih =>
    obtain ⟨⟨_, duration⟩, r, -, hrest⟩ := gives_bind_iff.1 h
    obtain ⟨results, -, hrest⟩ := gives_attempt_bind_iff.1 hrest
    obtain ⟨durations, hlength, hlast⟩ := ih hrest
    exact ⟨duration :: durations, congrArg (· + 1) hlength, hlast⟩

/-- What a summary in a report is made of. -/
theorem timing_of_mem {report : Report} (h : Gives (run watch plan) s report t) :
    ∀ m ∈ report.measurements, ∃ durations : List Duration, durations.length = plan.runs ∧
      m.timing = (durations.foldl TimingLog.record (.forRuns plan.runs)).summary := by
  obtain ⟨grid, hturn, rfl⟩ := gives_run_iff.1 h
  intro m hm
  obtain ⟨line, hline, hm⟩ := List.mem_flatten.1 hm
  obtain ⟨d, _, _, hdimension⟩ := hturn.gives_of_mem hline
  obtain ⟨_, _, hmeasured⟩ := gives_measureDimension_iff.1 hdimension
  obtain ⟨k, _, _, hmeasure⟩ := hmeasured.gives_of_mem hm
  obtain ⟨_, hfound, rfl⟩ := gives_measure_iff.1 hmeasure
  obtain ⟨durations, hlength, hlast⟩ := exists_durations hfound
  exact ⟨durations, hlength, congrArg TimingLog.summary hlast⟩

/-! ### All statistics are finite -/

/-- **Timings are finite and not negative**: whatever durations a log was given, all statistics of
its summary and all percentiles are finite numbers with a clear sign. So the report of a benchmark,
whatever its stopwatch showed, holds neither a null nor a number with a minus sign. -/
theorem timings_finite :
    (∀ (warmup : Nat) (durations : List Duration),
      let log := durations.foldl TimingLog.record (.new warmup)
      log.summary.Proper ∧ ∀ p, Proper (log.percentileMs p)) ∧
    ∀ {σ : Type} (watch : Stopwatch (StateM σ)) (plan : Plan) (s t : σ) (report : Report),
      Gives (run watch plan) s report t → report.toJson.NonNegative := by
  refine ⟨fun warmup durations => ?_, fun watch plan s t report h => ?_⟩
  · have hsampled := TimingLog.sampled_foldl_record warmup durations
    exact ⟨hsampled.proper_summary, fun p => (hsampled.bounded_percentileMs p).proper⟩
  · refine Report.nonNegative_toJson fun m hm => ?_
    obtain ⟨durations, -, htiming⟩ := timing_of_mem h m hm
    rw [htiming]
    exact (TimingLog.sampled_foldl_record _ durations).proper_summary

/-- The longest duration there is, between two that take no time. -/
theorem timings_finite_longest :
    let log := [⟨0, 0⟩, ⟨18446744073709551615, 999999999⟩, ⟨0, 0⟩].foldl TimingLog.record (.new 0)
    log.summary.Proper ∧ Proper (log.percentileMs (0.0 / 0.0)) ∧
      ∃ report, Gives (run counting (emptyPlan [2, 3])) 0 report 4 ∧
        report.toJson.NonNegative := by
  obtain ⟨hlogs, hreports⟩ := timings_finite
  obtain ⟨report, hrun⟩ : ∃ report, Gives (run counting (emptyPlan [2, 3])) 0 report 4 := ⟨_, rfl⟩
  exact ⟨(hlogs 0 _).1, (hlogs 0 _).2 _, report, hrun, hreports _ _ _ _ report hrun⟩

end Benchmark

end NeighborSearch
