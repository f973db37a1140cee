import NeighborSearch.Proofs.Json.Roundtrip

/-! Settings and plans survive their JSON form.

An object gives a name the value of the one field that has this name, wherever it stands and
whatever fields of other names there are (`field?_of_perm`). So an object is read as a record if its
fields with the names of the record are the record's own ones in some order (`values?_of_perm`), and
a text is read as a record if it spells such an object (`settings_and_plans_survive`). -/
namespace NeighborSearch
open Json

namespace Json

/-! ### Fields in any order -/

/-- The field of an object that holds an entry of a record. -/
def entry (e : String × Json) : JsonString × Json := (some e.1.toList, e.2)

theorem entry_beq_iff {e : String × Json} {name : String} :
    ((entry e).1 == some name.toList) = true ↔ e.1 = name := by
  rw [beq_iff_eq, entry, Option.some.injEq, String.toList_inj]

/-- Each entry is the only one of its name. -/
theorem filter_entries {entries : List (String × Json)} (hnodup : (entries.map Prod.fst).Nodup)
    {e : String × Json} (he : e ∈ entries) :
    (entries.map entry).filter (fun field => field.1 == some e.1.toList) = [entry e] := by
  induction entries with
  | nil => cases he
  | cons first entries ih =>
    rw [List.map_cons, List.nodup_cons] at hnodup
    rw [List.map_cons]
    rcases List.mem_cons.1 he with rfl | he
    · rw [List.filter_cons, if_pos (entry_beq_iff.2 rfl), List.filter_eq_nil_iff.2]
      refine List.forall_mem_map.2 fun other hother hname => hnodup.1 ?_
      rw [← entry_beq_iff.1 hname]
      exact List.mem_map_of_mem hother
    · have hne : first.1 ≠ e.1 := fun hname => hnodup.1 (hname ▸ List.mem_map_of_mem he)
      rw [List.filter_cons, if_neg (mt entry_beq_iff.1 hne), ih hnodup.2 he]

section AnyOrder
variable {entries : List (String × Json)} {fields others : List (JsonString × Json)}
  (hperm : fields.Perm (entries.map entry ++ others))
  (hothers : ∀ field ∈ others, ∃ name, field.1 = some (String.toList name) ∧
    name ∉ entries.map Prod.fst)
include hperm hothers

theorem field?_of_perm (hnodup : (entries.map Prod.fst).Nodup) {e : String × Json}
    (he : e ∈ entries) : field? fields e.1 = some (some e.2) := by
  have hnone : others.filter (fun field => field.1 == some e.1.toList) = [] := by
    refine List.filter_eq_nil_iff.2 fun field hfield hname => ?_
    obtain ⟨name, hfst, hmem⟩ := hothers field hfield
    rw [hfst, beq_iff_eq, Option.some.injEq, String.toList_inj] at hname
    rw [hname] at hmem
    exact hmem (List.mem_map_of_mem he)
  have hfilter := hperm.filter fun field => field.1 == some e.1.toList
  rw [List.filter_append, filter_entries hnodup he, hnone, List.append_nil] at hfilter
  rw [field?, List.perm_singleton.1 hfilter]
  rfl

/-- **Neither the order of the fields nor fields of other names make a difference** to the values
that a record is read from. -/
theorem values?_of_perm (hnodup : (entries.map Prod.fst).Nodup) :
    values? (entries.map Prod.fst) (object fields) = some (entries.map fun e => some e.2) := by
  have htexts : (fields.all fun field => field.1.isSome) = true := by
    refine List.all_eq_true.2 fun field hfield => ?_
    rcases List.mem_append.1 (hperm.mem_iff.1 hfield) with h | h
    · obtain ⟨e, -, rfl⟩ := List.mem_map.1 h
      rfl
    · obtain ⟨name, hname, -⟩ := hothers field h
      rw [hname]
      rfl
  have hvalues : ∀ es ⊆ entries,
      (es.map Prod.fst).mapM (field? fields) = some (es.map fun e => some e.2) := by
    intro es hes
    induction es with
    | nil => rfl
    | cons e es ih =>
      rw [List.cons_subset] at hes
      rw [List.map_cons, List.mapM_cons, field?_of_perm hperm hothers hnodup hes.1, ih hes.2]
      rfl
  rw [values?, if_pos htexts, hvalues entries (List.Subset.refl entries)]

end AnyOrder

theorem read?_of_spells {α : Type} (ofJson? : Json → Option α) {v : Json} {text : String}
    (h : Spells v text.toList) : read? ofJson? text = ofJson? v := by
  rw [read?, parse?_of_spells h, Option.bind_some]

end Json

/-! ### Settings -/

theorem Settings.read?_write {s : Settings} (hs : s.threads < wordLimit) :
    read? Settings.ofJson? (write s.toJson) = some s := by
  have hprintable : Printable s.toJson :=
    printable_record (List.forall_mem_singleton.2 (printable_ofNat s.threads))
  rw [Json.read?_write _ hprintable]
  show (nat? (.ofNat s.threads)).bind _ = _
  rw [nat?_ofNat hs]
  rfl

/-! ### Plans -/

theorem Metric.ofJson?_toJson (m : Metric) : Metric.ofJson? m.toJson = some m := by
  cases m <;> rfl

namespace Benchmark.Plan

/-- All counts are numbers of 64 bits. -/
structure IsWords (p : Plan) : Prop where
  dims : ∀ d ∈ p.dims, d < 2 ^ 64
  nb : p.nb < 2 ^ 64
  nq : p.nq < 2 ^ 64
  ks : ∀ k ∈ p.ks, k < 2 ^ 64
  runs : p.runs < 2 ^ 64
  threads : p.threads < 2 ^ 64

def entries (p : Plan) : List (String × Json) :=
  [("dims", .array (p.dims.map .ofNat)), ("nb", .ofNat p.nb), ("nq", .ofNat p.nq),
    ("ks", .array (p.ks.map .ofNat)), ("runs", .ofNat p.runs), ("threads", .ofNat p.threads),
    ("metric", p.metric.toJson), ("seed", .ofNat p.seed.toNat)]

theorem toJson_eq (p : Plan) : p.toJson = .object (p.entries.map entry) := rfl

theorem printable_toJson (p : Plan) : Printable p.toJson := by
  have hcounts : ∀ ns : List Nat, Printable (.array (ns.map .ofNat)) := fun ns =>
    .array (List.forall_mem_map.2 fun n _ => printable_ofNat n)
  refine printable_record ?_
  simp only [List.forall_mem_cons]
  exact ⟨hcounts _, printable_ofNat _, printable_ofNat _, hcounts _, printable_ofNat _,
    printable_ofNat _, .string _, printable_ofNat _, nofun⟩

variable {p : Plan}

/-- An object is read as the plan that its fields of the plan's names hold. -/
theorem ofJson?_of_values (hp : p.IsWords) {v : Json}
    (hvalues : values? names v = some (p.entries.map fun e => some e.2)) :
    Plan.ofJson? v = some p := by
  have hlist : ∀ ns : List Nat, (∀ n ∈ ns, n < 2 ^ 64) →
      list? nat? (.array (ns.map .ofNat)) = some ns := fun ns hns =>
    (list?_map Json.ofNat nat? id fun n hn => nat?_ofNat (hns n hn)).trans
      (congrArg some (List.map_id ns))
  have hseed : nat? (.ofNat p.seed.toNat) = some p.seed.toNat := nat?_ofNat p.seed.toNat_lt
  rw [Plan.ofJson?, hvalues]
  simp [entries, hlist _ hp.dims, hlist _ hp.ks, nat?_ofNat hp.nb, nat?_ofNat hp.nq,
    nat?_ofNat hp.runs, nat?_ofNat hp.threads, Metric.ofJson?_toJson, hseed]

end Benchmark.Plan

open Benchmark

/-- **Settings and plans survive their JSON form**: the compact text of settings and that of a plan
hold the very same values, and so does every text of an object that has the eight fields of the
plan in any order, with any fields of other names and any values among them. -/
theorem Json.settings_and_plans_survive :
    (∀ s : Settings, s.threads < 2 ^ 64 → read? Settings.ofJson? (write s.toJson) = some s) ∧
      ∀ p : Plan, p.IsWords →
        read? Plan.ofJson? (write p.toJson) = some p ∧
          ∀ (own others fields : List (JsonString × Json)) (text : String),
            p.toJson = .object own → fields.Perm (own ++ others) →
            (∀ field ∈ others, ∃ name, field.1 = some (String.toList name) ∧ name ∉ Plan.names) →
            Spells (.object fields) text.toList → read? Plan.ofJson? text = some p := by
  refine ⟨fun s hs => Settings.read?_write hs, fun p hp => ?_⟩
  have hany : ∀ others fields, fields.Perm (p.entries.map entry ++ others) →
      (∀ field ∈ others, ∃ name, field.1 = some (String.toList name) ∧ name ∉ Plan.names) →
      Plan.ofJson? (.object fields) = some p := fun others fields hperm hothers =>
    Plan.ofJson?_of_values hp (values?_of_perm hperm hothers (by simp [Plan.entries]))
  refine ⟨?_, fun own others fields text hown hperm hothers hspells => ?_⟩
  · rw [Json.read?_write _ p.printable_toJson, p.toJson_eq]
    exact hany [] _ (by rw [List.append_nil]) nofun
  · cases p.toJson_eq.symm.trans hown
    rw [read?_of_spells _ hspells]
    exact hany others fields hperm hothers

namespace Benchmark.Plan

def sample : Plan :=
  { dims := [4, 5], nb := 3, nq := 2, ks := [], runs := 16, threads := 0, metric := .l2, seed := 7 }

/-- A field whose value holds a field of the plan's names. -/
def sampleNote : JsonString × Json :=
  (some "note".toList,
    .array [.null, .object [(some "seed".toList, .number ⟨true, [1], [5], some 3⟩)]])

/-- A field without a name whose value is half of a surrogate pair. -/
def sampleHalf : JsonString × Json := (some [], .string none)

end Benchmark.Plan

/-- A plan in reverse order between two fields of other names, its metric spelled by an escape. -/
theorem Json.settings_and_plans_survive_reversed :
    read? Settings.ofJson? (write (Settings.toJson ⟨2 ^ 64 - 1⟩)) = some ⟨2 ^ 64 - 1⟩ ∧
      read? Plan.ofJson? "\x7b \"note\" : [null, \x7b \"seed\": -1.5e3 \x7d],
        \"seed\": 7, \"metric\": \"\\u006c2\", \"threads\": 0, \"runs\": 16, \"ks\": [ ],
        \"nq\": 2, \"nb\": 3, \"dims\": [4,5], \"\": \"\\ud800\" \x7d" = some Plan.sample := by
  refine ⟨settings_and_plans_survive.1 _ (by decide), ?_⟩
  have hp : Plan.sample.IsWords := ⟨by decide, by decide, by decide, nofun, by decide, by decide⟩
  have hperm : (Plan.sampleNote :: (Plan.sample.entries.map entry).reverse ++
      [Plan.sampleHalf]).Perm
        (Plan.sample.entries.map entry ++ [Plan.sampleNote, Plan.sampleHalf]) :=
    List.perm_middle.symm.trans ((List.reverse_perm _).append_right _)
  have hothers : ∀ field ∈ [Plan.sampleNote, Plan.sampleHalf],
      ∃ name, field.1 = some (String.toList name) ∧ name ∉ Plan.names :=
    List.forall_mem_cons.2
      ⟨⟨"note", rfl, by decide⟩, List.forall_mem_singleton.2 ⟨"", rfl, by decide⟩⟩
  exact (settings_and_plans_survive.2 _ hp).2 _ _ _ _ rfl hperm hothers
    (parse?_eq_some_iff.1 (by cbv))

end NeighborSearch
