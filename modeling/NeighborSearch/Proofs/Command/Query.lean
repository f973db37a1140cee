import NeighborSearch.Command.Execute
import NeighborSearch.Proofs.Dataset
import NeighborSearch.Proofs.DenseVector
import NeighborSearch.Proofs.Index.Search
import NeighborSearch.Proofs.Session.AppendOnly
import NeighborSearch.Proofs.Text.Lines

/-! How a query on the command line ends.

A written vector that is read has a component, and the rows of the synthetic database are as long
as it is. So an index takes them all in (`exists_index`), and only the number of neighbors that is
asked for is left to go wrong (`ends_execute`). What is printed of the hits is told line by line
(`Numbered`, `Text.Printed`), and an error by its whole text. -/
namespace NeighborSearch.Command
open Decimal (Shows shows_fixed)
open Text (Plain Printed plain_append plain_repr printed_joinLines)

namespace Query
variable {q : Query} {vector : DenseVector} {hits : ResultSet} {e : SearchError}

/-! ### The answer -/

/-- The hits are those of a search for the vector among the rows of its synthetic database. -/
structure Found (q : Query) (vector : DenseVector) (hits : ResultSet) : Prop where
  searched : ∃ empty index,
    Index.create vector.dimension q.metric (.automatic q.threads) = .ok empty ∧
    empty.add (Dataset.ofSeed vector.dimension q.nb 0 q.seed).database = .ok index ∧
    index.search [vector.components] q.k = .ok [hits]
  length : hits.length = min q.k q.nb
  distinct : (hits.map Neighbor.id).Nodup
  inDatabase : ∀ n ∈ hits, n.id < q.nb

/-- Everything up to the search goes well. -/
theorem exists_index (q : Query) (hvector : 0 < vector.dimension) :
    ∃ empty index, Index.create vector.dimension q.metric (.automatic q.threads) = .ok empty ∧
      empty.add (q.database vector.dimension) = .ok index ∧
      index.dimension = vector.dimension ∧ index.size = q.nb := by
  have hshape : (Dataset.ofSeed vector.dimension q.nb 0 q.seed).Shape vector.dimension q.nb 0 :=
    Dataset.generate_shape ..
  obtain ⟨empty, index, hempty, hindex, hdimension, hsize⟩ :=
    Session.exists_filled q.metric q.threads hvector
      fun row hrow => hshape.length_row row (List.mem_append_left _ hrow)
  exact ⟨empty, index, hempty, hindex, hdimension, hsize.trans hshape.database⟩

theorem hits_of_zero (hvector : 0 < vector.dimension) (hk : q.k = 0) :
    q.hits vector = .error (.invalidK 0) := by
  obtain ⟨empty, index, hempty, hindex, _⟩ := q.exists_index hvector
  simp only [hits, hempty, hindex, hk, bind, Except.bind, Index.search_zero]

theorem exists_found (hvector : 0 < vector.dimension) (hk : 1 ≤ q.k) :
    ∃ hits, q.hits vector = .ok hits ∧ q.Found vector hits := by
  obtain ⟨empty, index, hempty, hindex, hdimension, hsize⟩ := q.exists_index hvector
  have hsearch : index.search [vector.components] q.k =
      .ok [index.nearest q.k vector.components] :=
    Index.search_eq_ok (by simp [hdimension, DenseVector.dimension]) hk
  obtain ⟨hdistinct, hids⟩ := index.nodup_id_nearest q.k vector.components
  refine ⟨index.nearest q.k vector.components, ?_, ⟨empty, index, hempty, hindex, hsearch⟩, ?_,
    hdistinct, fun n hn => hsize ▸ hids n hn⟩
  · simp only [hits, hempty, hindex, hsearch, bind, Except.bind]
    rfl
  · rw [Index.length_nearest, hsize]

theorem answer_of_parse_error (h : DenseVector.parse q.text.toList = .error e) :
    q.answer = .error (.search e) := by
  rw [answer, h]
  rfl

theorem answer_of_parse (h : DenseVector.parse q.text.toList = .ok vector) :
    q.answer = (q.hits vector).mapError .search := by
  have hvector := DenseVector.dimension_pos_of_parse h
  rw [answer, h]
  exact if_neg hvector.ne'

/-! ### What is printed -/

/-- One line for each hit, numbered from one on, with the id and the score to four places. -/
structure Numbered (hits : ResultSet) (lines : List String) : Prop where
  length : lines.length = hits.length
  line : ∀ place n, hits[place]? = some n →
    ∃ score, Shows Binary.single 4 (Binary.ofSingle n.score) score ∧
      lines[place]? = some (s!"{place + 1}. id {n.id} (distance: " ++ score ++ ")")

theorem numbered_mapIdx (hits : ResultSet) : Numbered hits (hits.mapIdx hitLine) := by
  refine ⟨List.length_mapIdx, fun place n hn => ⟨_, shows_fixed _ 4 _, ?_⟩⟩
  rw [List.getElem?_mapIdx, hn]
  rfl

theorem not_mem_hitLine (place : Nat) (n : Neighbor) : '\n' ∉ (hitLine place n).toList := by
  have hwords : Plain ". id ".toList ∧ Plain " (distance: ".toList ∧ Plain ")".toList := by decide
  have hline : Plain ((place + 1).repr ++ ". id " ++ n.id.repr ++ " (distance: " ++
      Decimal.fixedSingle 4 n.score ++ ")").toList := by
    have hscore : Plain (Decimal.fixedSingle 4 n.score).toList := (shows_fixed _ 4 _).plain
    simp only [String.toList_append, plain_append, plain_repr, hscore, hwords, and_self]
  exact hline.not_mem (by decide)

theorem printed_of_length_zero (h : hits.length = 0) :
    Printed ["No results found (index is empty)"] (joinLines (lines hits)) := by
  rw [List.length_eq_zero_iff.1 h]
  exact printed_joinLines (List.forall_mem_singleton.2 (by decide))

theorem printed_of_length_pos (h : 0 < hits.length) :
    Printed (s!"Top {hits.length} results:" :: hits.mapIdx hitLine) (joinLines (lines hits)) := by
  have hwords : Plain "Top ".toList ∧ Plain " results:".toList := by decide
  have hheading : Plain ("Top " ++ hits.length.repr ++ " results:").toList := by
    simp only [String.toList_append, plain_append, plain_repr, hwords, and_self]
  rw [lines, if_neg (by simpa [List.isEmpty_iff, List.length_pos_iff] using h)]
  refine printed_joinLines (List.forall_mem_cons.2 ⟨hheading.not_mem (by decide), ?_⟩)
  intro line hline
  obtain ⟨place, _, rfl⟩ := List.mem_mapIdx.1 hline
  exact not_mem_hitLine place _

/-! ### The whole query -/

/-- How a query ends, by its text and the number of neighbors it asks for. -/
structure Ends (q : Query) (c : Completion) : Prop where
  succeeds_iff : c.exitCode = 0 ↔
    (∃ vector, DenseVector.parse q.text.toList = .ok vector) ∧ 1 ≤ q.k
  /-- Only the error is printed, and it names the item that is no number. -/
  unreadable : ∀ e, DenseVector.parse q.text.toList = .error e →
    ∃ item, e = .invalidVector item ∧ c = ⟨1, "", "Error: Invalid vector: Invalid float: " ++
      String.ofList (Text.quoted item) ++ "\n"⟩
  noneAsked : ∀ vector, DenseVector.parse q.text.toList = .ok vector → q.k = 0 →
    c = ⟨1, "", "Error: Invalid k: 0 (must be at least 1)\n"⟩
  /-- An empty vector or an invalid dimension is not among them. -/
  failures : ∀ failure, q.answer = .error failure →
    (∃ item, failure = .search (.invalidVector item)) ∨ failure = .search (.invalidK 0)
  answered : ∀ vector, DenseVector.parse q.text.toList = .ok vector → 1 ≤ q.k →
    ∃ hits, q.Found vector hits ∧ c.exitCode = 0 ∧ c.errors = "" ∧
      if q.nb = 0 then Printed ["No results found (index is empty)"] c.output
      else ∃ numbered, Numbered hits numbered ∧
        Printed (s!"Top {min q.k q.nb} results:" :: numbered) c.output

theorem printed_of_found (hk : 1 ≤ q.k) (hfound : q.Found vector hits) :
    if q.nb = 0 then Printed ["No results found (index is empty)"] (joinLines (lines hits))
    else ∃ numbered, Numbered hits numbered ∧
      Printed (s!"Top {min q.k q.nb} results:" :: numbered) (joinLines (lines hits)) := by
  have hlength := hfound.length
  split
  · exact printed_of_length_zero (by omega)
  · refine ⟨_, numbered_mapIdx hits, ?_⟩
    rw [← hlength]
    exact printed_of_length_pos (by omega)

theorem ends_of_parse_error (h : DenseVector.parse q.text.toList = .error e) :
    q.Ends q.execute := by
  have hanswer := answer_of_parse_error h
  obtain ⟨_, item, _, rfl⟩ := DenseVector.parse_eq_error_iff.1 h
  have hexecute : q.execute = ⟨1, "", "Error: Invalid vector: Invalid float: " ++
      String.ofList (Text.quoted (Text.trim item)) ++ "\n"⟩ := by
    rw [execute, hanswer]
    rfl
  refine ⟨?_, fun e he => ?_, fun _ hvector => ?_, fun _ hfailure => ?_, fun _ hvector => ?_⟩
  · simp [hexecute, h]
  · cases h.symm.trans he
    exact ⟨_, rfl, hexecute⟩
  · cases h.symm.trans hvector
  · cases hanswer.symm.trans hfailure
    exact .inl ⟨_, rfl⟩
  · cases h.symm.trans hvector

theorem ends_of_zero (h : DenseVector.parse q.text.toList = .ok vector) (hk : q.k = 0) :
    q.Ends q.execute := by
  have hanswer : q.answer = .error (.search (.invalidK 0)) := by
    rw [answer_of_parse h, hits_of_zero (DenseVector.dimension_pos_of_parse h) hk]
    rfl
  have hexecute : q.execute = ⟨1, "", "Error: Invalid k: 0 (must be at least 1)\n"⟩ := by
    rw [execute, hanswer]
    rfl
  refine ⟨?_, fun _ he => ?_, fun _ _ _ => hexecute, fun _ hfailure => ?_, fun _ _ hpos => ?_⟩
  · simp [hexecute, hk]
  · cases h.symm.trans he
  · cases hanswer.symm.trans hfailure
    exact .inr rfl
  · exact absurd hk (Nat.ne_of_gt hpos)

theorem ends_of_pos (h : DenseVector.parse q.text.toList = .ok vector) (hk : 1 ≤ q.k) :
    q.Ends q.execute := by
  obtain ⟨hits, hhits, hfound⟩ := exists_found (DenseVector.dimension_pos_of_parse h) hk
  have hanswer : q.answer = .ok hits := by
    rw [answer_of_parse h, hhits]
    rfl
  have hexecute : q.execute = .ofLines (lines hits) := by rw [execute, hanswer]
  refine ⟨?_, fun _ he => ?_, fun _ _ hzero => ?_, fun _ hfailure => ?_, fun _ hvector _ => ?_⟩
  · simp [hexecute, h, hk, Completion.ofLines]
  · cases h.symm.trans he
  · exact absurd hzero (Nat.ne_of_gt hk)
  · cases hanswer.symm.trans hfailure
  · cases h.symm.trans hvector
    rw [hexecute]
    exact ⟨hits, hfound, rfl, rfl, printed_of_found hk hfound⟩

theorem ends_execute (q : Query) : q.Ends q.execute := by
  cases h : DenseVector.parse q.text.toList with
  | error e => exact ends_of_parse_error h
  | ok vector =>
    rcases Nat.eq_zero_or_pos q.k with hk | hk
    · exact ends_of_zero h hk
    · exact ends_of_pos h hk

end Query

/-- **A query succeeds if and only if its text is a vector and it asks for a neighbor.** Otherwise
it prints nothing but an error, that of the text if there is one. When it succeeds it prints the
hits of a search among the rows of the synthetic database, one to a line, or that there are none
if there are no rows. -/
theorem query_ends {m : Type → Type} [Monad m] (watch : Benchmark.Stopwatch m)
    {arguments : List String} {q : Query} (h : parse arguments = .ok (.query q)) :
    ∃ completion, execute watch arguments = pure completion ∧ q.Ends completion := by
  refine ⟨q.execute, ?_, q.ends_execute⟩
  rw [execute, h]

/-- Two of three rows are asked for, and two lines stand below the heading. Of no rows none is
found. An item that is no number is named even if no neighbor is asked for. -/
theorem query_ends_two_of_three :
    (parse ["query", "1,-2", "--nb", "3", "-k2", "--seed=7"] =
        .ok (.query ⟨"1,-2", 3, 2, .l2, 1, 7⟩) ∧
      ∃ completion first second above below,
        execute .stopped ["query", "1,-2", "--nb", "3", "-k2", "--seed=7"] = pure completion ∧
        completion.exitCode = 0 ∧ completion.errors = "" ∧
        Query.Found ⟨"1,-2", 3, 2, .l2, 1, 7⟩ ⟨[1, -2]⟩ [first, second] ∧
        Shows Binary.single 4 (Binary.ofSingle first.score) above ∧
        Shows Binary.single 4 (Binary.ofSingle second.score) below ∧
        Printed ["Top 2 results:", s!"1. id {first.id} (distance: " ++ above ++ ")",
          s!"2. id {second.id} (distance: " ++ below ++ ")"] completion.output) ∧
    (parse ["query", "1", "--nb=0"] = .ok (.query ⟨"1", 0, 5, .l2, 1, 1234⟩) ∧
      execute .stopped ["query", "1", "--nb=0"] =
        pure ⟨0, "No results found (index is empty)\n", ""⟩) ∧
    parse ["query", "1, x ", "-k0"] = .ok (.query ⟨"1, x ", 10000, 0, .l2, 1, 1234⟩) ∧
      execute .stopped ["query", "1, x ", "-k0"] =
        pure ⟨1, "", "Error: Invalid vector: Invalid float: \"x\"\n"⟩ := by
  refine ⟨⟨rfl, ?_⟩, ⟨rfl, ?_⟩, rfl, ?_⟩
  · obtain ⟨completion, hexecute, hends⟩ := query_ends .stopped
      (show parse ["query", "1,-2", "--nb", "3", "-k2", "--seed=7"] = .ok (.query _) from rfl)
    obtain ⟨hits, hfound, hcode, herrors, lines, hlines, hprinted⟩ :=
      hends.answered ⟨[1, -2]⟩ rfl (by decide)
    obtain ⟨first, second, rfl⟩ := List.length_eq_two.1 hfound.length
    obtain ⟨_, _, rfl⟩ := List.length_eq_two.1 hlines.length
    obtain ⟨above, habove, hfirst⟩ := hlines.line 0 first rfl
    obtain ⟨below, hbelow, hsecond⟩ := hlines.line 1 second rfl
    obtain rfl := Option.some.inj hfirst
    obtain rfl := Option.some.inj hsecond
    exact ⟨completion, first, second, above, below, hexecute, hcode, herrors, hfound, habove,
      hbelow, hprinted⟩
  · obtain ⟨⟨code, output, errors⟩, hexecute, hends⟩ := query_ends .stopped
      (show parse ["query", "1", "--nb=0"] = .ok (.query _) from rfl)
    obtain ⟨_, _, rfl, rfl, hprinted⟩ := hends.answered ⟨[1]⟩ rfl (by decide)
    have houtput : output = "No results found (index is empty)\n" := Printed.eq_join hprinted
    rw [hexecute, houtput]
  · obtain ⟨completion, hexecute, hends⟩ := query_ends .stopped
      (show parse ["query", "1, x ", "-k0"] = .ok (.query _) from rfl)
    obtain ⟨item, hitem, rfl⟩ := hends.unreadable _ rfl
    cases hitem
    exact hexecute

end NeighborSearch.Command
