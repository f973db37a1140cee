import NeighborSearch.Index.Basic
import NeighborSearch.TopK

/-! Exact search: every stored row is scored against the query.

The queries of a batch are answered one after the other. A `Watch` is asked before each
query whether to stop, and told when the query is read; it lives in a state of the
caller's, so that stopping, and all that happens between two queries, is part of the
outcome. `search` is the batch that nobody watches. -/
namespace NeighborSearch

/-- What looks on while a batch is answered. -/
structure Watch (σ : Type) where
  /-- Whether the next query is not to be started. -/
  stopped : σ → Bool
  /-- What becomes of the state when the query with this number is read. -/
  read : Nat → σ → σ

namespace Watch

/-- Nobody looks on. -/
def idle : Watch Unit := ⟨fun _ => false, fun _ s => s⟩

end Watch

/-- Answers queries, the first of which has the number `next`. All answers are given up if
the watch stops the batch. -/
def answerBatch {σ : Type} (watch : Watch σ) (answer : Row → ResultSet) (next : Nat) :
    List Row → σ → Outcome (List ResultSet) × σ
  | [], s => (.ok [], s)
  | query :: rest, s =>
    if watch.stopped s then (.error (.interrupted next), s)
    else
      let (results, s) := answerBatch watch answer (next + 1) rest (watch.read next s)
      (results.map (answer query :: ·), s)

namespace Index

/-! ### Single queries -/

/-- The score of every stored row against a query, with the ids of the rows. -/
def candidates (i : Index) (query : Row) : List Neighbor :=
  i.rows.mapIdx fun id row => ⟨id, i.metric.score query row⟩

def nearest (i : Index) (k : Nat) (query : Row) : ResultSet :=
  TopK.select (min k i.size) i.metric.isSimilarity (i.candidates (i.metric.prepare query))

def nearerThan (i : Index) (radius : Float32) (query : Row) : ResultSet :=
  nearestFirst i.metric.isSimilarity
    ((i.candidates (i.metric.prepare query)).filter fun n => i.metric.within n.score radius)

/-! ### Batches -/

def checkSearch (i : Index) (queries : List Row) (k : Nat) : Outcome Unit :=
  if k = 0 then .error (.invalidK k) else i.checkRows queries

/-- The nearest `k` rows for each query, unless the watch stops the batch. A batch that is
refused is not read. -/
def searchWatched {σ : Type} (i : Index) (watch : Watch σ) (queries : List Row) (k : Nat)
    (s : σ) : Outcome (List ResultSet) × σ :=
  match i.checkSearch queries k with
  | .error e => (.error e, s)
  | .ok () => answerBatch watch (i.nearest k) 0 queries s

def search (i : Index) (queries : List Row) (k : Nat) : Outcome (List ResultSet) :=
  (i.searchWatched Watch.idle queries k ()).1

/-- All rows strictly nearer than the radius, for each query. -/
def rangeSearch (i : Index) (queries : List Row) (radius : Float32) :
    Outcome (List ResultSet) := do
  i.checkRows queries
  (answerBatch Watch.idle (i.nearerThan radius) 0 queries ()).1

/-! ### Rows chosen by id -/

/-- The first id that no row has. -/
def checkIds (i : Index) (ids : List Nat) : Outcome Unit :=
  match ids.find? (i.size ≤ ·) with
  | some id => .error (.idOutOfRange id i.size)
  | none => .ok ()

/-- The scores of chosen rows, in the order of the ids. -/
def scores (i : Index) (query : Row) (ids : List Nat) : Outcome (List Float32) := do
  i.checkRows [query]
  i.checkIds ids
  let query := i.metric.prepare query
  return ids.map fun id => i.metric.score query (i.buffer.storedRow id)

/-- The nearest `k` among chosen rows; a row chosen twice counts twice. -/
def searchAmong (i : Index) (query : Row) (ids : List Nat) (k : Nat) : Outcome ResultSet :=
  if k = 0 then .error (.invalidK k)
  else do
    let scores ← i.scores query ids
    return TopK.select (min k ids.length) i.metric.isSimilarity
      (List.zipWith Neighbor.mk ids scores)

end Index

end NeighborSearch
