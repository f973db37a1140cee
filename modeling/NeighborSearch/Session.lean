import NeighborSearch.Dataset
import NeighborSearch.DenseVector
import NeighborSearch.Index.Search
import NeighborSearch.Interrupt

/-! Sessions: an index and interrupt handles, worked on step by step.

A step gives an answer or an error, and the session goes on in either case. Only adding
changes the index, and only if it succeeds. Only the steps on handles change a switch, and
searches that one of their queries trips. -/
namespace NeighborSearch

structure Session where
  index : Index
  flags : Switchboard

namespace Session

/-- A session starts with one handle. -/
def start (index : Index) : Session := ⟨index, Switchboard.empty.create⟩

/-- Where vectors come from that are given by a seed. -/
structure Synthetic where
  dimension : Nat
  nb : Nat
  nq : Nat
  seed : UInt64

def Synthetic.dataset (s : Synthetic) : Dataset :=
  .ofSeed s.dimension s.nb s.nq s.seed

inductive Step where
  | info
  | add (rows : List Row)
  | addText (rows : List (List Char))
  | addFlat (values : Array Float32)
  | addSynthetic (source : Synthetic)
  | row (id : Nat)
  | search (queries : List Row) (k : Nat)
  | searchSynthetic (source : Synthetic) (k : Nat)
  /-- The query `tripAt` raises the handle's switch when it is read. -/
  | searchInterruptible (queries : List Row) (k : Nat) (handle : Nat) (tripAt : Option Nat)
  | rangeSearch (queries : List Row) (radius : Float32)
  | searchAmong (query : Row) (ids : List Nat) (k : Nat)
  | scores (query : Row) (ids : List Nat)
  | newHandle
  | cloneHandle (handle : Nat)
  | raiseHandle (handle : Nat)
  | lowerHandle (handle : Nat)
  | statusOfHandles

inductive Answer where
  | info (index : Index)
  | size (n : Nat)
  | row (row : Option Row)
  | results (results : List ResultSet)
  | hits (hits : ResultSet)
  | distances (distances : List Float32)
  | flags (raised : List Bool)

/-- The watch of a search that can be interrupted by a handle. -/
def handleWatch (handle : Nat) (tripAt : Option Nat) : Watch Switchboard where
  stopped board := board.isRaised handle
  read i board := if tripAt = some i then board.raise handle else board

/-- Takes over the index that an addition gives. -/
def added (s : Session) : Outcome Index → Outcome Answer × Session
  | .ok index => (.ok (.size index.size), { s with index })
  | .error e => (.error e, s)

/-- The answer of a step on the handles, which all of them report on. -/
def flagged (s : Session) (flags : Switchboard) : Outcome Answer × Session :=
  (.ok (.flags flags.status), { s with flags })

def addTexts (index : Index) (rows : List (List Char)) : Outcome Index := do
  let vectors ← rows.mapM DenseVector.parse
  index.add (vectors.map (·.components))

def step (s : Session) : Step → Outcome Answer × Session
  | .info => (.ok (.info s.index), s)
  | .add rows => s.added (s.index.add rows)
  | .addText rows => s.added (addTexts s.index rows)
  | .addFlat values => s.added (s.index.addFlat values)
  | .addSynthetic source => s.added (s.index.add source.dataset.database)
  | .row id => (.ok (.row (s.index.row? id)), s)
  | .search queries k => ((s.index.search queries k).map .results, s)
  | .searchSynthetic source k => ((s.index.search source.dataset.queries k).map .results, s)
  | .searchInterruptible queries k handle tripAt =>
    let (results, flags) := s.index.searchWatched (handleWatch handle tripAt) queries k s.flags
    (results.map .results, { s with flags })
  | .rangeSearch queries radius => ((s.index.rangeSearch queries radius).map .results, s)
  | .searchAmong query ids k => ((s.index.searchAmong query ids k).map .hits, s)
  | .scores query ids => ((s.index.scores query ids).map .distances, s)
  | .newHandle => s.flagged s.flags.create
  | .cloneHandle handle => s.flagged (s.flags.clone handle)
  | .raiseHandle handle => s.flagged (s.flags.raise handle)
  | .lowerHandle handle => s.flagged (s.flags.lower handle)
  | .statusOfHandles => s.flagged s.flags

theorem step_searchInterruptible (s : Session) (queries : List Row) (k handle : Nat)
    (tripAt : Option Nat) :
    s.step (.searchInterruptible queries k handle tripAt) =
      let found := s.index.searchWatched (handleWatch handle tripAt) queries k s.flags
      (found.1.map .results, { s with flags := found.2 }) := rfl

/-- The answers to steps, one after the other. -/
def run (s : Session) : List Step → List (Outcome Answer) × Session
  | [] => ([], s)
  | next :: rest =>
    let (answer, s) := s.step next
    let (answers, s) := run s rest
    (answer :: answers, s)

end Session

end NeighborSearch
