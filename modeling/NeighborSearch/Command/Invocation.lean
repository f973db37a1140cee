import NeighborSearch.Benchmark.Plan
import NeighborSearch.Command.Options
import NeighborSearch.Decimal.Basic

/-! What a command line asks for.

There are two commands, `bench` and `query`. The options for metric, threads and seed
stand before or behind the name of the command; if one of them stands at both places, the
later one counts. -/
namespace NeighborSearch.Command

/-- A request for the vectors of a synthetic database nearest to a written one. -/
structure Query where
  text : String
  nb : Nat
  k : Nat
  metric : Metric
  /-- Zero for all cores. -/
  threads : Nat
  seed : UInt64
deriving Repr

inductive Invocation where
  | bench (plan : Benchmark.Plan) (json : Bool)
  | query (request : Query)

/-! ### Values -/

/-- A 64-bit word in decimal digits, with a plus sign if need be. -/
def readWord? (text : String) : Option Nat :=
  let cs := match text.toList with
    | '+' :: cs => cs
    | cs => cs
  match Decimal.spanDigits cs with
  | ([], _) | (_, _ :: _) => none
  | (digits, []) =>
    let n := Decimal.ofDigits digits
    if n < Nat.pow 2 64 then some n else none

/-- The names of metrics on a command line. -/
def readMetric? (text : String) : Option Metric :=
  match text with
  | "l2" => some .l2
  | "ip" => some .innerProduct
  | "cosine" => some .cosine
  | _ => none

/-! ### Options -/

def wordOption (name : String) (kind : OptionKind) (short : Option Char) : OptionSpec :=
  ⟨name, short, kind, fun text => (readWord? text).isSome⟩

def commonOptions : List OptionSpec :=
  [⟨"metric", none, .single, fun text => (readMetric? text).isSome⟩,
    wordOption "threads" .single none, wordOption "seed" .single none]

def benchOptions : List OptionSpec :=
  commonOptions ++
    [wordOption "dims" .many none, wordOption "nb" .single none, wordOption "nq" .single none,
      wordOption "ks" .many none, wordOption "runs" .single none,
      ⟨"json", none, .switch, fun _ => true⟩]

def queryOptions : List OptionSpec :=
  commonOptions ++ [wordOption "nb" .single none, wordOption "k" .single (some 'k')]

namespace Given
variable (g : Given) (name : String)

def word? : Option Nat := (g.value? name).bind readWord?

def wordsOr (default : List Nat) : List Nat :=
  if g.has name then (g.values name).filterMap readWord? else default

end Given

/-- What the common options say, those behind the name of the command first. -/
structure Common where
  metric : Metric
  threads : Nat
  seed : UInt64

def common (before behind : Given) : Common where
  metric := ((behind.value? "metric" <|> before.value? "metric").bind readMetric?).getD .l2
  threads := (behind.word? "threads" <|> before.word? "threads").getD 1
  seed := UInt64.ofNat ((behind.word? "seed" <|> before.word? "seed").getD 1234)

/-! ### Commands -/

def benchOf (before behind : Given) : Invocation :=
  let c := common before behind
  let standard : Benchmark.Plan := default
  .bench
    { dims := behind.wordsOr "dims" standard.dims
      nb := (behind.word? "nb").getD standard.nb
      nq := (behind.word? "nq").getD standard.nq
      ks := behind.wordsOr "ks" standard.ks
      runs := (behind.word? "runs").getD standard.runs
      threads := c.threads, metric := c.metric, seed := c.seed }
    (behind.has "json")

def queryOf (before behind : Given) (text : String) : Invocation :=
  let c := common before behind
  .query
    { text, nb := (behind.word? "nb").getD 10000, k := (behind.word? "k").getD 5
      metric := c.metric, threads := c.threads, seed := c.seed }

/-- Reads the arguments of a command; none of them may be left. -/
def scanAll (specs : List OptionSpec) (limit : Nat) (arguments : List String) :
    Except Stop Given := do
  match ← scan specs limit .empty arguments with
  | (g, []) => return g
  | (_, _ :: _) => throw .usage

def parseBench (before : Given) (arguments : List String) : Except Stop Invocation := do
  return benchOf before (← scanAll benchOptions 0 arguments)

def parseQuery (before : Given) (arguments : List String) : Except Stop Invocation := do
  let behind ← scanAll queryOptions 1 arguments
  match behind.words.head? with
  | some text => return queryOf before behind text
  | none => throw .usage

/-- Asking for help on a command that there is, or on all of them. -/
def parseHelp : List String → Stop
  | [] | ["bench"] | ["query"] | ["help"] => .help
  | _ => .usage

def parse (arguments : List String) : Except Stop Invocation := do
  match ← scan commonOptions 0 .empty arguments with
  | (before, "bench" :: rest) => parseBench before rest
  | (before, "query" :: rest) => parseQuery before rest
  | (_, "help" :: rest) => throw (parseHelp rest)
  | _ => throw .usage

end NeighborSearch.Command
