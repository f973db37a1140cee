import NeighborSearch.Text.Blank

/-! Options and words on a command line.

An argument that begins with a dash and is longer than that is an option, long behind two
dashes and short behind one; every other argument is a word. An option that takes a value
has it attached (`--name=value`, `-n=value`, `-nvalue`) or as the next argument, which
then must not look like an option. After the separator `--` there are only words. An
option that cannot be repeated is refused the second time, and so is a value that an
option does not accept. -/
namespace NeighborSearch.Command

inductive OptionKind where
  /-- Takes no value. -/
  | switch
  | single
  /-- Takes several values, set off by commas, and may be given again. -/
  | many
deriving DecidableEq, Repr

structure OptionSpec where
  name : String
  short : Option Char
  kind : OptionKind
  accepts : String → Bool

/-- Why a command line is not carried out. -/
inductive Stop where
  | help
  | usage
deriving DecidableEq, Repr

/-- What was given on a command line so far. -/
structure Given where
  /-- Options by name with their values, in their order. -/
  settings : List (String × String)
  words : List String
deriving Repr

namespace Given

def empty : Given := ⟨[], []⟩

def has (g : Given) (name : String) : Bool := g.settings.any fun setting => setting.1 = name

def values (g : Given) (name : String) : List String :=
  (g.settings.filter fun setting => setting.1 = name).map (·.2)

def value? (g : Given) (name : String) : Option String := (g.values name).head?

def addWord (g : Given) (word : String) : Given := { g with words := g.words ++ [word] }

/-- Takes in an option with its value. -/
def addSetting (g : Given) (spec : OptionSpec) (value : String) : Except Stop Given :=
  let values :=
    if spec.kind = .many then (Text.pieces ',' value.toList).map String.ofList else [value]
  if spec.kind ≠ .many ∧ g.has spec.name then .error .usage
  else if values.all spec.accepts then
    .ok { g with settings := g.settings ++ values.map fun v => (spec.name, v) }
  else .error .usage

end Given

/-! ### Arguments -/

inductive Argument where
  | word
  | separator
  | help
  | option (spec : OptionSpec) (attached : Option String)
  | unknown

/-- What stands before and, if there is one, behind the first equals sign. -/
def splitEquals : List Char → List Char × Option (List Char)
  | [] => ([], none)
  | c :: cs =>
    if c = '=' then ([], some cs)
    else
      let (name, value) := splitEquals cs
      (c :: name, value)

/-- What is attached to a short option: an equals sign in front of it does not count. -/
def attachedShort : List Char → Option (List Char)
  | [] => none
  | '=' :: value => some value
  | value => some value

def classifyLong (specs : List OptionSpec) (argument : List Char) : Argument :=
  let (name, attached) := splitEquals argument
  match specs.find? fun spec => spec.name.toList = name with
  | some spec => .option spec (attached.map String.ofList)
  | none => if argument = "help".toList then .help else .unknown

def classifyShort (specs : List OptionSpec) (letter : Char) (attached : List Char) : Argument :=
  match specs.find? fun spec => spec.short = some letter with
  | some spec => .option spec ((attachedShort attached).map String.ofList)
  | none => if letter = 'h' then .help else .unknown

def classify (specs : List OptionSpec) (argument : String) : Argument :=
  match argument.toList with
  | ['-', '-'] => .separator
  | '-' :: '-' :: name => classifyLong specs name
  | '-' :: letter :: attached => classifyShort specs letter attached
  | _ => .word

/-- Whether an argument can be the value of an option before it. -/
def canBeValue (argument : String) : Bool :=
  match argument.toList with
  | '-' :: _ :: _ => false
  | _ => true

/-- Reads options and up to `limit` words. What is left begins with the word that is one
too many. -/
def scan (specs : List OptionSpec) (limit : Nat) : Given → List String →
    Except Stop (Given × List String)
  | g, [] => .ok (g, [])
  | g, argument :: rest =>
    match classify specs argument with
    | .word =>
      if g.words.length < limit then scan specs limit (g.addWord argument) rest
      else .ok (g, argument :: rest)
    | .separator =>
      if g.words.length + rest.length ≤ limit then .ok ({ g with words := g.words ++ rest }, [])
      else .error .usage
    | .help => .error .help
    | .unknown => .error .usage
    | .option spec attached =>
      match spec.kind, attached, rest with
      | .switch, none, rest => do scan specs limit (← g.addSetting spec "") rest
      | .switch, some _, _ => .error .usage
      | _, some value, rest => do scan specs limit (← g.addSetting spec value) rest
      | _, none, value :: rest =>
        if canBeValue value then do scan specs limit (← g.addSetting spec value) rest
        else .error .usage
      | _, none, [] => .error .usage

end NeighborSearch.Command
