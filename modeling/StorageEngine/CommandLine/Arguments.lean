import StorageEngine.Config
import StorageEngine.Registry

/-!
# Command-line arguments

What the words of a command line ask for.  Options stand before the command that they belong
to; an option takes its value from the same word, after `=` or right after its letter, or from
the next word.
-/

namespace StorageEngine.CommandLine

/-- What the program is asked to do with the table. -/
inductive Action where
  /-- Run a workload with a number of workers. -/
  | run (workers transactions tuples : Nat)
  /-- Count the stored tuples. -/
  | scan
  deriving DecidableEq

/-- What a command line asks for. -/
structure Invocation where
  /-- The directory that holds the table. -/
  dir : String
  poolSize : Nat
  pageSize : Nat
  action : Action
  deriving DecidableEq

/-- What help is given on. -/
inductive Topic where
  | program
  | run
  | scan
  | help
  deriving DecidableEq

/-- Why the words of a command line are not carried out. -/
inductive Halt where
  | help (topic : Topic)
  | version
  /-- The words do not make sense. -/
  | usage
  deriving DecidableEq

/-! ## Options -/

/-- An option, which takes a value. -/
structure OptionSpec where
  long : String
  short : Option Char
  /-- Whether the value is a number. -/
  numeric : Bool

/-- The options before the command. -/
def programOptions : List OptionSpec :=
  [⟨"dir", some 'd', false⟩, ⟨"pool-size", some 'p', true⟩, ⟨"page-size", none, true⟩]

/-- The options of the command `run`. -/
def runOptions : List OptionSpec :=
  [⟨"threads", some 't', true⟩, ⟨"txns", some 'n', true⟩, ⟨"tuples-per-txn", none, true⟩]

/-- The number that a word spells in decimal digits, with or without a plus sign, if it fits
a machine word. -/
def size? (word : String) : Option Nat :=
  let digits := match word.toList with
    | '+' :: rest => rest
    | rest => rest
  if digits.isEmpty || !digits.all Char.isDigit then none
  else
    let value := Json.ofDigits digits
    if value < UInt64.size then some value else none

/-- What a word is at a place where options may stand. -/
inductive WordKind where
  /-- An option and the value that the word holds, if it holds one. -/
  | option (spec : OptionSpec) (value : Option String)
  | help
  | version
  /-- The mark that no options follow. -/
  | endMark
  | plain
  | unknown

/-- A word split at its first equals sign. -/
def splitAtEquals (word : List Char) : List Char × Option (List Char) :=
  match word.dropWhile (· ≠ '=') with
  | [] => (word, none)
  | _ :: value => (word.takeWhile (· ≠ '='), some value)

/-- A word that starts with two dashes. -/
def classifyLong (specs : List OptionSpec) (hasVersion : Bool) (word : List Char) : WordKind :=
  let (name, value) := splitAtEquals word
  let name := String.ofList name
  match specs.find? fun spec => spec.long = name with
  | some spec => .option spec (value.map String.ofList)
  | none =>
    if value.isSome then .unknown
    else if name = "help" then .help
    else if name = "version" && hasVersion then .version
    else .unknown

/-- A word that starts with one dash. -/
def classifyShort (specs : List OptionSpec) (hasVersion : Bool) (letter : Char)
    (rest : List Char) : WordKind :=
  match specs.find? fun spec => spec.short = some letter with
  | some spec =>
    match rest with
    | [] => .option spec none
    | '=' :: value => .option spec (some (String.ofList value))
    | value => .option spec (some (String.ofList value))
  | none =>
    if letter = 'h' then .help
    else if letter = 'V' && hasVersion then .version
    else .unknown

/-- What a word is. -/
def classify (specs : List OptionSpec) (hasVersion : Bool) (word : String) : WordKind :=
  match word.toList with
  | ['-', '-'] => .endMark
  | '-' :: '-' :: rest => classifyLong specs hasVersion rest
  | '-' :: letter :: rest => classifyShort specs hasVersion letter rest
  | _ => .plain

/-- Whether a word cannot be the value of the option before it. -/
def looksLikeOption (word : String) : Bool :=
  match word.toList with
  | '-' :: _ :: _ => true
  | _ => false

/-- The values of options, with one more.  No option is given twice, and a number is one. -/
def enterValue (values : Registry String String) (spec : OptionSpec) (value : String) :
    Except Halt (Registry String String) :=
  if values.contains spec.long || value.isEmpty || (spec.numeric && (size? value).isNone) then
    .error .usage
  else .ok (values.insert spec.long value)

/-- Reads options up to the first word that is none: the values, and the words from that one
on. -/
def readOptions (specs : List OptionSpec) (topic : Topic) :
    List String → Registry String String →
    Except Halt (Registry String String × List String)
  | [], values => .ok (values, [])
  | word :: rest, values =>
    match classify specs (topic = .program) word with
    | .option spec (some value) =>
      match enterValue values spec value with
      | .ok values => readOptions specs topic rest values
      | .error halt => .error halt
    | .option spec none =>
      match rest with
      | [] => .error .usage
      | value :: rest =>
        if looksLikeOption value then .error .usage
        else
          match enterValue values spec value with
          | .ok values => readOptions specs topic rest values
          | .error halt => .error halt
    | .help => .error (.help topic)
    | .version => .error .version
    | .endMark => if rest.isEmpty then .ok (values, []) else .error .usage
    | .plain => .ok (values, word :: rest)
    | .unknown => .error .usage

/-- Reads options where nothing but options may stand. -/
def readOnlyOptions (specs : List OptionSpec) (topic : Topic) (words : List String) :
    Except Halt (Registry String String) :=
  match readOptions specs topic words ∅ with
  | .ok (values, []) => .ok values
  | .ok (_, _ :: _) => .error .usage
  | .error halt => .error halt

/-- The number given for an option, or else its default. -/
def numberOf (values : Registry String String) (name : String) (default : Nat) : Nat :=
  ((values.get? name).bind size?).getD default

/-! ## Commands -/

/-- What help the words after the command `help` ask for. -/
def helpTopic : List String → Halt
  | [] => .help .program
  | ["run"] => .help .run
  | ["scan"] => .help .scan
  | ["help"] => .help .help
  | _ => .usage

/-- The action that a command and its options ask for. -/
def readAction : List String → Except Halt Action
  | "run" :: words => do
    let values ← readOnlyOptions runOptions .run words
    return .run (numberOf values "threads" 4) (numberOf values "txns" 100)
      (numberOf values "tuples-per-txn" 3)
  | "scan" :: words => do
    let _ ← readOnlyOptions [] .scan words
    return .scan
  | "help" :: words => throw (helpTopic words)
  | _ => throw .usage

/-- What the words of a command line ask for. -/
def read (words : List String) : Except Halt Invocation := do
  let (values, words) ← readOptions programOptions .program words ∅
  let action ← readAction words
  return {
    dir := (values.get? "dir").getD "bayun_data"
    poolSize := numberOf values "pool-size" defaultPoolSize
    pageSize := numberOf values "page-size" defaultPageSize
    action }

end StorageEngine.CommandLine
