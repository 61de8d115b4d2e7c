import StakeLedger.Offline.Report
import StakeLedger.Parameters

/-!
# The command line of the offline checks

The commands are

* `root SNAPSHOT`,
* `assign SNAPSHOT --entity ID [--tag TAG] [--count N] [--min-stake N]`,
* `prove SNAPSHOT --account ID`,
* `pack SNAPSHOT OUT`.

Options and positional arguments may be mixed, an option's value is the next argument or
follows an equals sign, and after `--` there are no options. Arguments are read from left to
right, and the first that is refused, or that asks for help, decides.

* `Command.parse` reads the arguments.
* `Command.run` is what a command prints and writes.
-/

namespace StakeLedger

/-- What is to be done. -/
inductive Command
  /-- To print the root of a snapshot. -/
  | root (snapshot : String)
  /-- To print an assignment. -/
  | assign (snapshot : String) (entity : Identifier) (tag : String) (count : Nat) (minStake : UInt64)
  /-- To print an account with its proof and check it. -/
  | prove (snapshot : String) (account : Identifier)
  /-- To write the container of a snapshot. -/
  | pack (snapshot out : String)
  deriving DecidableEq

/-- Why arguments are not those of a command. -/
inductive Usage
  /-- Help was asked for. -/
  | help
  /-- The version was asked for. -/
  | version
  /-- The arguments are refused. -/
  | refused
  deriving DecidableEq

/-- The arguments after the name of a command. -/
structure Arguments where
  positional : List String := []
  options : List (String × String) := []

namespace Arguments

/-- The value of an option. -/
def option? (a : Arguments) (name : String) : Option String :=
  (a.options.find? fun o => o.1 = name).map Prod.snd

end Arguments

namespace Command

/-! ## Values -/

/-- The number below `bound` that decimal digits denote, with or without a plus sign. -/
def number? (bound : Nat) (s : String) : Option Nat :=
  let digits := Utf8.ofString (match s.toList with
    | '+' :: rest => String.ofList rest
    | _ => s)
  if digits.isEmpty then none
  else (Json.decimalValue? digits).bind fun n => if n < bound then some n else none

/-- Whether a text can be the value of an option. -/
def accepts (name value : String) : Bool :=
  if name = "entity" ∨ name = "account" then
    match Identifier.parse value with
    | .ok _ => true
    | .error _ => false
  else if name = "count" ∨ name = "min-stake" then (number? UInt64.size value).isSome
  else true

/-! ## Arguments -/

/-- Whether an argument has the form of an option. -/
def isOption (arg : String) : Bool :=
  match arg.toList with
  | ['-'] => false
  | '-' :: _ => true
  | _ => false

/-- The name of a long option and the value after its equals sign. -/
def splitLong? (arg : String) : Option (String × Option String) :=
  match arg.toList with
  | '-' :: '-' :: body =>
    match body.dropWhile (· ≠ '=') with
    | _ :: value => some (String.ofList (body.takeWhile (· ≠ '=')), some (String.ofList value))
    | [] => some (String.ofList body, none)
  | _ => none

/-- The arguments with a positional one added, of which there may be only so many. -/
def addPositional (limit : Nat) (a : Arguments) (arg : String) : Except Usage Arguments :=
  if a.positional.length < limit ∧ arg ≠ "" then .ok { a with positional := a.positional ++ [arg] }
  else .error .refused

/-- The arguments with an option added, which must not be given twice. -/
def addOption (names : List String) (a : Arguments) (name value : String) : Except Usage Arguments :=
  if names.contains name ∧ (a.option? name).isNone ∧ accepts name value then
    .ok { a with options := a.options ++ [(name, value)] }
  else .error .refused

/-- The arguments of a command that has options of the given names and at most `limit`
positional arguments. An option may be waiting for its value, the first argument. -/
def collect (names : List String) (limit : Nat) : Option String → Arguments → List String → Except Usage Arguments
  | none, a, [] => .ok a
  | some _, _, [] => .error .refused
  | some name, a, value :: rest =>
    if isOption value then .error .refused
    else
      match addOption names a name value with
      | .error usage => .error usage
      | .ok a => collect names limit none a rest
  | none, a, arg :: rest =>
    if arg = "--" then rest.foldlM (addPositional limit) a
    else if arg = "--help" then .error .help
    else
      match splitLong? arg with
      | some (name, some value) =>
        match addOption names a name value with
        | .error usage => .error usage
        | .ok a => collect names limit none a rest
      | some (name, none) => collect names limit (some name) a rest
      | none =>
        if isOption arg then .error (if "-h".isPrefixOf arg then .help else .refused)
        else
          match addPositional limit a arg with
          | .error usage => .error usage
          | .ok a => collect names limit none a rest

/-- An identifier among the options. -/
def identifier? (a : Arguments) (name : String) : Option Identifier :=
  (a.option? name).bind fun value => (Identifier.parse value).toOption

/-- A number among the options, which has a default. -/
def numberOr (standard : Nat) (a : Arguments) (name : String) : Nat :=
  ((a.option? name).bind (number? UInt64.size)).getD standard

/-- A command, if nothing is missing. -/
def complete (command : Option Command) : Except Usage Command :=
  match command with
  | some command => .ok command
  | none => .error .refused

/-- The names of the commands. -/
def names : List String := ["root", "assign", "prove", "pack"]

/-- The command that arguments ask for. -/
def parse : List String → Except Usage Command
  | "root" :: args => do
    let a ← collect [] 1 none {} args
    complete do
      let [snapshot] := a.positional | none
      return .root snapshot
  | "assign" :: args => do
    let a ← collect ["entity", "tag", "count", "min-stake"] 1 none {} args
    let standard : Parameters := {}
    complete do
      let [snapshot] := a.positional | none
      let entity ← identifier? a "entity"
      return .assign snapshot entity ((a.option? "tag").getD Assigner.validatorTag)
        (numberOr standard.validatorsPerEntity.toNat a "count")
        (UInt64.ofNat (numberOr standard.minStake.toNat a "min-stake"))
  | "prove" :: args => do
    let a ← collect ["account"] 1 none {} args
    complete do
      let [snapshot] := a.positional | none
      return .prove snapshot (← identifier? a "account")
  | "pack" :: args => do
    let a ← collect [] 2 none {} args
    complete do
      let [snapshot, out] := a.positional | none
      return .pack snapshot out
  | ["help"] => .error .help
  | ["help", topic] => .error (if topic = "help" ∨ names.contains topic then .help else .refused)
  | "--help" :: _ => .error .help
  | "--version" :: _ => .error .version
  | arg :: _ =>
    .error (if "-h".isPrefixOf arg then .help else if "-V".isPrefixOf arg then .version else .refused)
  | [] => .error .refused

/-! ## Execution -/

/-- What a command leaves behind. -/
structure Outcome where
  exitCode : Nat
  output : Bytes := []
  /-- What it complains about. -/
  complaint : Option String := none
  /-- A file to be written, with its bytes. -/
  file : Option (String × Bytes) := none

/-- The snapshot file that a command reads. -/
def input : Command → String
  | root snapshot | assign snapshot .. | prove snapshot _ | pack snapshot _ => snapshot

/-- The outcome of a check that failed. -/
def failure (e : CheckError) : Outcome := { exitCode := 1, complaint := e.message }

/-- A report as it is printed. -/
def print (report : Json) : Bytes := report.pretty ++ [0x0A]

/-- The outcome of a command on a snapshot. -/
def runOn (h : Hasher) (s : AccountSnapshot) : Command → Outcome
  | root _ => { exitCode := 0, output := print (RootReport.ofSnapshot s).json }
  | assign _ entity tag count minStake =>
    match AssignReport.ofSnapshot s h entity tag count minStake with
    | .error e => failure e
    | .ok report => { exitCode := 0, output := print report.json }
  | prove _ account =>
    match ProveReport.ofSnapshot s h account with
    | .error e => failure e
    | .ok report =>
      if report.verified then { exitCode := 0, output := print report.json }
      else { exitCode := 1, output := print report.json, complaint := s!"Proof for {account} does not verify" }
  | pack _ out =>
    match s.pack with
    | .error e => failure e
    | .ok bytes => { exitCode := 0, file := some (out, bytes) }

/-- The outcome of a command, given the bytes of its snapshot file if there is one. -/
def run (h : Hasher) (c : Command) (file : Option Bytes) : Outcome :=
  match AccountSnapshot.ofFile file h with
  | .error e => failure e
  | .ok s => c.runOn h s

/-- The outcome of arguments that are no command. -/
def Outcome.ofUsage : Usage → Outcome
  | .help => { exitCode := 0 }
  | .version => { exitCode := 0, output := Utf8.ofString "ledger-verify 0.2.0\n" }
  | .refused => { exitCode := 2, complaint := "invalid command line" }

/-- The outcome that remains, given the names under which a file can be written. -/
def Outcome.conclude (o : Outcome) (canWrite : String → Bool) : Outcome :=
  match o.file with
  | none => o
  | some (path, _) => if canWrite path then o else { exitCode := 1, complaint := s!"Failed to write {path}" }

/-- The outcome of a list of arguments, given the files by name and the names under which a
file can be written. -/
def runArguments (h : Hasher) (args : List String) (files : String → Option Bytes) (canWrite : String → Bool) :
    Outcome :=
  match parse args with
  | .error usage => .ofUsage usage
  | .ok command => (command.run h (files command.input)).conclude canWrite

end Command

end StakeLedger
