import SchemaUnnest.Document
import SchemaUnnest.Text.Digits

namespace SchemaUnnest.CommandLine

inductive UsageFault where
  | unknownOption (option : Text)
  | missingValue (option : Text)
  | needlessValue (option : Text)
  | noCommand
  | unknownCommand (name : Text)
  | noWholeNumber (value : Text)
  | noFile
  | extraArgument (argument : Text)
  | unusableFile (path : Text)
deriving DecidableEq

def UsageFault.message : UsageFault → Text
  | .unknownOption option => "Unknown option: " ++ option
  | .missingValue option => "A value is missing for " ++ option
  | .needlessValue option => "No value can be given for " ++ option
  | .noCommand => "A command is missing."
  | .unknownCommand name => "Unknown command: " ++ name
  | .noWholeNumber value => "This is no whole number: " ++ value
  | .noFile => "A file is missing."
  | .extraArgument argument => "One argument too many: " ++ argument
  | .unusableFile path => "This is no file: " ++ path

structure Switch (α : Type) where
  meaning : α
  long : Text
  short : Option CodePoint
  takesValue : Bool

structure Scanned (α : Type) where
  values : List (α × Text)
  rest : List Text

/-- What one argument says: options without a value, and then perhaps one that has it in the same argument
or waits for it. -/
structure Cluster (α : Type) where
  flags : List α
  last : Option (α × Option Text)

def splitValue (argument : Text) : Text × Option Text :=
  match argument.span (· ≠ CodePoint.ofChar '=') with
  | (name, []) => (name, none)
  | (name, _ :: value) => (name, some value)

def readLong {α : Type} (switches : List (Switch α)) (argument : Text) : Except UsageFault (Cluster α) :=
  let (name, value) := splitValue argument
  match switches.find? (·.long = name) with
  | none => .error (.unknownOption name)
  | some switch =>
    if switch.takesValue then .ok ⟨[], some (switch.meaning, value)⟩
    else if value.isSome then .error (.needlessValue name)
    else .ok ⟨[switch.meaning], none⟩

def readShort {α : Type} (switches : List (Switch α)) : Text → Except UsageFault (Cluster α)
  | [] => .ok ⟨[], none⟩
  | letter :: rest =>
    match switches.find? (·.short = some letter) with
    | none => .error (.unknownOption ("-" ++ [letter]))
    | some switch =>
      if switch.takesValue then .ok ⟨[], some (switch.meaning, if rest = [] then none else some rest)⟩
      else (readShort switches rest).map fun cluster => { cluster with flags := switch.meaning :: cluster.flags }

def readOption? {α : Type} (switches : List (Switch α)) (argument : Text) :
    Option (Except UsageFault (Cluster α)) :=
  match argument with
  | dash :: second :: letters =>
    if dash = '-' then
      some (if second = '-' then readLong switches argument else readShort switches (second :: letters))
    else none
  | _ => none

namespace Scanned

def withValues {α : Type} (values : List (α × Text)) (scanned : Scanned α) : Scanned α :=
  { scanned with values := values ++ scanned.values }

def withArgument {α : Type} (argument : Text) (scanned : Scanned α) : Scanned α :=
  { scanned with rest := argument :: scanned.rest }

end Scanned

/-- Reads arguments; two dashes alone end the options. If options end at the first other argument, all from
there on is left. -/
def scan {α : Type} (switches : List (Switch α)) (mixed : Bool) : List Text → Except UsageFault (Scanned α)
  | [] => .ok ⟨[], []⟩
  | argument :: rest =>
    if argument = "--" then .ok ⟨[], rest⟩
    else match readOption? switches argument with
      | none =>
        if mixed then (scan switches mixed rest).map (.withArgument argument) else .ok ⟨[], argument :: rest⟩
      | some (.error fault) => .error fault
      | some (.ok cluster) =>
        let flags := cluster.flags.map (·, [])
        match cluster.last with
        | none => (scan switches mixed rest).map (.withValues flags)
        | some (meaning, some value) => (scan switches mixed rest).map (.withValues (flags ++ [(meaning, value)]))
        | some (meaning, none) =>
          match rest with
          | value :: rest' => (scan switches mixed rest').map (.withValues (flags ++ [(meaning, value)]))
          | [] => .error (.missingValue argument)

inductive Meaning where
  | ending
  | indent
  | quiet
  | verbose
  | version
  | help
deriving DecidableEq

def helpSwitch : Switch Meaning := ⟨.help, "--help", none, false⟩

def verboseSwitch : Switch Meaning := ⟨.verbose, "--verbose", some 'v', false⟩

def programSwitches : List (Switch Meaning) := [⟨.version, "--version", none, false⟩, helpSwitch]

def sanitizeSwitches : List (Switch Meaning) :=
  [⟨.ending, "--suffix", some 's', true⟩, ⟨.indent, "--indent", none, true⟩,
    ⟨.quiet, "--quiet", some 'q', false⟩, verboseSwitch, helpSwitch]

def statsSwitches : List (Switch Meaning) := [verboseSwitch, helpSwitch]

inductive Request where
  | version
  | help
  | sanitize (files : List Text) (ending : Text) (indent : Int) (quiet verbose : Bool)
  | stats (file : Text) (verbose : Bool)
deriving DecidableEq

namespace Scanned

def value? (scanned : Scanned Meaning) (meaning : Meaning) : Option Text :=
  (scanned.values.reverse.find? (·.1 = meaning)).map Prod.snd

def has (scanned : Scanned Meaning) (meaning : Meaning) : Bool := (scanned.value? meaning).isSome

end Scanned

def standardIndent : Int := 2

def readCommand (name : Text) (arguments : List Text) : Except UsageFault Request :=
  if name = "sanitize" then
    match scan sanitizeSwitches true arguments with
    | .error fault => .error fault
    | .ok scanned =>
      let request (indent : Int) : Request :=
        .sanitize scanned.rest ((scanned.value? .ending).getD Document.standardEnding) indent
          (scanned.has .quiet) (scanned.has .verbose)
      if scanned.has .help then .ok .help
      else match scanned.value? .indent with
        | none => .ok (request standardIndent)
        | some value =>
          match value.toInt? with
          | none => .error (.noWholeNumber value)
          | some indent => .ok (request indent)
  else if name = "stats" then
    match scan statsSwitches true arguments with
    | .error fault => .error fault
    | .ok scanned =>
      if scanned.has .help then .ok .help
      else match scanned.rest with
        | [] => .error .noFile
        | [file] => .ok (.stats file (scanned.has .verbose))
        | _ :: extra :: _ => .error (.extraArgument extra)
  else .error (.unknownCommand name)

def readArguments (arguments : List Text) : Except UsageFault Request :=
  match scan programSwitches false arguments with
  | .error fault => .error fault
  | .ok scanned =>
    match scanned.values, scanned.rest with
    | (.version, _) :: _, _ => .ok .version
    | _ :: _, _ => .ok .help
    | [], [] => .error .noCommand
    | [], name :: rest => readCommand name rest

end SchemaUnnest.CommandLine
