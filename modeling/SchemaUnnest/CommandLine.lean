import SchemaUnnest.CommandLine.Arguments
import SchemaUnnest.Sanitizer
import SchemaUnnest.Schema.Statistics

namespace SchemaUnnest.CommandLine

structure Output where
  exitCode : Nat
  stdout : Text
  stderr : Text
  fault : Option BatchFault
  usage : Option UsageFault
  fs : FileSystem

def programName : Text := "json-sanitizer"

def version : Text := "1.0.0"

def usageText : Text :=
  "Usage: json-sanitizer sanitize [--suffix TEXT] [--indent INTEGER] [--quiet] [--verbose] FILE...\n" ++
    Text.ofString "       json-sanitizer stats [--verbose] FILE\n"

def logName : Text := "json_sanitizer.json_sanitizer"

def printable (text : Text) : Text :=
  text.flatMap fun c => if c.isSurrogate then "\\u" ++ Text.hex 4 c.value else [c]

def errorLine (text : Text) : Text := printable text ++ "\n"

def shownLog (verbose : Bool) (log : Log) : Text :=
  (log.atLeast (if verbose then .debug else .warning)).flatMap fun line =>
    errorLine (line.level.name ++ " " ++ logName ++ ": " ++ line.text)

def resultText (result : FileResult) : Text :=
  if result.success then
    errorLine ("✅ " ++ result.source.text ++ " -> " ++ (result.outputPath.map (·.text)).getD [] ++ " (" ++
      Text.ofNat result.extracted ++ " definitions externalized)")
  else
    errorLine ("❌ " ++ result.source.text ++ ":") ++
      (result.errors.getD []).flatMap fun error => errorLine ("   • " ++ error)

def refuse (fs : FileSystem) (fault : UsageFault) : Output :=
  { exitCode := 2
    stdout := []
    stderr := usageText ++ errorLine fault.message
    fault := none
    usage := some fault
    fs := fs }

def abort (fs : FileSystem) (stderr : Text) (fault : BatchFault) : Output :=
  ⟨1, [], stderr, some fault, none, fs⟩

def sanitize (stack : Stack) (readings : Nat → Batch.Readings) (fs : FileSystem) (files : List Text) (ending : Text)
    (indent : Int) (quiet verbose : Bool) : Output :=
  if files = [] then
    ⟨1, [], errorLine "Please provide full path to JSON schema file as argument", none, none, fs⟩
  else match Batch.settings? stack ending indent Schema.maxDepth with
    | .error fault => abort fs [] fault
    | .ok settings =>
      let work := ((Sanitizer.fresh settings true).sanitizeFiles readings fs (files.map FilePath.ofText)).work
      let log := shownLog verbose work.log
      match work.result with
      | .error fault => abort work.fs log fault
      | .ok results =>
        { exitCode := 0
          stdout := if quiet then [] else
            results.flatMap fun result => if result.success then result.rendered.getD [] ++ "\n" else []
          stderr := log ++ results.flatMap resultText
          fault := none
          usage := none
          fs := work.fs }

def stats (levels : Nat) (fs : FileSystem) (file : Text) (verbose : Bool) : Output :=
  match fs.find file with
  | .error fault =>
    if fault.isRefusal then refuse fs (.unusableFile file) else abort fs [] (.file (.ofText file) fault)
  | .ok .directory => refuse fs (.unusableFile file)
  | .ok (.file _) =>
    let path := FilePath.ofText file
    match Document.load levels Schema.maxDepth fs path with
    | (.error fault, log) => abort fs (shownLog verbose log) (.file path fault)
    | (.ok document, log) =>
      match document.root with
      | none =>
        ⟨1, [], shownLog verbose log ++ errorLine ("❌ No JSON found at path '" ++ path.text ++ "'"), none, none, fs⟩
      | some root =>
        ⟨0, (Statistics.ofRoot root).toJson.render 2 ++ "\n", shownLog verbose log, none, none, fs⟩

def run (stack : Stack) (readings : Nat → Batch.Readings) (fs : FileSystem) (arguments : List Text) : Output :=
  match readArguments arguments with
  | .error fault => refuse fs fault
  | .ok .version => ⟨0, programName ++ ", version " ++ version ++ "\n", [], none, none, fs⟩
  | .ok .help => ⟨0, usageText, [], none, none, fs⟩
  | .ok (.sanitize files ending indent quiet verbose) => sanitize stack readings fs files ending indent quiet verbose
  | .ok (.stats file verbose) => stats stack.levels fs file verbose

end SchemaUnnest.CommandLine
