import SchemaUnnest.Document.Loaded
import SchemaUnnest.Document.Unnested
import SchemaUnnest.Document.Written
import SchemaUnnest.Meter

namespace SchemaUnnest

/-- What the stack has room for: how deep brackets may nest in a text that is read, and what can be copied. -/
structure Stack where
  levels : Nat
  room : Unnesting.Room

structure Settings where
  ending : Text
  indent : Int
  maxDepth : Int
  stack : Stack

namespace Settings

abbrev load (settings : Settings) (fs : FileSystem) (path : FilePath) : Except FileFault Document × Log :=
  Document.load settings.stack.levels settings.maxDepth fs path

abbrev unnest (settings : Settings) (root : Json) : Unnesting.Run := Unnesting.unnest settings.stack.room root

end Settings

structure FileResult where
  success : Bool
  source : FilePath
  outputPath : Option FilePath
  extracted : Nat
  errors : Option (List Text)
  rendered : Option Text
deriving DecidableEq

inductive BatchFault where
  | emptyEnding
  | file (path : FilePath) (fault : FileFault)
  | record (fault : RecordFault)
  | naming (fault : PathFault)
  | encoding (fault : Utf8.EncodeFault)
  | meter (fault : MeterFault)
deriving DecidableEq

def BatchFault.message : BatchFault → Text
  | .emptyEnding => "output_suffix cannot be empty"
  | .file path fault => fault.message path.text
  | .record fault => fault.message
  | .naming fault => fault.message
  | .encoding fault => fault.message
  | .meter fault => fault.message

structure Work (α : Type) where
  result : Except BatchFault α
  fs : FileSystem
  log : Log

namespace FileResult

def nothingFound (source : FilePath) : FileResult :=
  ⟨false, source, none, 0, some ["No JSON found at path '" ++ source.text ++ "'"], none⟩

def tooDeep (source : FilePath) : Failure :=
  { message := "Schema at path '" ++ source.text ++ "' could not be unnested"
    kind := .shape
    context := some (.obj [("origin", .str source.text)]) }

def failed (source : FilePath) (failure : Failure) (outputPath : Option FilePath) (extracted : Nat) :
    FileResult :=
  { success := false
    source := source
    outputPath := outputPath
    extracted := extracted
    errors := some [failure.message, failure.response.suggestion]
    rendered := match failure.response.partialResults with
      | .str text => some text
      | _ => none }

end FileResult

namespace Batch

def writeResult (settings : Settings) (fs : FileSystem) (source : FilePath) (extracted : Nat)
    (document : Document) : Work FileResult :=
  let writing := document.write fs settings.indent settings.ending
  match writing.result with
  | .ok written =>
    ⟨.ok ⟨true, source, some written.path, extracted, none, some written.text⟩, writing.fs, writing.log⟩
  | .error (.refused path fault text) =>
    let failure := WriteFault.refusal path fault text
    ⟨.ok (.failed source failure (some path) extracted), writing.fs, writing.log ++ failure.log⟩
  | .error (.naming fault) => ⟨.error (.naming fault), writing.fs, writing.log⟩
  | .error (.unusable path fault) => ⟨.error (.file path fault), writing.fs, writing.log⟩
  | .error (.unencodable fault) => ⟨.error (.encoding fault), writing.fs, writing.log⟩

structure Readings where
  start : Reading
  sample : Reading
  stop : Reading
deriving DecidableEq

def sessionName (source : FilePath) : Text := "sanitize:" ++ source.name

def outputSize (result : FileResult) : Nat := ((result.rendered.getD []).flatMap Utf8.encodeOne).length

def finish (readings : Readings) (p : Meter) (result : FileResult) : Meter.Step Unit :=
  let sampled := p.sample readings.sample
  if result.success then
    let stopped := sampled.after.stop (outputSize result) result.extracted readings.stop
    let left := stopped.after.leave readings.stop
    let outcome := match stopped.result, left.result with
      | _, .error fault => .error fault
      | .error fault, .ok () => .error fault
      | .ok _, .ok () => .ok ()
    ⟨outcome, left.after, sampled.log ++ stopped.log ++ left.log⟩
  else
    let left := sampled.after.leave readings.stop
    ⟨left.result, left.after, sampled.log ++ left.log⟩

def summaryLine (results : List FileResult) : LogLine :=
  ⟨.info, "Sanitized " ++ Text.ofNat (results.countP (·.success)) ++ " of " ++ Text.ofNat results.length ++
    " schemas"⟩

def close (work : Work (List FileResult)) : Work (List FileResult) :=
  match work.result with
  | .error _ => work
  | .ok results => { work with log := work.log ++ [summaryLine results] }

def settings? (stack : Stack) (ending : Text) (indent maxDepth : Int) : Except BatchFault Settings :=
  if ending = [] then .error .emptyEnding else .ok ⟨ending, indent, maxDepth, stack⟩

end Batch
end SchemaUnnest
