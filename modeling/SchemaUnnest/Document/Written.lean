import SchemaUnnest.Document
import SchemaUnnest.Failure
import SchemaUnnest.File.System

namespace SchemaUnnest

structure Written where
  path : FilePath
  size : Nat
  text : Text
deriving DecidableEq

inductive WriteFault where
  | naming (fault : PathFault)
  /-- The file system refuses the output file; the text is kept. -/
  | refused (path : FilePath) (fault : FileFault) (text : Text)
  | unusable (path : FilePath) (fault : FileFault)
  | unencodable (fault : Utf8.EncodeFault)
deriving DecidableEq

namespace WriteFault

def message : WriteFault → Text
  | .naming fault => fault.message
  | .refused path fault _ =>
    "Failed to write sanitized schema " ++ path.text ++ ": " ++ fault.message path.text
  | .unusable path fault => fault.message path.text
  | .unencodable fault => fault.message

def outputPathKey : Text := "output_path"

def refusal (path : FilePath) (fault : FileFault) (text : Text) : Failure :=
  { message := (WriteFault.refused path fault text).message
    kind := .fileSystem
    context := some (.obj [(outputPathKey, .str path.text), (Failure.renderedKey, .str text)]) }

end WriteFault

structure Writing where
  result : Except WriteFault Written
  fs : FileSystem
  log : Log

namespace Document

def write (fs : FileSystem) (indent : Int) (ending : Text) (document : Document) : Writing :=
  let text := (document.root.getD .null).render indent
  match document.outputPath ending with
  | .error fault => ⟨.error (.naming fault), fs, []⟩
  | .ok path =>
    match fs.target path.text with
    | .error fault =>
      if fault.isRefusal then ⟨.error (.refused path fault text), fs, []⟩
      else ⟨.error (.unusable path fault), fs, []⟩
    | .ok location =>
      match Utf8.encode text with
      | .error fault => ⟨.error (.unencodable fault), fs.put location [], []⟩
      | .ok content =>
        { result := .ok ⟨path, content.length, text⟩
          fs := fs.put location content
          log := [⟨.info, "Wrote sanitized schema to " ++ path.text ++ " (" ++ Text.ofNat content.length ++
            " bytes)"⟩] }

end Document
end SchemaUnnest
