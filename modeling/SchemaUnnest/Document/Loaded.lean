import SchemaUnnest.Document
import SchemaUnnest.File.System
import SchemaUnnest.Schema.Validation

namespace SchemaUnnest.Document

/-- Every line ends in a line feed: a carriage return, with a line feed after it or not, becomes one. -/
def unifyNewlines : Text → Text
  | [] => []
  | c :: rest =>
    if c = '\r' then
      match rest with
      | d :: rest' => if d = '\n' then d :: unifyNewlines rest' else '\n' :: unifyNewlines (d :: rest')
      | [] => ['\n']
    else c :: unifyNewlines rest

inductive TextFault where
  | file (fault : FileFault)
  | encoding (fault : Utf8.DecodeFault)
deriving DecidableEq

def TextFault.message (path : Text) : TextFault → Text
  | .file fault => fault.message path
  | .encoding fault => fault.message

def readText (fs : FileSystem) (path : Text) : Except TextFault Text :=
  match fs.read path with
  | .error fault => .error (.file fault)
  | .ok content =>
    match Utf8.decode content with
    | .error fault => .error (.encoding fault)
    | .ok text => .ok (unifyNewlines text)

def load (levels : Nat) (limit : Int) (fs : FileSystem) (path : FilePath) : Except FileFault Document × Log :=
  match readText fs path.text with
  | .error fault =>
    let unread : Log := [⟨.error, "Cannot read schema '" ++ path.text ++ "': " ++ fault.message path.text⟩]
    match fault with
    | .file fault => if fault.isRefusal then (.ok ⟨path, none⟩, unread) else (.error fault, [])
    | .encoding _ => (.ok ⟨path, none⟩, unread)
  | .ok text =>
    match Schema.parse levels limit (.str text) with
    | (.error fault, log) =>
      (.ok ⟨path, none⟩,
        log ++ [⟨.error, "Cannot parse schema '" ++ path.text ++ "': " ++ fault.message⟩])
    | (.ok root, log) => (.ok ⟨path, some root⟩, log ++ [⟨.info, "Loaded schema from " ++ path.text⟩])

end SchemaUnnest.Document
