import SchemaUnnest.Entries
import SchemaUnnest.Text.Quoted
import SchemaUnnest.Text.Utf8

namespace SchemaUnnest

abbrev Location := List Text

inductive FileEntry where
  | file (content : Bytes)
  | directory
deriving DecidableEq

structure FileSystem where
  entries : List (Location × FileEntry)
  current : Location
deriving DecidableEq

/-- Why a file cannot be read or written. The first three are the file system's answer; the others say that
the path cannot be put to it. -/
inductive FileFault where
  | missing
  | notDirectory
  | isDirectory
  | unencodable (fault : Utf8.EncodeFault)
  | nullByte
deriving DecidableEq

namespace FileFault

def isRefusal : FileFault → Bool
  | .missing | .notDirectory | .isDirectory => true
  | .unencodable _ | .nullByte => false

def message (path : Text) : FileFault → Text
  | .missing => "[Errno 2] No such file or directory: " ++ path.quoted
  | .notDirectory => "[Errno 20] Not a directory: " ++ path.quoted
  | .isDirectory => "[Errno 21] Is a directory: " ++ path.quoted
  | .unencodable fault => fault.message
  | .nullByte => "embedded null byte"

end FileFault

namespace FileSystem

def lookup (fs : FileSystem) (location : Location) : Option FileEntry :=
  if location = [] then some .directory else Entries.get? location fs.entries

def walk (fs : FileSystem) (location : Location) : List Text → Except FileFault Location
  | [] => .ok location
  | name :: rest =>
    match fs.lookup location with
    | none => .error .missing
    | some (.file _) => .error .notDirectory
    | some .directory =>
      if name = [] || name = "." then walk fs location rest
      else if name = ".." then walk fs location.dropLast rest
      else walk fs (location ++ [name]) rest

/-- Octets that are no UTF-8 can stand in a path as these surrogates. -/
def standsForOctet (c : CodePoint) : Bool := 0xDC80 ≤ c.value && c.value ≤ 0xDCFF

def unencodable? (path : Text) : Option Utf8.EncodeFault :=
  let fits (c : CodePoint) : Bool := !c.isSurrogate || standsForOctet c
  match path.dropWhile fits with
  | [] => none
  | c :: rest =>
    some ⟨(path.takeWhile fits).length, 1 + (rest.takeWhile (·.isSurrogate)).length, c⟩

def resolve (fs : FileSystem) (path : Text) : Except FileFault Location :=
  match unencodable? path with
  | some fault => .error (.unencodable fault)
  | none =>
    if path.any (·.value = 0) then .error .nullByte
    else
      let start := if path.head? = some (CodePoint.ofChar '/') then [] else fs.current
      fs.walk start (Text.splitOn '/' path)

def find (fs : FileSystem) (path : Text) : Except FileFault FileEntry :=
  match fs.resolve path with
  | .error fault => .error fault
  | .ok location =>
    match fs.lookup location with
    | some entry => .ok entry
    | none => .error .missing

def read (fs : FileSystem) (path : Text) : Except FileFault Bytes :=
  match fs.find path with
  | .error fault => .error fault
  | .ok .directory => .error .isDirectory
  | .ok (.file content) => .ok content

def size (fs : FileSystem) (path : Text) : Nat :=
  match fs.find path with
  | .ok (.file content) => content.length
  | _ => 0

def put (fs : FileSystem) (location : Location) (content : Bytes) : FileSystem :=
  { fs with entries := Entries.set location (.file content) fs.entries }

def target (fs : FileSystem) (path : Text) : Except FileFault Location :=
  match fs.resolve path with
  | .error fault => .error fault
  | .ok location =>
    match fs.lookup location with
    | some .directory => .error .isDirectory
    | _ => .ok location

end FileSystem
end SchemaUnnest
