import SchemaUnnest.Text.Quoted

namespace SchemaUnnest

/-- Where a path starts: at the working directory, at the top, or at the top in a way of its own, which two
slashes and no more stand for. -/
inductive PathStart where
  | here
  | top
  | doubleTop
deriving DecidableEq

structure FilePath where
  start : PathStart
  parts : List Text
deriving DecidableEq

inductive PathFault where
  | nameless (path : FilePath)
  | invalidName (name : Text)
deriving DecidableEq

def PathStart.text : PathStart → Text
  | .here => []
  | .top => "/"
  | .doubleTop => "//"

def PathStart.ofText (text : Text) : PathStart :=
  match (text.takeWhile (· = CodePoint.ofChar '/')).length with
  | 0 => .here
  | 2 => .doubleTop
  | _ => .top

namespace FilePath

def names (text : Text) : List Text := (Text.splitOn '/' text).filter fun name => name ≠ [] && name ≠ "."

def ofText (text : Text) : FilePath := ⟨.ofText text, names text⟩

def text (path : FilePath) : Text :=
  match path.start, path.parts with
  | .here, [] => "."
  | start, parts => start.text ++ Text.join "/" parts

def name (path : FilePath) : Text := path.parts.getLast?.getD []

def isName (name : Text) : Bool :=
  name.getLast? ≠ some (CodePoint.ofChar '/') && PathStart.ofText name = .here && (names name).length = 1

def withName (path : FilePath) (name : Text) : Except PathFault FilePath :=
  if path.name = [] then .error (.nameless path)
  else if isName name then .ok ⟨path.start, path.parts.dropLast ++ [name]⟩
  else .error (.invalidName name)

end FilePath

def PathFault.message : PathFault → Text
  | .nameless path => "PosixPath(" ++ path.text.quoted ++ ") has an empty name"
  | .invalidName name => "Invalid name " ++ name.quoted

end SchemaUnnest
