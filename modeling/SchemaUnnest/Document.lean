import SchemaUnnest.File.Path
import SchemaUnnest.Json.Writer

namespace SchemaUnnest

structure Document where
  origin : FilePath
  root : Option Json
deriving DecidableEq

inductive DocumentFault where
  | rootNoObject (typeName : Text)
  | noRoot (origin : FilePath)
deriving DecidableEq

def DocumentFault.message : DocumentFault → Text
  | .rootNoObject typeName => "Schema root must be an object, got " ++ typeName
  | .noRoot origin => "No schema loaded from '" ++ origin.text ++ "'"

namespace Document

def standardEnding : Text := ".san"

def create (origin : FilePath) (root : Option Json) : Except DocumentFault Document :=
  match root with
  | none => .ok ⟨origin, none⟩
  | some value => if value.isObject then .ok ⟨origin, some value⟩ else .error (.rootNoObject value.typeName)

def hasRoot (document : Document) : Bool := document.root.isSome

def outputPath (document : Document) (ending : Text) : Except PathFault FilePath :=
  document.origin.withName (document.origin.name ++ ending)

def text (document : Document) (indent : Int) : Except DocumentFault Text :=
  match document.root with
  | none => .error (.noRoot document.origin)
  | some root => .ok (root.render indent)

end Document
end SchemaUnnest
