import SchemaUnnest.Json
import SchemaUnnest.Log
import SchemaUnnest.Problem

namespace SchemaUnnest

structure Failure where
  message : Text
  kind : ProblemKind
  context : Option Json
deriving DecidableEq

structure Response where
  canRecover : Bool
  suggestion : Text
  partialResults : Json
deriving DecidableEq

namespace Failure

def renderedKey : Text := "rendered"

def response (failure : Failure) : Response :=
  match failure.kind with
  | .fileSystem =>
    { canRecover := true
      suggestion := "Check file permissions and available disk space next to the input schema. " ++
        "The sanitized schema was produced in memory but not written."
      partialResults := (failure.context.bind (·.get? renderedKey)).getD .null }
  | .text | .shape =>
    { canRecover := false
      suggestion := "Fix the schema so that it is a valid JSON object of moderate nesting and retry."
      partialResults := .null }
  | .missingSchema =>
    { canRecover := false
      suggestion := "Unknown error type. Please check logs and retry."
      partialResults := .null }

def log (failure : Failure) : Log :=
  [⟨.error, "Processing error: " ++ failure.kind.name ++ " - " ++ failure.message⟩]

end Failure
end SchemaUnnest
