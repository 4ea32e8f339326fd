import SchemaUnnest.Problem
import SchemaUnnest.Schema.Shape

namespace SchemaUnnest

inductive FragmentKind where
  | object
  | arrayItem
deriving DecidableEq

def FragmentKind.name : FragmentKind → Text
  | .object => "object"
  | .arrayItem => "array_item"

structure Extraction where
  name : Text
  kind : FragmentKind
  propertyName : Text
  reference : Text
  overwrote : Bool
deriving DecidableEq

inductive RecordFault where
  | emptyName
  | foreignKind (kind : ProblemKind)
  | strayReference (name : Text)
deriving DecidableEq

def RecordFault.message : RecordFault → Text
  | .emptyName => "name cannot be empty"
  | .foreignKind kind => "Invalid kind: " ++ kind.label
  | .strayReference name => "reference must point to '" ++ Keyword.definitionsPointer ++ name ++ "'"

namespace Extraction

/-- A record, if its name is not empty, its kind is a fragment's, and its reference points to its name;
the first of these that fails is the fault. -/
def create (name : Text) (kind : ProblemKind ⊕ FragmentKind) (propertyName reference : Text)
    (overwrote : Bool) : Except RecordFault Extraction :=
  if name = [] then .error .emptyName
  else match kind with
    | .inl problem => .error (.foreignKind problem)
    | .inr kind =>
      if reference = Keyword.definitionsPointer ++ name then
        .ok ⟨name, kind, propertyName, reference, overwrote⟩
      else .error (.strayReference name)

def referenceNode (record : Extraction) : Json := Json.reference record.reference

end Extraction
end SchemaUnnest
