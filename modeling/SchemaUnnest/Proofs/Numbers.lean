import Mathlib.Data.List.TakeDrop
import SchemaUnnest.Json.Reader
import SchemaUnnest.Json.Writer
import SchemaUnnest.Proofs.Rounding

namespace SchemaUnnest

open Binary64

namespace Json

def EndsNumber (tail : Text) : Prop :=
  ∀ c ∈ tail.head?, c.isDigit = false ∧ c ≠ '.' ∧ c ≠ 'e' ∧ c ≠ 'E'

end Json
end SchemaUnnest
