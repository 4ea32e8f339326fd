import Mathlib.Tactic.Ring
import SchemaUnnest.Binary64.Decimal
import SchemaUnnest.Proofs.Digits

namespace SchemaUnnest

namespace Magnitude

end Magnitude

namespace Binary64

end Binary64
end SchemaUnnest
