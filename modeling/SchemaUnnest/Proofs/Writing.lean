import SchemaUnnest.Proofs.Outputs

namespace SchemaUnnest

namespace Document

open Batch FileSystem

section WriteOutcome

variable {fs after : FileSystem} {ending text : Text} {document : Document} {result : Except WriteFault Written}

end WriteOutcome

end Document
end SchemaUnnest
