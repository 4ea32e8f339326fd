import SchemaUnnest.Text

namespace SchemaUnnest

inductive ProblemKind where
  | text
  | shape
  | missingSchema
  | fileSystem
deriving DecidableEq

namespace ProblemKind

def name : ProblemKind → Text
  | .text => "syntax"
  | .shape => "structure"
  | .missingSchema => "missing_schema"
  | .fileSystem => "filesystem"

def label : ProblemKind → Text
  | .text => "ErrorType.SYNTAX"
  | .shape => "ErrorType.STRUCTURE"
  | .missingSchema => "ErrorType.MISSING_SCHEMA"
  | .fileSystem => "ErrorType.FILESYSTEM"

end ProblemKind
end SchemaUnnest
