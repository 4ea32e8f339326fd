import SchemaUnnest.Log
import SchemaUnnest.Unnesting.Extraction

namespace SchemaUnnest.Unnesting

inductive Event where
  | checking (key : Text)
  | extracted (key : Text)
  | replaced (name : Text)
  | noDefinitions
  | definitionsUnusable (typeName : Text)
  | pass (number pending : Nat) (name : Text)
deriving DecidableEq

def Event.line : Event → LogLine
  | .checking key => ⟨.debug, "Checking key '" ++ key ++ "'"⟩
  | .extracted key => ⟨.info, "Externalized key: " ++ key⟩
  | .replaced name => ⟨.warning, "Definition '" ++ name ++ "' already exists and is replaced"⟩
  | .noDefinitions =>
    ⟨.warning, "root node has no 'definitions' node, creating an empty 'definitions' node"⟩
  | .definitionsUnusable typeName =>
    ⟨.warning, "'definitions' node is a " ++ typeName ++ ", not an object; leaving schema unchanged"⟩
  | .pass number pending name =>
    ⟨.debug, "Pass " ++ Text.ofNat number ++ ": " ++ Text.ofNat pending ++
      " definitions pending, processing '" ++ name ++ "'"⟩

inductive Fault where
  | record (fault : RecordFault)
  | tooDeep
deriving DecidableEq

def Fault.message : Fault → Text
  | .record fault => fault.message
  | .tooDeep => "maximum recursion depth exceeded"

end SchemaUnnest.Unnesting
