import SchemaUnnest.Json.Depth
import SchemaUnnest.Schema.Shape

namespace SchemaUnnest

structure Tally where
  references : Nat
  inlineObjects : Nat
deriving DecidableEq

namespace Tally

def none : Tally := ⟨0, 0⟩

def add (a b : Tally) : Tally := ⟨a.references + b.references, a.inlineObjects + b.inlineObjects⟩

def ofNode (exempt : Bool) (node : Json) : Tally :=
  if node.isReference then ⟨1, 0⟩ else if node.hasProperties && !exempt then ⟨0, 1⟩ else none

mutual

/-- References and inline objects in a node. The root is exempt, and so are the entries of its own
definitions. -/
def count (exempt : Bool) : Json → Tally
  | .obj fields => (ofNode exempt (.obj fields)).add (countFields exempt fields)
  | .arr items => countItems items
  | _ => none

def countFields (exempt : Bool) : List (Text × Json) → Tally
  | [] => none
  | (key, value) :: rest =>
    (if (key = Keyword.properties || key = Keyword.definitions) && value.isObject then
      countNamed (key = Keyword.definitions && exempt) value
    else count false value).add (countFields exempt rest)

def countNamed (exempt : Bool) : Json → Tally
  | .obj members => countMembers exempt members
  | _ => none

def countMembers (exempt : Bool) : List (Text × Json) → Tally
  | [] => none
  | (_, value) :: rest => (count exempt value).add (countMembers exempt rest)

def countItems : List Json → Tally
  | [] => none
  | item :: rest => (count false item).add (countItems rest)

end
end Tally

structure Statistics where
  maxDepth : Int
  definitions : Nat
  references : Nat
  inlineObjects : Nat
  unfinished : Nat
deriving DecidableEq

namespace Statistics

def ofRoot (root : Json) : Statistics :=
  let definitions := (root.object? Keyword.definitions).getD []
  let tally := Tally.count true root
  { maxDepth := root.depth
    definitions := definitions.length
    references := tally.references
    inlineObjects := tally.inlineObjects
    unfinished := definitions.countP fun (_, node) => node.holdsNested }

def toJson (s : Statistics) : Json :=
  .obj [("max_depth", .int s.maxDepth), ("definitions_count", .int s.definitions),
    ("reference_count", .int s.references), ("inline_object_count", .int s.inlineObjects),
    ("externalizable_count", .int s.unfinished)]

end Statistics
end SchemaUnnest
