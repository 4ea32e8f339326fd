import SchemaUnnest.Unnesting.Extraction

namespace SchemaUnnest.Unnesting

def nameFor (kind : FragmentKind) (key : Text) : Text :=
  match kind with
  | .object => key
  | .arrayItem => key ++ Keyword.itemEnding

structure Move where
  kind : FragmentKind
  propertyName : Text
  fragment : Json
deriving DecidableEq

namespace Move

def name (move : Move) : Text := nameFor move.kind move.propertyName

def pointer (move : Move) : Text := Keyword.definitionsPointer ++ move.name

def reference (move : Move) : Json := Json.reference move.pointer

end Move

def fragmentAt? (kind : FragmentKind) (key : Text) (value : Json) : Option Move :=
  match kind with
  | .object => if value.isNestedObject then some ⟨.object, key, value⟩ else none
  | .arrayItem => value.itemSchema?.map fun item => ⟨.arrayItem, key, item⟩

theorem eq_of_fragmentAt? {kind : FragmentKind} {key : Text} {value : Json} {move : Move}
    (found : fragmentAt? kind key value = some move) : move = ⟨kind, key, move.fragment⟩ := by
  cases kind with
  | object =>
    obtain ⟨-, same⟩ := Option.ite_none_right_eq_some.1 found
    cases same
    rfl
  | arrayItem =>
    obtain ⟨item, -, rfl⟩ := Option.map_eq_some_iff.1 found
    rfl

def leave (kind : FragmentKind) (value reference : Json) : Json :=
  match kind with
  | .object => reference
  | .arrayItem => value.set Keyword.items reference

end SchemaUnnest.Unnesting
