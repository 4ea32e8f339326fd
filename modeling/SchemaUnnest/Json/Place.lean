import SchemaUnnest.Json

namespace SchemaUnnest

/-- Neither path leads through the other. -/
def Apart (left right : List Text) : Prop := ¬ left <+: right ∧ ¬ right <+: left

instance (left right : List Text) : Decidable (Apart left right) := inferInstanceAs (Decidable (_ ∧ _))

theorem Apart.symm {left right : List Text} (apart : Apart left right) : Apart right left := ⟨apart.2, apart.1⟩

theorem Apart.tail {key : Text} {left right : List Text} (apart : Apart (key :: left) (key :: right)) :
    Apart left right := by
  simpa [Apart, List.cons_prefix_cons] using apart

theorem Apart.not_below {left right : List Text} (apart : Apart left right) (more : List Text) :
    ¬ left ++ more <+: right :=
  fun inside => apart.1 ((List.prefix_append left more).trans inside)

theorem Apart.append {left right : List Text} (apart : Apart left right) (more : List Text) :
    Apart left (right ++ more) := by
  refine ⟨fun inside => ?_, apart.symm.not_below more⟩
  rcases List.prefix_or_prefix_of_prefix inside (List.prefix_append right more) with shorter | longer
  · exact apart.1 shorter
  · exact apart.2 longer

theorem not_below_self (path : List Text) (key : Text) (more : List Text) :
    ¬ path ++ key :: more <+: path := by
  intro inside
  have short := inside.length_le
  simp only [List.length_append, List.length_cons] at short
  omega

theorem not_below_sibling (path : List Text) {key other : Text} (h : key ≠ other) (more : List Text) :
    ¬ path ++ key :: more <+: path ++ [other] := by
  simp [List.prefix_append_right_inj, h]

namespace Json

theorem at?_append (path more : List Text) (root : Json) :
    root.at? (path ++ more) = (root.at? path).bind (at? more) := by
  induction path generalizing root with
  | nil => rfl
  | cons key path ih => cases found : root.get? key <;> simp [at?, found, ih]

theorem modifyAt_append (change : Json → Json) (path more : List Text) (root : Json) :
    root.modifyAt change (path ++ more) = root.modifyAt (modifyAt change more) path := by
  induction path generalizing root with
  | nil => rfl
  | cons key path ih => cases found : root.get? key <;> simp [modifyAt, found, ih]

theorem modifyAt_of_get? {node member : Json} {key : Text} (held : node.get? key = some member) (change : Json → Json)
    (path : List Text) : node.modifyAt change (key :: path) = node.set key (member.modifyAt change path) := by
  simp [modifyAt, held]

theorem modifyAt_of_none {node : Json} {key : Text} (absent : node.get? key = none) (change : Json → Json)
    (path : List Text) : node.modifyAt change (key :: path) = node := by
  simp [modifyAt, absent]

theorem setAt_append (root : Json) (path : List Text) (key : Text) (new : Json) :
    root.setAt (path ++ [key]) new = root.modifyAt (·.set key new) path := by
  simp [setAt]

theorem at?_modifyAt {root value : Json} {path : List Text} (found : root.at? path = some value)
    (change : Json → Json) :
    (root.modifyAt change path).at? path = some (change value) := by
  induction path generalizing root with
  | nil =>
    cases found
    rfl
  | cons key path ih =>
    obtain ⟨member, held, inside⟩ := Option.bind_eq_some_iff.1 found
    rw [modifyAt_of_get? held, at?, get?_set (isObject_of_get? held), if_pos rfl, Option.bind_some, ih inside]

theorem modifyAt_congr {root value : Json} {path : List Text} (found : root.at? path = some value)
    {first second : Json → Json} (same : first value = second value) :
    root.modifyAt first path = root.modifyAt second path := by
  induction path generalizing root with
  | nil =>
    cases found
    exact same
  | cons key path ih =>
    obtain ⟨member, held, inside⟩ := Option.bind_eq_some_iff.1 found
    rw [modifyAt_of_get? held, modifyAt_of_get? held, ih inside]

theorem modifyAt_self {root value : Json} {path : List Text} (found : root.at? path = some value) :
    root.modifyAt (fun _ => value) path = root := by
  induction path generalizing root with
  | nil =>
    cases found
    rfl
  | cons key path ih =>
    obtain ⟨member, held, inside⟩ := Option.bind_eq_some_iff.1 found
    rw [modifyAt_of_get? held, ih inside, set_of_get? held]

theorem modifyAt_modifyAt (first second : Json → Json) (path : List Text) (root : Json) :
    (root.modifyAt first path).modifyAt second path = root.modifyAt (second ∘ first) path := by
  induction path generalizing root with
  | nil => rfl
  | cons key path ih =>
    cases held : root.get? key with
    | none => simp only [modifyAt_of_none held]
    | some member =>
      have after : (root.set key (member.modifyAt first path)).get? key = some (member.modifyAt first path) := by
        rw [get?_set (isObject_of_get? held), if_pos rfl]
      rw [modifyAt_of_get? held, modifyAt_of_get? after, modifyAt_of_get? held, set_set, ih]

theorem get?_modifyAt_of_ne {key other : Text} (h : key ≠ other) (change : Json → Json) (path : List Text)
    (root : Json) :
    (root.modifyAt change (key :: path)).get? other = root.get? other := by
  cases held : root.get? key with
  | none => rw [modifyAt_of_none held]
  | some member => rw [modifyAt_of_get? held, get?_set (isObject_of_get? held), if_neg h]

theorem at?_modifyAt_of_apart {left right : List Text} (apart : Apart left right) (change : Json → Json) (root : Json) :
    (root.modifyAt change left).at? right = root.at? right := by
  induction left generalizing right root with
  | nil => exact absurd List.nil_prefix apart.1
  | cons key left ih =>
    cases right with
    | nil => exact absurd List.nil_prefix apart.2
    | cons other right =>
      by_cases same : key = other
      · subst same
        cases held : root.get? key with
        | none => rw [modifyAt_of_none held]
        | some member =>
          rw [modifyAt_of_get? held, at?, at?, get?_set (isObject_of_get? held), if_pos rfl, held, Option.bind_some,
            Option.bind_some, ih apart.tail]
      · rw [at?, at?, get?_modifyAt_of_ne same]

theorem modifyAt_comm {left right : List Text} (apart : Apart left right) (first second : Json → Json) (root : Json) :
    (root.modifyAt first left).modifyAt second right = (root.modifyAt second right).modifyAt first left := by
  induction left generalizing right root with
  | nil => exact absurd List.nil_prefix apart.1
  | cons key left ih =>
    cases right with
    | nil => exact absurd List.nil_prefix apart.2
    | cons other right =>
      by_cases same : key = other
      · subst same
        cases held : root.get? key with
        | none => simp only [modifyAt_of_none held]
        | some member =>
          have after : ∀ new, (root.set key new).get? key = some new := by
            intro new
            rw [get?_set (isObject_of_get? held), if_pos rfl]
          rw [modifyAt_of_get? held, modifyAt_of_get? held, modifyAt_of_get? (after _), modifyAt_of_get? (after _),
            set_set, set_set, ih apart.tail]
      · have away := get?_modifyAt_of_ne same first left root
        have back := get?_modifyAt_of_ne (Ne.symm same) second right root
        cases here : root.get? key with
        | none => rw [modifyAt_of_none here, modifyAt_of_none (back.trans here)]
        | some member =>
          cases there : root.get? other with
          | none => rw [modifyAt_of_none there, modifyAt_of_none (away.trans there)]
          | some value =>
            rw [modifyAt_of_get? (away.trans there), modifyAt_of_get? (back.trans here), modifyAt_of_get? here,
              modifyAt_of_get? there, set_comm (Ne.symm same) (has_of_get? there)]

end Json

structure Place where
  tree : Nat
  path : List Text
deriving DecidableEq

namespace Place

def member (place : Place) (key : Text) : Place := { place with path := place.path ++ [key] }

/-- Where a place is once what stands at `gone` is the tree with the given number. -/
def follow (gone : Place) (tree : Nat) (place : Place) : Place :=
  if gone.tree = place.tree && gone.path.isPrefixOf place.path then
    ⟨tree, place.path.drop gone.path.length⟩
  else place

def value (trees : List Json) (place : Place) : Json :=
  ((trees[place.tree]?).bind (Json.at? place.path)).getD .null

/-- Stores a value at a place; what stood there is the last tree now. -/
def store (trees : List Json) (place : Place) (new : Json) : List Json :=
  trees.modify place.tree (·.setAt place.path new) ++ [place.value trees]

end Place
end SchemaUnnest
