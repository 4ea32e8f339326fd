import SchemaUnnest.Proofs.Account

namespace SchemaUnnest.Json

open Unnesting

variable {names : List Text} {definitions : Fields}

def bareTarget? (names : List Text) (value : Json) : Option Text :=
  names.find? fun name => value = reference (Keyword.definitionsPointer ++ name)

def expandValue (expand : Json → Option Json) (names : List Text) (definitions : Fields) (value : Json) :
    Option Json :=
  match bareTarget? names value with
  | some name => (Entries.get? name definitions).bind expand
  | none =>
    if value.isReference then some value
    else
      match (value.get? Keyword.items).bind (bareTarget? names) with
      | some name => ((Entries.get? name definitions).bind expand).map (value.set Keyword.items)
      | none => some value

def expandProperties (expand : Json → Option Json) (names : List Text) (definitions : Fields) :
    Fields → Option Fields
  | [] => some []
  | (key, value) :: rest =>
    (expandValue expand names definitions value).bind fun whole =>
      (expandProperties expand names definitions rest).map ((key, whole) :: ·)

/-- A node with the definitions of these names in place of the references to them, if no chain of references is
longer than the bound. -/
def expand? (names : List Text) (definitions : Fields) : Nat → Json → Option Json
  | 0, _ => none
  | bound + 1, node =>
    match node.properties? with
    | none => some node
    | some properties =>
      (expandProperties (expand? names definitions bound) names definitions properties).map fun whole =>
        node.set Keyword.properties (.obj whole)

def ExpandsTo (names : List Text) (definitions : Fields) (node whole : Json) : Prop :=
  ∃ bound, expand? names definitions bound node = some whole

theorem expandValue_mono {small large : Json → Option Json}
    (more : ∀ node whole, small node = some whole → large node = some whole) {value whole : Json}
    (h : expandValue small names definitions value = some whole) :
    expandValue large names definitions value = some whole := by
  unfold expandValue at h ⊢
  split
  · rename_i name found
    simp only [found] at h
    obtain ⟨node, held, done⟩ := Option.bind_eq_some_iff.1 h
    simp only [held, Option.bind_some, more node whole done]
  · rename_i none
    simp only [none] at h
    split
    · rename_i reference
      rw [if_pos reference] at h
      exact h
    · rename_i reference
      rw [if_neg reference] at h
      split
      · rename_i name found
        simp only [found] at h
        obtain ⟨element, inner, rfl⟩ := Option.map_eq_some_iff.1 h
        obtain ⟨node, held, done⟩ := Option.bind_eq_some_iff.1 inner
        simp only [held, Option.bind_some, more node element done, Option.map_some]
      · rename_i plain
        simpa only [plain] using h

theorem expandProperties_mono {small large : Json → Option Json}
    (more : ∀ node whole, small node = some whole → large node = some whole) {properties whole : Fields}
    (h : expandProperties small names definitions properties = some whole) :
    expandProperties large names definitions properties = some whole := by
  induction properties generalizing whole with
  | nil => exact h
  | cons entry rest ih =>
    obtain ⟨value, here, later⟩ := Option.bind_eq_some_iff.1 h
    obtain ⟨values, there, rfl⟩ := Option.map_eq_some_iff.1 later
    simp only [expandProperties, expandValue_mono more here, ih there, Option.bind_some, Option.map_some]

theorem expand?_succ {bound : Nat} {node whole : Json} (h : expand? names definitions bound node = some whole) :
    expand? names definitions (bound + 1) node = some whole := by
  induction bound generalizing node whole with
  | zero => cases h
  | succ bound ih =>
    rw [expand?] at h ⊢
    split at h
    · exact h
    · obtain ⟨properties, inner, rfl⟩ := Option.map_eq_some_iff.1 h
      rw [expandProperties_mono (fun _ _ => ih) inner]
      rfl

theorem expand?_mono {bound more : Nat} (le : bound ≤ more) {node whole : Json}
    (h : expand? names definitions bound node = some whole) : expand? names definitions more node = some whole := by
  induction le with
  | refl => exact h
  | step _ ih => exact expand?_succ ih

/-- What a node expands to does not depend on the bound. -/
theorem ExpandsTo.unique {node left right : Json} (hl : node.ExpandsTo names definitions left)
    (hr : node.ExpandsTo names definitions right) : left = right := by
  obtain ⟨first, hl⟩ := hl
  obtain ⟨second, hr⟩ := hr
  have left := expand?_mono (Nat.le_max_left first second) hl
  have right := expand?_mono (Nat.le_max_right first second) hr
  exact Option.some.inj (left.symm.trans right)

def Unreferenced (names : List Text) (value : Json) : Prop :=
  ∀ part : Json, part.IsPart value → ∀ name ∈ names,
    part.get? Keyword.ref ≠ some (.str (Keyword.definitionsPointer ++ name))

theorem Unreferenced.part {value part : Json} (h : value.Unreferenced names) (inside : part.IsPart value) :
    part.Unreferenced names :=
  fun inner within => h inner (within.trans inside)

theorem unreferenced_iff (names : List Text) (value : Json) :
    value.everyPart (fun part => names.all fun name =>
      part.get? Keyword.ref ≠ some (.str (Keyword.definitionsPointer ++ name))) ↔ value.Unreferenced names := by
  simp only [everyPart_iff, List.all_eq_true, decide_eq_true_eq, Unreferenced]

instance (value : Json) : Decidable (value.Unreferenced names) := decidable_of_iff _ (unreferenced_iff names value)

theorem bareTarget?_reference {name : Text} (member : name ∈ names) :
    bareTarget? names (reference (Keyword.definitionsPointer ++ name)) = some name := by
  have same : ∀ other, (decide (reference (Keyword.definitionsPointer ++ name) =
      reference (Keyword.definitionsPointer ++ other))) = decide (name = other) := by
    intro other
    simp [reference]
  simp only [bareTarget?, same]
  cases found : names.find? fun other => decide (name = other) with
  | none =>
    have absent := List.find?_eq_none.1 found name member
    simp at absent
  | some other =>
    have here := List.find?_some found
    rw [of_decide_eq_true here]

theorem bareTarget?_of_unreferenced {value : Json} (plain : value.Unreferenced names) :
    bareTarget? names value = none := by
  rw [bareTarget?, List.find?_eq_none]
  intro name member same
  apply plain value .self name member
  rw [of_decide_eq_true same]
  simp [reference, get?, Entries.get?]

theorem bareTarget?_of_not_isReference {value : Json} (plain : value.isReference = false) :
    bareTarget? names value = none := by
  rw [bareTarget?, List.find?_eq_none]
  intro name member same
  rw [of_decide_eq_true same, isReference_reference] at plain
  cases plain

theorem expandValue_of_unreferenced (expand : Json → Option Json) {value : Json} (plain : value.Unreferenced names) :
    expandValue expand names definitions value = some value := by
  have elements : (value.get? Keyword.items).bind (bareTarget? names) = none := by
    cases held : value.get? Keyword.items with
    | none => rfl
    | some item => exact bareTarget?_of_unreferenced (plain.part (isPart_of_get? held))
  unfold expandValue
  simp only [bareTarget?_of_unreferenced plain, elements, ite_self]

theorem expandValue_set_items {expand : Json → Option Json} {value item pointer : Json} {name : Text}
    (free : value.isReference = false) (held : value.get? Keyword.items = some item)
    (target : bareTarget? names pointer = some name)
    (back : (Entries.get? name definitions).bind expand = some item) :
    expandValue expand names definitions (value.set Keyword.items pointer) = some value := by
  have object := isObject_of_get? held
  have other : Keyword.items ≠ Keyword.ref := by decide
  have still : (value.set Keyword.items pointer).isReference = false := by
    rw [isReference_eq, get?_set object, if_neg other, ← isReference_eq]
    exact free
  have elements : (value.set Keyword.items pointer).get? Keyword.items = some pointer := by
    rw [get?_set object, if_pos rfl]
  unfold expandValue
  rw [bareTarget?_of_not_isReference still, still, elements]
  simp only [Option.bind_some, target, back, Option.map_some, set_set, set_of_get? held]
  rfl

theorem expandValue_flatValue {expand : Json → Option Json} {key : Text} {value : Json}
    (plain : value.Unreferenced names)
    (given : ∀ move, move? key value = some move →
      move.name ∈ names ∧ (Entries.get? move.name definitions).bind expand = some move.fragment) :
    expandValue expand names definitions (flatValue key value) = some value := by
  cases h : move? key value with
  | none =>
    rw [flatValue_of_move?_none h]
    exact expandValue_of_unreferenced expand plain
  | some move =>
    obtain ⟨member, back⟩ := given move h
    have target : bareTarget? names move.reference = some move.name := bareTarget?_reference member
    simp only [flatValue, h]
    rcases move?_eq_some h with ⟨-, same⟩ | ⟨-, item, hi, same⟩
    · have kind : move.kind = .object := by rw [same]
      have fragment : move.fragment = value := by rw [same]
      rw [kind, leave, expandValue, target, ← fragment]
      exact back
    · have kind : move.kind = .arrayItem := by rw [same]
      have fragment : move.fragment = item := by rw [same]
      obtain ⟨free, held, -, -⟩ := itemSchema?_eq_some hi
      rw [kind, leave]
      exact expandValue_set_items free held target (fragment ▸ back)

theorem expandProperties_map {expand : Json → Option Json} (change : Text → Json → Json) {properties : Fields}
    (each : ∀ key value, (key, value) ∈ properties →
      expandValue expand names definitions (change key value) = some value) :
    expandProperties expand names definitions (properties.map fun (key, value) => (key, change key value)) =
      some properties := by
  induction properties with
  | nil => rfl
  | cons entry rest ih =>
    obtain ⟨key, value⟩ := entry
    have here := each key value List.mem_cons_self
    have later := ih fun other held member => each other held (List.mem_cons_of_mem _ member)
    simp only [List.map_cons, expandProperties, here, later, Option.bind_some, Option.map_some]

theorem expand?_of_properties? {bound : Nat} {node : Json} {properties whole : Fields}
    (hp : node.properties? = some properties)
    (inner : expandProperties (expand? names definitions bound) names definitions properties = some whole) :
    expand? names definitions (bound + 1) node = some (node.set Keyword.properties (.obj whole)) := by
  simp only [expand?, hp, inner, Option.map_some]

theorem expand?_of_unreferenced (bound : Nat) {node : Json} (plain : node.Unreferenced names) :
    expand? names definitions (bound + 1) node = some node := by
  cases hp : node.properties? with
  | none => simp only [expand?, hp]
  | some properties =>
    have each : ∀ key value, (key, value) ∈ properties →
        expandValue (expand? names definitions bound) names definitions value = some value :=
      fun key value member => expandValue_of_unreferenced _ (plain.part (isPart_of_mem_properties hp member))
    have inner := expandProperties_map (fun _ value => value) each
    have same : (properties.map fun (key, value) => (key, value)) = properties := List.map_id properties
    rw [expand?_of_properties? hp (same ▸ inner), set_of_get? (properties?_eq_some.1 hp)]

theorem expandProperties_flatProperties {expand : Json → Option Json} {node : Json} {properties : Fields}
    (plain : node.Unreferenced names) (hp : node.properties? = some properties)
    (given : ∀ move ∈ node.moves,
      move.name ∈ names ∧ (Entries.get? move.name definitions).bind expand = some move.fragment) :
    expandProperties expand names definitions (flatProperties properties) = some properties := by
  apply expandProperties_map flatValue
  intro key value member
  apply expandValue_flatValue (plain.part (isPart_of_mem_properties hp member))
  intro move found
  apply given move
  rw [moves_of_properties? hp]
  exact mem_movesOf.2 ⟨key, value, member, found⟩

theorem expand?_flattened {bound : Nat} {node : Json} (plain : node.Unreferenced names)
    (given : ∀ move ∈ node.moves, move.name ∈ names ∧
      (Entries.get? move.name definitions).bind (expand? names definitions bound) = some move.fragment) :
    expand? names definitions (bound + 1) node.flattened = some node := by
  cases hp : node.properties? with
  | none => simp only [expand?, flattened, hp]
  | some properties =>
    have inner := expandProperties_flatProperties plain hp given
    have flat : node.flattened.properties? = some (flatProperties properties) := by
      rw [properties?_flattened, hp, Option.map_some]
    rw [expand?_of_properties? flat inner, flattened, hp]
    simp only [set_set, set_of_get? (properties?_eq_some.1 hp)]

theorem expand?_set_definitions {bound : Nat} {node whole : Json} (new : Json)
    (h : expand? names definitions bound node = some whole) :
    expand? names definitions bound (node.set Keyword.definitions new) = some (whole.set Keyword.definitions new) := by
  cases bound with
  | zero => cases h
  | succ bound =>
    have other : Keyword.properties ≠ Keyword.definitions := by decide
    simp only [expand?, properties?_set_definitions] at h ⊢
    cases hp : node.properties? with
    | none =>
      simp only [hp, Option.some.injEq] at h
      rw [h]
    | some properties =>
      simp only [hp] at h
      obtain ⟨values, inner, rfl⟩ := Option.map_eq_some_iff.1 h
      have held : node.has Keyword.properties := by
        obtain ⟨fields, rfl, found⟩ := fields_of_get? (properties?_eq_some.1 hp)
        simp [has, Entries.has, found]
      simp only [inner, Option.map_some, set_comm other held]

end SchemaUnnest.Json
