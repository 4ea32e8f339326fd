import SchemaUnnest.Proofs.Passes

namespace SchemaUnnest.Unnesting

variable {room : Room}

section Members

variable {root : Json} {start fields : Fields}

theorem root_unnestWith (returns : (unnestWith room root start).fault = none) :
    ∃ final, (unnestWith room root start).root = root.flattened.set Keyword.definitions (.obj final) := by
  cases stops : (replaceNested room start root).fault with
  | some fault => simp [unnestWith, stops] at returns
  | none =>
    have first := performs_replaceNested start stops
    simp only [unnestWith, stops, first.node]
    exact ⟨_, rfl⟩

theorem root_unnest (begins : root.definitions? = some start) (returns : (unnest room root).fault = none) :
    ∃ final, (unnest room root).root = root.flattened.set Keyword.definitions (.obj final) := by
  unfold Json.definitions? at begins
  unfold unnest at returns ⊢
  split at begins
  · rename_i absent
    simp only [absent] at returns ⊢
    obtain ⟨final, left⟩ := root_unnestWith returns
    rw [flattened_set_definitions] at left
    exact ⟨final, left⟩
  · rename_i definitions held
    simp only [held] at returns ⊢
    exact root_unnestWith returns
  · cases begins

theorem flatProperties_eq (properties : Fields) :
    Json.flatProperties properties = properties.map fun (key, value) =>
      (key,
        if value.isNestedObject then Json.reference (Keyword.definitionsPointer ++ key)
        else if value.hasInlineItems then
          value.set Keyword.items (Json.reference (Keyword.definitionsPointer ++ (key ++ Keyword.itemEnding)))
        else value) :=
  List.map_congr_left fun (key, value) _ => congrArg (key, ·) (Json.flatValue_eq key value)

/-- How a run over an object leaves its members. -/
structure Run.Confined (run : Run) (fields left : Fields) : Prop where
  root : run.root = .obj left
  order : Entries.keys left =
    if Entries.has Keyword.definitions fields then Entries.keys fields else Entries.keys fields ++ [Keyword.definitions]
  others : ∀ key, key ≠ Keyword.properties → key ≠ Keyword.definitions →
    Entries.get? key left = Entries.get? key fields
  properties : ∀ start old, (Json.obj fields).definitions? = some start → (Json.obj fields).properties? = some old →
    Entries.get? Keyword.properties left = some (.obj (old.map fun (key, value) =>
      (key,
        if value.isNestedObject then Json.reference (Keyword.definitionsPointer ++ key)
        else if value.hasInlineItems then
          value.set Keyword.items (Json.reference (Keyword.definitionsPointer ++ (key ++ Keyword.itemEnding)))
        else value)))
  malformed : (Json.obj fields).properties? = none →
    Entries.get? Keyword.properties left = Entries.get? Keyword.properties fields
  unusable : (Json.obj fields).definitions? = none → left = fields

theorem confined_of_unusable (unusable : (Json.obj fields).definitions? = none) :
    (unnest room (.obj fields)).Confined fields fields := by
  have taken : Entries.has Keyword.definitions fields := by
    cases held : Entries.get? Keyword.definitions fields with
    | none => simp [Json.definitions?, Json.get?, held] at unusable
    | some value => simp [Entries.has, held]
  constructor
  · exact (unnest_of_unusable unusable).2
  · rw [if_pos taken]
  · intro key _ _
    rfl
  · intro start old begins
    rw [unusable] at begins
    cases begins
  · intro _
    rfl
  · intro _
    rfl

theorem confined_unnest (returns : (unnest room (.obj fields)).fault = none) :
    ∃ left, (unnest room (.obj fields)).Confined fields left := by
  cases begins : (Json.obj fields).definitions? with
  | none => exact ⟨fields, confined_of_unusable begins⟩
  | some start =>
    have apart : Keyword.definitions ≠ Keyword.properties := by decide
    obtain ⟨final, root⟩ := root_unnest begins returns
    have others : ∀ key, key ≠ Keyword.properties →
        (Json.obj fields).flattened.get? key = Entries.get? key fields :=
      fun key => (Json.obj fields).get?_flattened_of_ne
    have properties := (Json.obj fields).properties?_flattened
    cases flat : (Json.obj fields).flattened with
    | obj middle =>
      have keys := Json.keys_flattened flat
      rw [flat] at root others properties
      refine ⟨_, root, ?_, ?_, ?_, ?_, ?_⟩
      · rw [Entries.keys_set, keys, Entries.has_congr keys]
      · intro key plain free
        rw [Entries.get?_set_of_ne (Ne.symm free)]
        exact others key plain
      · intro _ old _ hp
        rw [hp, Option.map_some, Json.properties?_eq_some] at properties
        rw [Entries.get?_set_of_ne apart, ← flatProperties_eq]
        exact properties
      · intro none
        rw [Json.flattened_of_properties?_none none, Json.obj.injEq] at flat
        rw [Entries.get?_set_of_ne apart, flat]
      · intro unusable
        rw [begins] at unusable
        cases unusable
    | _ =>
      have object := (Json.obj fields).isObject_flattened
      rw [flat] at object
      cases object

end Members

section TwoRoots

structure Replacement.Alike (first second : Replacement) : Prop where
  definitions : first.definitions = second.definitions
  made : first.made = second.made
  events : first.events = second.events
  fault : first.fault = second.fault
  objects : first.node.isObject ∧ second.node.isObject
  properties : first.node.get? Keyword.properties = second.node.get? Keyword.properties

structure Run.SameWork (run other : Run) : Prop where
  made : run.made = other.made
  passes : run.passes = other.passes
  definitionsCreated : run.definitionsCreated = other.definitionsCreated
  events : run.events = other.events
  fault : run.fault = other.fault
  properties : run.root.get? Keyword.properties = other.root.get? Keyword.properties
  definitions : run.root.get? Keyword.definitions = other.root.get? Keyword.definitions

variable {root other : Json}

theorem alike_replaceNested (room : Room) (objects : root.isObject ∧ other.isObject)
    (same : root.get? Keyword.properties = other.get? Keyword.properties) (definitions : Fields) :
    (replaceNested room definitions root).Alike (replaceNested room definitions other) := by
  have shape : root.properties? = other.properties? := by simp only [Json.properties?, Json.object?, same]
  cases hp : other.properties? with
  | none =>
    simp only [replaceNested, shape, hp]
    exact ⟨rfl, rfl, rfl, rfl, objects, same⟩
  | some properties =>
    simp only [replaceNested, shape, hp]
    refine ⟨rfl, rfl, rfl, rfl, by simpa using objects, ?_⟩
    rw [Json.get?_set objects.1, Json.get?_set objects.2, if_pos rfl, if_pos rfl]

theorem sameWork_unnestWith (room : Room) (objects : root.isObject ∧ other.isObject)
    (same : root.get? Keyword.properties = other.get? Keyword.properties) (definitions : Fields) :
    (unnestWith room root definitions).SameWork (unnestWith room other definitions) := by
  have apart : Keyword.definitions ≠ Keyword.properties := by decide
  have alike := alike_replaceNested room objects same definitions
  simp only [unnestWith, alike.definitions, alike.made, alike.events, alike.fault]
  split <;>
    constructor <;> simp [Json.get?_set alike.objects.1, Json.get?_set alike.objects.2, apart, alike.properties]

theorem sameWork_unnest (objects : root.isObject ∧ other.isObject)
    (same : root.get? Keyword.properties = other.get? Keyword.properties)
    (alike : root.get? Keyword.definitions = other.get? Keyword.definitions) :
    (unnest room root).SameWork (unnest room other) := by
  have apart : Keyword.definitions ≠ Keyword.properties := by decide
  unfold unnest
  rw [alike]
  cases held : other.get? Keyword.definitions with
  | none =>
    have begun : (root.set Keyword.definitions (.obj [])).get? Keyword.properties =
        (other.set Keyword.definitions (.obj [])).get? Keyword.properties := by
      rw [Json.get?_set objects.1, Json.get?_set objects.2, if_neg apart, if_neg apart, same]
    have work := sameWork_unnestWith room (by simpa using objects) begun []
    exact ⟨work.made, work.passes, rfl, congrArg (Event.noDefinitions :: ·) work.events, work.fault, work.properties,
      work.definitions⟩
  | some value =>
    cases value with
    | obj definitions => exact sameWork_unnestWith room objects same definitions
    | _ => exact ⟨rfl, rfl, rfl, rfl, rfl, same, alike⟩

end TwoRoots

theorem unnest_confined_to_keywords (room : Room) (fields : Fields) :
    ((unnest room (.obj fields)).fault = none → ∃ left, (unnest room (.obj fields)).Confined fields left) ∧
      ∀ other, Entries.get? Keyword.properties other = Entries.get? Keyword.properties fields →
        Entries.get? Keyword.definitions other = Entries.get? Keyword.definitions fields →
          (unnest room (.obj other)).SameWork (unnest room (.obj fields)) :=
  ⟨confined_unnest, fun _ properties definitions => sameWork_unnest ⟨rfl, rfl⟩ properties definitions⟩

def referringFields : Fields :=
  [("$ref", .str "#/definitions/a"), ("properties", .obj
    [("a", .obj [("properties", .obj [("properties", .obj [("properties", .obj [])])]), ("items", .obj [])]),
      ("b", .obj [("items", .obj []), ("type", .str "array")])])]

def titledFields : Fields := ("title", .str "T") :: referringFields.tail

theorem unnest_confined_to_keywords_referringFields :
    (unnest (.ofDepth 100) (.obj referringFields)).fault = none ∧
      (∃ left, (unnest (.ofDepth 100) (.obj referringFields)).Confined referringFields left) ∧
      Entries.get? Keyword.properties titledFields = Entries.get? Keyword.properties referringFields ∧
      Entries.get? Keyword.definitions titledFields = Entries.get? Keyword.definitions referringFields ∧
      (unnest (.ofDepth 100) (.obj titledFields)).SameWork (unnest (.ofDepth 100) (.obj referringFields)) := by
  have returns : (unnest (.ofDepth 100) (.obj referringFields)).fault = none := by decide +kernel
  have properties : Entries.get? Keyword.properties titledFields = Entries.get? Keyword.properties referringFields := by
    decide
  have definitions : Entries.get? Keyword.definitions titledFields =
      Entries.get? Keyword.definitions referringFields := by decide
  have confined := unnest_confined_to_keywords (.ofDepth 100) referringFields
  exact ⟨returns, confined.1 returns, properties, definitions, confined.2 titledFields properties definitions⟩

end SchemaUnnest.Unnesting
