import Mathlib.Tactic.Abel
import SchemaUnnest.Proofs.Ending
import SchemaUnnest.Proofs.Report
import SchemaUnnest.Proofs.Reordering
import SchemaUnnest.Proofs.Restoring

namespace SchemaUnnest

open Unnesting

/-- All that a definition gives away in the end: its fragments, and what those give away as definitions. -/
def Json.yield (node : Json) : Multiset Move :=
  if node.holdsNested then
    (node.moves : Multiset Move) +
      (node.moves.attach : Multiset { move // move ∈ node.moves }).bind fun move => move.1.fragment.yield
  else 0
termination_by sizeOf node
decreasing_by exact Json.sizeOf_fragment_lt move.2

namespace Unnesting

variable {room : Room}

def gather {α : Type} (each : Json → Multiset α) (definitions : Fields) : Multiset α :=
  (definitions : Multiset (Text × Json)).bind fun entry => each entry.2

theorem gather_append {α : Type} (each : Json → Multiset α) (first second : Fields) :
    gather each (first ++ second) = gather each first + gather each second := by
  rw [gather, gather, gather, ← Multiset.coe_add, Multiset.add_bind]

theorem gather_cons {α : Type} (each : Json → Multiset α) (entry : Text × Json) (rest : Fields) :
    gather each (entry :: rest) = each entry.2 + gather each rest := by
  rw [gather, gather, ← Multiset.cons_coe, Multiset.cons_bind]

theorem gather_entries {α : Type} (each : Json → Multiset α) (moves : List Move) :
    gather each (moves.map Move.entry) = (moves : Multiset Move).bind fun move => each move.fragment := by
  rw [gather, ← Multiset.map_coe, Multiset.bind_map]
  rfl

theorem gather_set {α : Type} (each : Json → Multiset α) {name : Text} {old : Json} {definitions : Fields}
    (found : Entries.get? name definitions = some old) (new : Json) :
    gather each (Entries.set name new definitions) + each old = gather each definitions + each new := by
  obtain ⟨before, after, rfl, stored⟩ := Entries.set_at found
  simp only [stored, gather_append, gather_cons]
  abel

def yields (moves : List Move) : Multiset Move := (moves : Multiset Move).bind fun move => move.fragment.yield

def owed (definitions : Fields) : Multiset Move :=
  (definitions : Multiset (Text × Json)).bind fun entry => entry.2.yield

theorem yield_eq (node : Json) : node.yield = if node.holdsNested then node.moves + yields node.moves else 0 := by
  rw [Json.yield, yields]
  congr 2
  exact Multiset.attach_bind_coe (node.moves : Multiset Move) fun move => move.fragment.yield

theorem yield_of_holdsNested {node : Json} (h : node.holdsNested) : node.yield = node.moves + yields node.moves := by
  rw [yield_eq, if_pos h]

theorem yield_flattened (node : Json) : node.flattened.yield = 0 := by
  rw [yield_eq, Json.holdsNested_flattened, if_neg (by decide)]

theorem rel_yield {node other : Json} (h : node.Reordered other) : Multiset.Rel Move.Alike node.yield other.yield := by
  rw [yield_eq, yield_eq, h.holdsNested]
  split
  · have moves := h.rel_moves
    apply moves.add
    apply Multiset.rel_bind (r := fun move new => Multiset.Rel Move.Alike move.fragment.yield new.fragment.yield)
    · intro move new alike
      exact alike
    · exact moves.mono fun move member new _ alike => rel_yield alike.fragment
  · exact .zero
termination_by sizeOf node
decreasing_by exact Json.sizeOf_fragment_lt (by simpa using member)

structure Fresh (moves : Multiset Move) (definitions : Fields) : Prop where
  distinct : (moves.map Move.name).Nodup
  free : ∀ move ∈ moves, Entries.has move.name definitions = false

theorem Fresh.of_le {moves less : Multiset Move} {definitions : Fields} (h : Fresh moves definitions)
    (le : less ≤ moves) : Fresh less definitions where
  distinct := Multiset.nodup_of_le (Multiset.map_le_map le) h.distinct
  free := fun move member => h.free move (Multiset.mem_of_le le member)

theorem Fresh.congr {moves : Multiset Move} {left right : Fields} (h : Fresh moves left)
    (same : ∀ name, Entries.has name right = Entries.has name left) : Fresh moves right where
  distinct := h.distinct
  free := fun move member => by rw [same, h.free move member]

theorem Fresh.storeAll {moves : List Move} {rest : Multiset Move} {definitions : Fields}
    (h : Fresh (moves + rest) definitions) : Fresh rest (storeAll moves definitions) where
  distinct := (h.of_le (Multiset.le_add_left _ _)).distinct
  free := by
    intro move member
    have names := h.distinct
    rw [Multiset.map_add, Multiset.nodup_add] at names
    have other : move.name ∉ moves.map Move.name := by
      intro taken
      exact Multiset.disjoint_left.1 names.2.2 (by simpa using taken) (Multiset.mem_map_of_mem _ member)
    have absent := h.free move (Multiset.mem_add.2 (Or.inr member))
    rw [← Bool.not_eq_true, has_storeAll]
    rintro (held | taken)
    · rw [absent] at held
      cases held
    · exact other taken

theorem Fresh.head {move : Move} {rest : List Move} {definitions : Fields}
    (h : Fresh (move :: rest : List Move) definitions) :
    Entries.has move.name definitions = false ∧ Fresh rest (Entries.set move.name move.fragment definitions) := by
  have split : Fresh (([move] : List Move) + (rest : Multiset Move)) definitions := by simpa using h
  exact ⟨h.free move (by simp), split.storeAll⟩

theorem storeAll_of_fresh {moves : List Move} {definitions : Fields} (h : Fresh moves definitions) :
    storeAll moves definitions = definitions ++ moves.map Move.entry := by
  induction moves generalizing definitions with
  | nil => simp [storeAll_nil]
  | cons move rest ih =>
    obtain ⟨here, later⟩ := h.head
    rw [storeAll_cons, ih later, Entries.set_of_absent here]
    simp [Move.entry]

theorem recordAll_of_fresh {moves : List Move} {definitions : Fields} (h : Fresh moves definitions) :
    recordAll definitions moves =
      moves.map fun move => ⟨move.name, move.kind, move.propertyName, move.pointer, false⟩ := by
  induction moves generalizing definitions with
  | nil => rfl
  | cons move rest ih =>
    obtain ⟨here, later⟩ := h.head
    rw [recordAll, ih later, Move.record, here]
    rfl

theorem overwrote_of_fresh {moves : List Move} {definitions : Fields} (h : Fresh moves definitions) :
    ∀ record ∈ recordAll definitions moves, record.overwrote = false := by
  intro record made
  rw [recordAll_of_fresh h] at made
  obtain ⟨move, -, rfl⟩ := List.mem_map.1 made
  rfl

theorem gather_storeAll {α : Type} (each : Json → Multiset α) {moves : List Move} {definitions : Fields}
    (h : Fresh moves definitions) :
    gather each (storeAll moves definitions) =
      gather each definitions + (moves : Multiset Move).bind fun move => each move.fragment := by
  rw [storeAll_of_fresh h, gather_append, gather_entries]

theorem owed_storeAll {moves : List Move} {definitions : Fields} (h : Fresh moves definitions) :
    owed (storeAll moves definitions) = owed definitions + yields moves := gather_storeAll Json.yield h

def unfinished (definitions : Fields) : Nat := definitions.countP fun entry => entry.2.holdsNested

def unfinishedOf (moves : Multiset Move) : Nat := moves.countP fun move => move.fragment.holdsNested

theorem unfinished_storeAll {moves : List Move} {definitions : Fields} (h : Fresh moves definitions) :
    unfinished (storeAll moves definitions) = unfinished definitions + unfinishedOf moves := by
  rw [storeAll_of_fresh h]
  simp [unfinished, unfinishedOf, List.countP_append, List.countP_map, Function.comp_def, Move.entry]

theorem unfinished_set {name : Text} {old : Json} {definitions : Fields}
    (found : Entries.get? name definitions = some old) (pending : old.holdsNested) {new : Json}
    (done : new.holdsNested = false) :
    unfinished (Entries.set name new definitions) + 1 = unfinished definitions := by
  obtain ⟨before, after, rfl, stored⟩ := Entries.set_at found
  simp [stored, unfinished, List.countP_append, pending, done]
  omega

theorem has_flattened {name : Text} {node : Json} {definitions : Fields}
    (found : Entries.get? name definitions = some node) (other : Text) :
    Entries.has other (Entries.set name node.flattened definitions) = Entries.has other definitions := by
  apply Entries.has_congr
  simp [Entries.keys_set, Entries.has, found]

/-- A pass pays out the fragments of one definition, and owes what is left. -/
theorem owed_passed {name : Text} {node : Json} {definitions : Fields}
    (found : Entries.get? name definitions = some node) (pending : node.holdsNested)
    (h : Fresh node.moves definitions) :
    node.moves + owed (passed name node definitions) = owed definitions := by
  have settled : owed (Entries.set name node.flattened definitions) + node.yield =
    owed definitions + node.flattened.yield :=
    gather_set Json.yield found node.flattened
  have stored := owed_storeAll (h.congr (has_flattened found))
  rw [yield_flattened, yield_of_holdsNested pending, add_zero] at settled
  rw [passed, stored, ← settled]
  abel

theorem unfinished_passed {name : Text} {node : Json} {definitions : Fields}
    (found : Entries.get? name definitions = some node) (pending : node.holdsNested)
    (h : Fresh node.moves definitions) :
    unfinished (passed name node definitions) + 1 = unfinished definitions + unfinishedOf node.moves := by
  have settled := unfinished_set found pending (Json.holdsNested_flattened node)
  have stored := unfinished_storeAll (h.congr (has_flattened found))
  rw [passed, stored]
  omega

theorem Fresh.passed {name : Text} {node : Json} {definitions : Fields} {rest : Multiset Move}
    (found : Entries.get? name definitions = some node) (h : Fresh (node.moves + rest) definitions) :
    Fresh rest (passed name node definitions) :=
  (h.congr (has_flattened found)).storeAll

theorem Passes.pays {before after : Fields} {count : Nat} {moves : List Move}
    (run : Passes room before count moves after)
    (h : Fresh moves before) :
    moves + owed after = owed before ∧ count + unfinished after = unfinished before + unfinishedOf moves := by
  induction run with
  | done definitions => simp [unfinishedOf]
  | next found pending fits rest ih =>
    rw [← Multiset.coe_add] at h ⊢
    obtain ⟨paid, counted⟩ := ih (h.passed found)
    have here := h.of_le (Multiset.le_add_right _ _)
    have step := owed_passed found pending here
    have fewer := unfinished_passed found pending here
    rw [add_assoc, paid, step, unfinishedOf, Multiset.countP_add]
    simp only [unfinishedOf] at counted fewer
    exact ⟨rfl, by omega⟩

theorem yield_le_owed {name : Text} {node : Json} {definitions : Fields}
    (found : Entries.get? name definitions = some node) : node.yield ≤ owed definitions := by
  obtain ⟨before, after, rfl, -⟩ := Entries.set_at found
  rw [owed, ← Multiset.coe_add, Multiset.add_bind, ← Multiset.cons_coe, Multiset.cons_bind]
  exact (Multiset.le_add_right _ _).trans (Multiset.le_add_left _ _)

theorem moves_le_owed {name : Text} {node : Json} {definitions : Fields}
    (found : Entries.get? name definitions = some node) (pending : node.holdsNested) :
    node.moves ≤ owed definitions := by
  have whole := yield_le_owed found
  rw [yield_of_holdsNested pending] at whole
  exact (Multiset.le_add_right _ _).trans whole

/-- Where nothing that is owed takes a name twice, passes pay out of it and nothing else. -/
theorem Passes.pays_of_owed {before after : Fields} {count : Nat} {moves : List Move}
    (run : Passes room before count moves after) (h : Fresh (owed before) before) :
    moves + owed after = owed before := by
  induction run with
  | done definitions => simp
  | next found pending fits rest ih =>
    have step := owed_passed found pending (h.of_le (moves_le_owed found pending))
    rw [← step] at h
    rw [← Multiset.coe_add, add_assoc, ih (h.passed found), step]

theorem owed_of_settled {definitions : Fields} (settled : pending definitions = []) : owed definitions = 0 := by
  have none : ∀ entry ∈ (definitions : Multiset (Text × Json)), entry.2.yield = 0 := by
    intro entry member
    rw [yield_eq, holdsNested_of_pending_nil settled member, if_neg (by decide)]
  rw [owed, Multiset.bind_congr none, Multiset.bind_zero]

theorem unfinished_of_settled {definitions : Fields} (settled : pending definitions = []) :
    unfinished definitions = 0 := by
  rw [unfinished, List.countP_eq_zero]
  intro entry member
  rw [holdsNested_of_pending_nil settled member]
  decide

end Unnesting

def Json.allowance (root : Json) (start : Fields) : Multiset Move := root.moves + yields root.moves + owed start

namespace Unnesting

variable {room : Room}

theorem Run.Completes.fresh {run : Run} {root : Json} {start final : Fields} {later : List Move}
    (done : run.Completes room root start later final) (fresh : ∀ record ∈ run.made, record.overwrote = false) :
    Fresh (root.moves ++ later : List Move) start := by
  rw [done.made] at fresh
  obtain ⟨distinct, free⟩ := names_of_fresh fresh
  exact ⟨distinct, free⟩

/-- A run that takes no name twice moves all there is to move, in as many passes as there are definitions with
something to give away. -/
theorem Run.Completes.pays {run : Run} {root : Json} {start final : Fields} {later : List Move}
    (done : run.Completes room root start later final) (fresh : Fresh (root.moves ++ later : List Move) start) :
    (root.moves ++ later : List Move) = root.allowance start ∧
      run.passes = unfinished start + unfinishedOf (root.allowance start) := by
  rw [← Multiset.coe_add] at fresh ⊢
  have first := fresh.of_le (Multiset.le_add_right _ _)
  obtain ⟨paid, counted⟩ := done.passes.pays fresh.storeAll
  rw [owed_of_settled done.settled, add_zero, owed_storeAll first] at paid
  have whole : (root.moves : Multiset Move) + later = root.allowance start := by
    rw [paid, Json.allowance]
    abel
  rw [unfinished_of_settled done.settled, unfinished_storeAll first] at counted
  refine ⟨whole, ?_⟩
  rw [← whole, unfinishedOf, Multiset.countP_add]
  simp only [unfinishedOf] at counted
  omega

theorem Run.Completes.made_eq {run : Run} {root : Json} {start final : Fields} {later : List Move}
    (done : run.Completes room root start later final) (fresh : Fresh (root.moves ++ later : List Move) start) :
    (run.made : Multiset Extraction) =
      (root.allowance start).map fun move => ⟨move.name, move.kind, move.propertyName, move.pointer, false⟩ := by
  rw [← (done.pays fresh).1, done.made, recordAll_of_fresh fresh, Multiset.map_coe]

theorem allowance_eq_of_reached {root : Json} {start reached : Fields} {count : Nat} {moves : List Move}
    (fresh : Fresh (root.allowance start) start) (run : Passes room (storeAll root.moves start) count moves reached) :
    root.moves + (moves + owed reached) = root.allowance start := by
  have here : Fresh root.moves start := fresh.of_le (by
    rw [Json.allowance, add_assoc]
    exact Multiset.le_add_right _ _)
  have owing : root.moves + owed (storeAll root.moves start) = root.allowance start := by
    rw [owed_storeAll here, Json.allowance]
    abel
  rw [← owing] at fresh
  rw [run.pays_of_owed fresh.storeAll, owing]

/-- A run returns if each fragment it may come to can be moved. -/
theorem returns_of_allowance {root : Json} {start : Fields} (begins : root.definitions? = some start)
    (distinct : (Entries.keys start).Nodup) (fresh : Fresh (root.allowance start) start)
    (fits : ∀ move ∈ root.allowance start, move.fault? room = none) : (unnest room root).fault = none := by
  cases stops : (unnest room root).fault with
  | none => rfl
  | some fault =>
    -- the fragment that is to blame stands in the root, or in a definition that is still to be paid out
    rcases stops_unnest begins distinct stops with here | ⟨count, moves, reached, name, node, -, run, found,
      pending, reason⟩
    · obtain ⟨move, member, why⟩ := List.exists_of_findSome?_eq_some here
      have able := fits move (by simp [Json.allowance, member])
      rw [why] at able
      cases able
    · obtain ⟨move, member, why⟩ := List.exists_of_findSome?_eq_some reason
      have owing := Multiset.mem_of_le (moves_le_owed found pending) member
      have able := fits move (by
        rw [← allowance_eq_of_reached fresh run]
        simp [owing])
      rw [why] at able
      cases able

theorem Fresh.of_rel {moves others : Multiset Move} {start begun : Fields} (h : Fresh moves start)
    (alike : Multiset.Rel Move.Alike moves others) (starts : (Json.obj start).Reordered (Json.obj begun)) :
    Fresh others begun where
  distinct := by
    have names := Multiset.rel_map.2 (alike.mono fun _ _ _ _ alike => alike.name)
    rw [Multiset.rel_eq] at names
    exact names ▸ h.distinct
  free := by
    intro move member
    obtain ⟨old, partner, alike⟩ := Multiset.exists_mem_of_rel_of_mem (Multiset.rel_flip.2 alike) member
    rw [← starts.has, ← alike.name, h.free old partner]

theorem rel_yields {moves others : Multiset Move} (h : Multiset.Rel Move.Alike moves others) :
    Multiset.Rel Move.Alike (moves.bind fun move => move.fragment.yield)
      (others.bind fun move => move.fragment.yield) :=
  Multiset.rel_bind (fun _ _ alike => rel_yield alike.fragment) h

theorem rel_allowance {root other : Json} {start begun : Fields} (h : root.Reordered other)
    (starts : (Json.obj start).Reordered (Json.obj begun)) :
    Multiset.Rel Move.Alike (root.allowance start) (other.allowance begun) := by
  have owing : Multiset.Rel Move.Alike (owed start) (owed begun) :=
    Multiset.rel_bind (fun _ _ alike => rel_yield alike.2) starts.rel_members
  exact (h.rel_moves.add (rel_yields h.rel_moves)).add owing

theorem reordered_storeAll {moves others : List Move} {start begun : Fields}
    (starts : (Json.obj start).Reordered (Json.obj begun)) (alike : Multiset.Rel Move.Alike moves others)
    (distinct : (Entries.keys start).Nodup) (fresh : Fresh moves start) (other : Fresh others begun) :
    (Json.obj (storeAll moves start)).Reordered (Json.obj (storeAll others begun)) := by
  apply Json.reordered_of_rel (nodup_keys_storeAll moves distinct)
  rw [storeAll_of_fresh fresh, storeAll_of_fresh other, ← Multiset.coe_add, ← Multiset.coe_add]
  apply starts.rel_members.add
  rw [← Multiset.map_coe, ← Multiset.map_coe, Multiset.rel_map]
  exact alike.mono fun _ _ _ _ alike => ⟨alike.name, alike.fragment⟩

theorem reordered_finished {stored others left final : Fields}
    (alike : (Json.obj stored).Reordered (Json.obj others))
    (keys : Entries.keys left = Entries.keys stored) (named : Entries.keys final = Entries.keys others)
    (ends : ∀ name, Entries.get? name left = (Entries.get? name stored).map Json.finished)
    (closes : ∀ name, Entries.get? name final = (Entries.get? name others).map Json.finished) :
    (Json.obj left).Reordered (Json.obj final) := by
  cases alike with
  | leaf leaf => cases leaf
  | obj same distinct each =>
    apply Json.reordered_obj
    · rwa [keys, named]
    · rwa [keys]
    · intro name value other found there
      rw [ends] at found
      rw [closes] at there
      obtain ⟨node, held, rfl⟩ := Option.map_eq_some_iff.1 found
      obtain ⟨new, held', rfl⟩ := Option.map_eq_some_iff.1 there
      exact (each name node new (Entries.mem_of_get? held) (Entries.mem_of_get? held')).finished

/-- The runs differ in nothing but the order of keys and that of their records. -/
structure Run.Agrees (run other : Run) : Prop where
  returns : other.fault = none
  fresh : ∀ record ∈ other.made, record.overwrote = false
  passes : other.passes = run.passes
  made : run.made.Perm other.made
  root : run.root.Reordered other.root

theorem countP_eq_of_rel {α β : Type} {related : α → β → Prop} {test : α → Bool} {other : β → Bool}
    (each : ∀ a b, related a b → test a = other b) {left : Multiset α} {right : Multiset β}
    (h : Multiset.Rel related left right) : left.countP (test ·) = right.countP (other ·) := by
  induction h with
  | zero => rfl
  | cons here _ ih => rw [Multiset.countP_cons, Multiset.countP_cons, ih, each _ _ here]

theorem unfinished_eq {start begun : Fields} (starts : (Json.obj start).Reordered (Json.obj begun)) :
    unfinished start = unfinished begun := by
  have each : ∀ entry new : Text × Json, entry.1 = new.1 ∧ entry.2.Reordered new.2 →
      entry.2.holdsNested = new.2.holdsNested := fun _ _ alike => alike.2.holdsNested
  simpa [unfinished] using countP_eq_of_rel each starts.rel_members

theorem unfinishedOf_eq {moves others : Multiset Move} (alike : Multiset.Rel Move.Alike moves others) :
    unfinishedOf moves = unfinishedOf others :=
  countP_eq_of_rel (fun _ _ alike => alike.fragment.holdsNested) alike

theorem Run.Completes.fresh_of_allowance {run : Run} {root : Json} {start final : Fields} {later : List Move}
    (done : run.Completes room root start later final) (free : Fresh (root.allowance start) start) :
    Fresh (root.moves ++ later : List Move) start := by
  have reached := allowance_eq_of_reached free done.passes
  rw [owed_of_settled done.settled, add_zero, Multiset.coe_add] at reached
  rwa [reached]

theorem unnest_order_free {root other : Json} {start : Fields} (alike : root.Reordered other)
    (begins : root.definitions? = some start) (returns : (unnest room root).fault = none)
    (fresh : ∀ record ∈ (unnest room root).made, record.overwrote = false) :
    (unnest room root).Agrees (unnest room other) := by
  obtain ⟨begun, begins', starts⟩ := alike.definitions? begins
  obtain ⟨later, final, done⟩ := completes_unnest begins starts.distinct returns
  have paid := done.fresh fresh
  obtain ⟨whole, passes⟩ := done.pays paid
  have owing := rel_allowance alike starts
  -- what is moved in the one order can be moved in the other, and takes no name twice there either
  have free : Fresh (other.allowance begun) begun := (whole ▸ paid).of_rel owing starts
  have fits : ∀ move ∈ other.allowance begun, move.fault? room = none := by
    intro move member
    obtain ⟨old, partner, like⟩ := Multiset.exists_mem_of_rel_of_mem (Multiset.rel_flip.2 owing) member
    rw [← like.fault?]
    rcases List.mem_append.1 (whole ▸ partner) with first | rest
    · exact List.findSome?_eq_none_iff.1 done.fits old first
    · exact List.findSome?_eq_none_iff.1 done.passes.fits old rest
  have returns' := returns_of_allowance begins' starts.symm.distinct free fits
  obtain ⟨more, left, ends⟩ := completes_unnest begins' starts.symm.distinct returns'
  have paid' := ends.fresh_of_allowance free
  obtain ⟨whole', passes'⟩ := ends.pays paid'
  refine ⟨returns', ?_, ?_, ?_, ?_⟩
  · rw [ends.made]
    exact overwrote_of_fresh paid'
  · rw [passes, passes', unfinished_eq starts, unfinishedOf_eq owing]
  · rw [← Multiset.coe_eq_coe, done.made_eq paid, ends.made_eq paid', ← Multiset.rel_eq, Multiset.rel_map]
    apply owing.mono
    intro move _ new _ alike
    rw [Move.pointer, Move.pointer, alike.name, alike.kind, alike.propertyName]
  · have logs : Multiset.Rel Move.Alike (root.moves ++ later : List Move) (other.moves ++ more : List Move) := by
      rw [whole, whole']
      exact owing
    rw [done.root, ends.root]
    apply alike.flattened.set
    exact reordered_finished (reordered_storeAll starts logs starts.distinct paid paid') done.keys ends.keys
      ((done.tracks begins).get?_of_settled done.settled) ((ends.tracks begins').get?_of_settled ends.settled)

def twoPendingDefinitions : Fields :=
  [("d", .obj [("properties", .obj
      [("y", .obj [("properties", .obj []), ("title", .str "Y")]), ("z", .obj [("items", .obj [])])])]),
    ("k", .obj [("type", .str "string"), ("title", .str "K")])]

def twoPendingRoot : Json :=
  .obj [("properties", .obj
      [("a", .obj [("properties", .obj [("b", .obj [("properties", .obj [])])]), ("title", .str "A")]),
        ("c", .obj [("items", .obj [("properties", .obj [])]), ("minItems", .int 1)])]),
    ("definitions", .obj twoPendingDefinitions)]

def turnedRoot : Json :=
  .obj [("definitions", .obj
      [("k", .obj [("title", .str "K"), ("type", .str "string")]),
        ("d", .obj [("properties", .obj
          [("z", .obj [("items", .obj [])]), ("y", .obj [("title", .str "Y"), ("properties", .obj [])])])])]),
    ("properties", .obj
      [("c", .obj [("minItems", .int 1), ("items", .obj [("properties", .obj [])])]),
        ("a", .obj [("title", .str "A"), ("properties", .obj [("b", .obj [("properties", .obj [])])])])])]

theorem unnest_order_free_turnedRoot :
    twoPendingRoot.Reordered turnedRoot ∧ twoPendingRoot.definitions? = some twoPendingDefinitions ∧
      (unnest (.ofDepth 100) twoPendingRoot).fault = none ∧
      (∀ record ∈ (unnest (.ofDepth 100) twoPendingRoot).made, record.overwrote = false) ∧
      (unnest (.ofDepth 100) twoPendingRoot).Agrees (unnest (.ofDepth 100) turnedRoot) :=
  ⟨by decide +kernel, by decide, by decide +kernel, by decide +kernel,
    unnest_order_free (by decide +kernel) (show twoPendingRoot.definitions? = some twoPendingDefinitions by decide)
      (by decide +kernel) (by decide +kernel)⟩

end Unnesting
end SchemaUnnest
