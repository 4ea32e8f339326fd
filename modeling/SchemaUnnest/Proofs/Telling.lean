import Mathlib.Data.List.Forall2
import SchemaUnnest.Proofs.Warnings

namespace SchemaUnnest.Unnesting

variable {room : Room}

def movedLine (record : Extraction) : LogLine := ⟨.info, "Externalized key: " ++ record.propertyName⟩

def takenLine (record : Extraction) : LogLine :=
  ⟨.warning, "Definition '" ++ record.name ++ "' already exists and is replaced"⟩

def missingLine : LogLine := ⟨.warning, "root node has no 'definitions' node, creating an empty 'definitions' node"⟩

def passLine (number : Nat) (definitions : Fields) : LogLine :=
  ⟨.debug, "Pass " ++ Text.ofNat number ++ ": " ++ Text.ofNat (pending definitions).length ++
    " definitions pending, processing '" ++ (pending definitions).headD [] ++ "'"⟩

def IsPassLine (line : LogLine) : Prop := line.level = .debug ∧ (Text.dropStart? "Pass " line.text).isSome

def linesAt (level : Level) (log : Log) : Log := log.filter (·.level = level)

theorem linesAt_append (level : Level) (first second : Log) :
    linesAt level (first ++ second) = linesAt level first ++ linesAt level second :=
  List.filter_append first second

structure Narrates (log : Log) (made : List Extraction) : Prop where
  moved : linesAt .info log = made.map movedLine
  taken : linesAt .warning log = (made.filter (·.overwrote)).map takenLine
  quiet : ∀ line ∈ log, ¬ IsPassLine line

namespace Narrates

variable {log more : Log} {made others : List Extraction}

theorem nil : Narrates [] [] := by
  refine ⟨rfl, rfl, ?_⟩
  intro line member
  cases member

theorem append (first : Narrates log made) (second : Narrates more others) :
    Narrates (log ++ more) (made ++ others) := by
  constructor
  · rw [linesAt_append, first.moved, second.moved, List.map_append]
  · rw [linesAt_append, first.taken, second.taken, List.filter_append, List.map_append]
  · intro line member
    rcases List.mem_append.1 member with before | after
    · exact first.quiet line before
    · exact second.quiet line after

theorem exists_moved (told : Narrates log made) (some : made ≠ []) :
    ∃ key, ⟨.info, "Externalized key: " ++ key⟩ ∈ log := by
  obtain ⟨record, member⟩ := List.exists_mem_of_ne_nil _ some
  have line : movedLine record ∈ linesAt .info log := by
    rw [told.moved]
    exact List.mem_map_of_mem member
  exact ⟨record.propertyName, (List.mem_filter.1 line).1⟩

end Narrates

theorem narrates_checking (key : Text) : Narrates [(Event.checking key).line] [] := by
  refine ⟨rfl, rfl, ?_⟩
  intro line member
  cases List.mem_singleton.1 member
  rintro ⟨-, begins⟩
  cases begins

theorem narrates_record (definitions : Fields) (move : Move) :
    Narrates ((collision definitions move.name).map Event.line ++ [(Event.extracted move.propertyName).line])
      [move.record definitions] := by
  unfold collision
  cases held : Entries.has move.name definitions with
  | true =>
    constructor
    · rfl
    · simp [linesAt, Event.line, Move.record, held, takenLine]
    · intro line member
      simp only [if_true, List.map_cons, List.map_nil, List.cons_append, List.nil_append, List.mem_cons,
        List.not_mem_nil, or_false] at member
      rcases member with rfl | rfl
      · rintro ⟨level, -⟩
        cases level
      · rintro ⟨level, -⟩
        cases level
  | false =>
    constructor
    · rfl
    · simp [linesAt, Event.line, Move.record, held]
    · intro line member
      cases List.mem_singleton.1 member
      rintro ⟨level, -⟩
      cases level

theorem narrates_walk (kind : FragmentKind) (definitions : Fields) {properties : Fields}
    (fits : (walk room kind definitions properties).fault = none) :
    Narrates ((walk room kind definitions properties).events.map Event.line)
      (walk room kind definitions properties).made := by
  induction properties generalizing definitions with
  | nil => exact .nil
  | cons entry rest ih =>
    obtain ⟨key, value⟩ := entry
    cases found : fragmentAt? kind key value with
    | none =>
      rw [walk_of_none found] at fits ⊢
      exact (narrates_checking key).append (ih definitions fits)
    | some move =>
      cases stops : move.fault? room with
      | some fault =>
        rw [walk_of_fault found stops] at fits
        cases fits
      | none =>
        rw [walk_of_fits found stops] at fits ⊢
        have own := narrates_record definitions move
        have mine : move.propertyName = key := congrArg Move.propertyName (eq_of_fragmentAt? found)
        rw [mine] at own
        have whole := ((narrates_checking key).append own).append (ih _ fits)
        simpa [Walk.move] using whole

theorem narrates_moveAll (definitions : Fields) {properties : Fields}
    (fits : (moveAll room definitions properties).fault = none) :
    Narrates ((moveAll room definitions properties).events.map Event.line)
      (moveAll room definitions properties).made := by
  unfold moveAll at fits ⊢
  cases first : (walk room .object definitions properties).fault with
  | some fault => simp [first] at fits
  | none =>
    simp only [first] at fits ⊢
    cases second : (walk room .arrayItem (walk room .object definitions properties).definitions
        (walk room .object definitions properties).properties).fault with
    | some fault => simp [Walk.andThen, second] at fits
    | none =>
      have both := (narrates_walk .object definitions first).append (narrates_walk .arrayItem _ second)
      rw [← List.map_append] at both
      simpa only [Walk.andThen, second, Option.isSome_none, Bool.false_eq_true, if_false] using both

theorem narrates_replaceNested (definitions : Fields) {node : Json}
    (fits : (replaceNested room definitions node).fault = none) :
    Narrates ((replaceNested room definitions node).events.map Event.line)
      (replaceNested room definitions node).made := by
  unfold replaceNested at fits ⊢
  cases held : node.properties? with
  | none => exact .nil
  | some properties =>
    simp only [held] at fits
    exact narrates_moveAll definitions fits

theorem narrates_flattenEntry {definitions : Fields} {name : Text}
    (fits : (flattenEntry room definitions name).fault = none) :
    Narrates ((flattenEntry room definitions name).events.map Event.line)
      (flattenEntry room definitions name).made := by
  unfold flattenEntry at fits ⊢
  dsimp only at fits ⊢
  split at fits
  · rename_i mine
    rw [if_pos mine]
    exact narrates_replaceNested definitions fits
  · rename_i other
    rw [if_neg other]
    exact narrates_replaceNested definitions fits

def nextDefinitions (room : Room) (definitions : Fields) : Fields :=
  match pending definitions with
  | [] => definitions
  | name :: _ => (flattenEntry room definitions name).definitions

def stage (room : Room) (definitions : Fields) : Nat → Fields
  | 0 => definitions
  | passes + 1 => stage room (nextDefinitions room definitions) passes

/-- The log of passes over these definitions, so many others having been made before. Each says what it finds, and then
comes its body. -/
def passLog (room : Room) (passes : Nat) (definitions : Fields) (bodies : List Log) : Log :=
  (bodies.mapIdx fun place body => passLine (passes + place + 1) (stage room definitions place) :: body).flatten

theorem passLog_cons (passes : Nat) (definitions : Fields) (body : Log) (bodies : List Log) :
    passLog room passes definitions (body :: bodies) =
      passLine (passes + 1) definitions :: body ++ passLog room (passes + 1)
        (nextDefinitions room definitions) bodies := by
  have shifted : ∀ place, passes + (place + 1) + 1 = passes + 1 + place + 1 := by omega
  simp only [passLog, List.mapIdx_cons, List.flatten_cons, stage, shifted, Nat.add_zero]

theorem linesAt_passLog {level : Level} (other : level ≠ .debug) (passes : Nat) (definitions : Fields)
    (bodies : List Log) :
    linesAt level (passLog room passes definitions bodies) = linesAt level bodies.flatten := by
  induction bodies generalizing passes definitions with
  | nil => rfl
  | cons body rest ih =>
    have here : linesAt level (passLine (passes + 1) definitions :: body) = linesAt level body :=
      List.filter_cons_of_neg (by simpa [passLine] using other.symm)
    rw [passLog_cons, linesAt_append, here, ih, List.flatten_cons, linesAt_append]

structure Sweep.Tells (room : Room) (done : Sweep) (before : Nat) (start : Fields) (bodies : List Log)
    (moved : List (List Extraction)) : Prop where
  log : done.events.map Event.line = passLog room before start bodies
  passes : done.passes = before + bodies.length
  definitions : done.definitions = stage room start bodies.length
  settled : Unnesting.pending done.definitions = []
  pending : ∀ place < bodies.length, ∃ name node more, Unnesting.pending (stage room start place) = name :: more ∧
    Entries.get? name (stage room start place) = .some node ∧ node.holdsNested
  made : done.made = moved.flatten
  bodies : List.Forall₂ Narrates bodies moved
  some : ∀ made ∈ moved, made ≠ []

theorem tells_sweep {passes : Nat} {definitions : Fields} (distinct : (Entries.keys definitions).Nodup)
    (returns : (sweep room passes definitions).fault = none) :
    ∃ bodies moved, (sweep room passes definitions).Tells room passes definitions bodies moved := by
  -- along the passes; a definition that is taken holds nested objects, so its pass has something to tell
  fun_induction sweep with
  | case1 passes definitions none =>
    refine ⟨[], [], rfl, rfl, rfl, none, ?_, rfl, .nil, ?_⟩
    · intro place inside
      cases inside
    · intro made member
      cases member
  | case2 passes definitions name more heads held step events fault stops => cases returns
  | case3 passes definitions name more heads held step events fits next ih =>
    obtain ⟨node, found, unfinished⟩ := isPending_iff.1 held
    have after : step.definitions = passed name node definitions := definitions_flattenEntry found fits
    have moves : step.made = recordAll definitions node.moves := made_flattenEntry found fits
    have some : step.made ≠ [] := by
      rw [moves, ← List.length_pos_iff, length_recordAll, List.length_pos_iff]
      exact Json.moves_ne_nil unfinished
    have following : nextDefinitions room definitions = step.definitions := by simp [nextDefinitions, heads, step]
    obtain ⟨bodies, moved, later⟩ := ih (after ▸ nodup_keys_passed distinct) returns
    refine ⟨step.events.map Event.line :: bodies, step.made :: moved, ?_, ?_, ?_, later.settled, ?_, ?_, ?_, ?_⟩
    · have said : (Event.pass (passes + 1) (more.length + 1) name).line = passLine (passes + 1) definitions := by
        simp [Event.line, passLine, heads]
      rw [passLog_cons, following, ← later.log, ← said]
      exact List.map_append
    · rw [List.length_cons, ← Nat.add_assoc, Nat.add_right_comm]
      exact later.passes
    · rw [List.length_cons, stage, following]
      exact later.definitions
    · intro place inside
      cases place with
      | zero => exact ⟨name, node, more, heads, found, unfinished⟩
      | succ place =>
        rw [stage, following]
        exact later.pending place (Nat.lt_of_succ_lt_succ inside)
    · exact congrArg (step.made ++ ·) later.made
    · exact .cons (narrates_flattenEntry fits) later.bodies
    · exact List.forall_mem_cons.2 ⟨some, later.some⟩
  | case4 passes definitions name more heads absent =>
    exact absurd (isPending_of_mem_pending distinct (heads ▸ List.mem_cons_self)) absent

theorem Sweep.Tells.narrates {done : Sweep} {before : Nat} {start : Fields} {bodies : List Log}
    {moved : List (List Extraction)} (told : done.Tells room before start bodies moved) :
    Narrates bodies.flatten done.made := by
  have each := told.bodies
  rw [told.made]
  clear told
  induction each with
  | nil => exact .nil
  | cons here _ ih => exact here.append ih

def Run.log (run : Run) : Log := run.events.map Event.line

/-- The log of a run tells its account, and how each of its passes finds the definitions; these are the definitions when
the passes begin. -/
structure Run.Tells (room : Room) (run : Run) (first : Fields) : Prop where
  moved : linesAt .info run.log = run.made.map movedLine
  taken : linesAt .warning run.log =
    (if run.definitionsCreated then [missingLine] else []) ++ (run.made.filter (·.overwrote)).map takenLine
  passes : ∃ opening bodies, run.log = opening ++ passLog room 0 first bodies ∧ bodies.length = run.passes ∧
    (∀ part ∈ opening :: bodies, ∀ line ∈ part, ¬ IsPassLine line) ∧
    ∀ body ∈ bodies, ∃ key, ⟨.info, "Externalized key: " ++ key⟩ ∈ body
  pending : ∀ place < run.passes, ∃ name node more, Unnesting.pending (stage room first place) = name :: more ∧
    Entries.get? name (stage room first place) = some node ∧ node.holdsNested
  settled : Unnesting.pending (stage room first run.passes) = []
  definitions : run.root.get? Keyword.definitions = some (.obj (stage room first run.passes))

section Run

variable {run : Run} {done : Sweep} {first : Fields} {opening : Log} {made : List Extraction} {bodies : List Log}
  {moved : List (List Extraction)}

theorem Sweep.Tells.exists_moved (told : done.Tells room 0 first bodies moved) :
    ∀ body ∈ bodies, ∃ key, ⟨.info, "Externalized key: " ++ key⟩ ∈ body := by
  have each := told.bodies
  have some := told.some
  clear told
  induction each with
  | nil => simp
  | cons here _ ih =>
    obtain ⟨one, others⟩ := List.forall_mem_cons.1 some
    exact List.forall_mem_cons.2 ⟨here.exists_moved one, ih others⟩

theorem tells_of_sweep {missing : Log} (created : missing = if run.definitionsCreated then [missingLine] else [])
    (told : Narrates opening made) (swept : done.Tells room 0 first bodies moved)
    (log : run.log = missing ++ (opening ++ done.events.map Event.line)) (account : run.made = made ++ done.made)
    (passes : run.passes = done.passes)
    (definitions : run.root.get? Keyword.definitions = some (.obj done.definitions)) : run.Tells room first := by
  have count : run.passes = bodies.length := by rw [passes, swept.passes, Nat.zero_add]
  have whole := told.append swept.narrates
  have quiet : ∀ line ∈ missing, line.level = .warning := by
    intro line member
    rw [created] at member
    split at member
    · rw [List.mem_singleton.1 member]
      rfl
    · cases member
  constructor
  · have none : linesAt .info missing = [] := by
      apply List.filter_eq_nil_iff.2
      intro line member
      simp [quiet line member]
    rw [log, swept.log, linesAt_append, none, linesAt_append, linesAt_passLog (by decide), ← linesAt_append, account]
    exact whole.moved
  · have all : linesAt .warning missing = missing := by
      apply List.filter_eq_self.2
      intro line member
      simp [quiet line member]
    rw [log, swept.log, linesAt_append, all, linesAt_append, linesAt_passLog (by decide), ← linesAt_append, account,
      whole.taken, created]
  · refine ⟨missing ++ opening, bodies, ?_, count.symm, ?_, swept.exists_moved⟩
    · rw [log, swept.log, List.append_assoc]
    · intro part member line inside
      rcases List.mem_cons.1 member with rfl | body
      · rcases List.mem_append.1 inside with here | there
        · rintro ⟨level, -⟩
          rw [quiet line here] at level
          cases level
        · exact told.quiet line there
      · exact swept.narrates.quiet line (List.mem_flatten.2 ⟨part, body, inside⟩)
  · rw [count]
    exact swept.pending
  · rw [count, ← swept.definitions]
    exact swept.settled
  · rw [definitions, swept.definitions, count]

end Run

theorem unnestWith_of_fits {root : Json} {start : Fields} (fits : (replaceNested room start root).fault = none) :
    unnestWith room root start =
      { root := (replaceNested room start root).node.set Keyword.definitions
          (.obj (sweep room 0 (replaceNested room start root).definitions).definitions)
        made := (replaceNested room start root).made ++ (sweep room 0 (replaceNested room start root).definitions).made
        passes := (sweep room 0 (replaceNested room start root).definitions).passes
        definitionsCreated := false
        events := (replaceNested room start root).events ++
          (sweep room 0 (replaceNested room start root).definitions).events
        fault := (sweep room 0 (replaceNested room start root).definitions).fault } := by
  simp only [unnestWith, fits]

/-- What is logged before the passes is missing definitions, or nothing, and the work on the root. -/
theorem tells_of_unnestWith (missing : List Event) {run : Run} {root : Json} {start : Fields} (object : root.isObject)
    (distinct : (Entries.keys start).Nodup) (returns : (unnestWith room root start).fault = none)
    (created : missing.map Event.line = if run.definitionsCreated then [missingLine] else [])
    (events : run.events = missing ++ (unnestWith room root start).events)
    (made : run.made = (unnestWith room root start).made)
    (passes : run.passes = (unnestWith room root start).passes) (after : run.root = (unnestWith room root start).root) :
    run.Tells room (storeAll root.moves start) := by
  cases fits : (replaceNested room start root).fault with
  | some fault => simp [unnestWith, fits] at returns
  | none =>
    have performed := performs_replaceNested start fits
    rw [unnestWith_of_fits fits, performed.definitions] at returns events made passes after
    have names : (Entries.keys (storeAll root.moves start)).Nodup := nodup_keys_storeAll _ distinct
    have left : (replaceNested room start root).node.isObject := by
      rw [performed.node, Json.isObject_flattened]
      exact object
    obtain ⟨bodies, moved, swept⟩ := tells_sweep names returns
    refine tells_of_sweep created (narrates_replaceNested start fits) swept ?_ made passes ?_
    · rw [Run.log, events, List.map_append, List.map_append]
    · rw [after, Json.get?_set left, if_pos rfl]

theorem log_tells_account {root : Json} {start : Fields} (object : root.isObject)
    (begins : root.definitions? = some start)
    (distinct : (Entries.keys start).Nodup) (returns : (unnest room root).fault = none) :
    (unnest room root).Tells room (replaceNested room start root).definitions := by
  have first : (replaceNested room start root).definitions = storeAll root.moves start := by
    obtain ⟨later, final, done⟩ := completes_unnest begins distinct returns
    exact (performs_replaceNested start ((fault_replaceNested start root).trans done.fits)).definitions
  rw [first]
  unfold Json.definitions? at begins
  split at begins
  · rename_i absent
    cases begins
    rw [← moves_set_definitions root (.obj [])]
    unfold unnest at returns ⊢
    simp only [absent] at returns ⊢
    exact tells_of_unnestWith [.noDefinitions] ((Json.isObject_set _ _ _).trans object) distinct returns
      rfl rfl rfl rfl rfl
  · rename_i found
    cases begins
    unfold unnest at returns ⊢
    simp only [found] at returns ⊢
    refine tells_of_unnestWith [] object distinct returns ?_ rfl rfl rfl rfl
    rw [definitionsCreated_unnestWith]
    rfl
  · cases begins

def chattyRoot : Json :=
  .obj [("properties", .obj [("a", .obj [("properties", .obj
    [("a", .obj [("properties", .obj [])]), ("b", .obj [("items", .obj [("properties", .obj [])])])])])])]

theorem log_tells_account_chattyRoot :
    chattyRoot.isObject ∧ chattyRoot.definitions? = some [] ∧ (Entries.keys ([] : Fields)).Nodup ∧
      (unnest (.ofDepth 100) chattyRoot).fault = none ∧ (unnest (.ofDepth 100) chattyRoot).Tells (.ofDepth 100)
      (replaceNested (.ofDepth 100) [] chattyRoot).definitions :=
  ⟨by decide, by decide, by decide, by decide +kernel,
    log_tells_account (by decide) (by decide) (by decide) (by decide +kernel)⟩

end SchemaUnnest.Unnesting
