import SchemaUnnest.Proofs.Metering

namespace SchemaUnnest.Meter

inductive Call where
  | start (name : Text) (inputSize : Int) (reading : Reading)
  | sample (reading : Reading)
  | stop (outputSize definitionsCreated : Int) (reading : Reading)
deriving DecidableEq

namespace Call

def after (p : Meter) : Call → Meter
  | .start name inputSize reading => (p.start name inputSize reading).after
  | .sample reading => (p.sample reading).after
  | .stop outputSize definitionsCreated reading => (p.stop outputSize definitionsCreated reading).after

def returns (p : Meter) : Call → Bool
  | .start name inputSize reading => (p.start name inputSize reading).result.toBool
  | .sample reading => (p.sample reading).result.toBool
  | .stop outputSize definitionsCreated reading => (p.stop outputSize definitionsCreated reading).result.toBool

end Call

def afterAll (p : Meter) (calls : List Call) : Meter := calls.foldl Call.after p

mutual

/-- The calls an action makes. Those of a block are its start, what is done in it if it is entered, and a stop if a
session is open when it is left. -/
def callsOf (p : Meter) : Action → List Call
  | .start name inputSize reading => [.start name inputSize reading]
  | .sample reading => [.sample reading]
  | .stop outputSize definitionsCreated reading => [.stop outputSize definitionsCreated reading]
  | .summary => []
  | .block name inputSize entry body exit _ =>
    let opened := p.start name inputSize entry
    .start name inputSize entry ::
      match opened.result with
      | .error _ => []
      | .ok () =>
        let inner := callsOfAll opened.after body
        inner ++ if (afterAll opened.after inner).isOpen then [.stop 0 0 exit] else []

def callsOfAll (p : Meter) : List Action → List Call
  | [] => []
  | action :: rest =>
    let calls := callsOf p action
    calls ++ callsOfAll (afterAll p calls) rest

end

mutual

def Outcome.within : Outcome → List Outcome
  | .left body escape entryLog exitLog p => withinAll body ++ [.left body escape entryLog exitLog p]
  | outcome => [outcome]

def Outcome.withinAll : List Outcome → List Outcome
  | [] => []
  | outcome :: rest => outcome.within ++ withinAll rest

end

theorem afterAll_append (p : Meter) (first second : List Call) :
    afterAll p (first ++ second) = afterAll (afterAll p first) second := List.foldl_append

theorem afterAll_leave (p : Meter) (exit : Reading) :
    (p.leave exit).after = afterAll p (if p.isOpen then [.stop 0 0 exit] else []) := by
  unfold leave
  split
  · rfl
  · rfl

mutual

theorem after_perform (p : Meter) (action : Action) : (perform p action).after = afterAll p (callsOf p action) := by
  cases action with
  | start name inputSize reading => simp only [perform, callsOf]; rfl
  | sample reading => simp only [perform, callsOf]; rfl
  | stop outputSize definitionsCreated reading => simp only [perform, callsOf]; rfl
  | summary => simp only [perform, callsOf]; rfl
  | block name inputSize entry body exit raised =>
    cases opened : (p.start name inputSize entry).result with
    | error fault =>
      simp only [perform, callsOf, opened]
      rfl
    | ok done =>
      have inner := after_performAll (p.start name inputSize entry).after body
      simp only [perform, callsOf, opened]
      rw [Outcome.after, afterAll_leave, inner, ← afterAll_append]
      rfl

theorem after_performAll (p : Meter) (actions : List Action) :
    (performAll p actions).2 = afterAll p (callsOfAll p actions) := by
  cases actions with
  | nil => simp only [performAll, callsOfAll]; rfl
  | cons action rest =>
    simp only [performAll, callsOfAll]
    rw [after_performAll, after_perform, afterAll_append]

end

mutual

/-- Every state that an action shows, also from inside a block, is one that its calls come through. -/
theorem reached_within (p : Meter) (action : Action) {outcome : Outcome}
    (member : outcome ∈ (perform p action).within) :
    ∃ calls, calls <+: callsOf p action ∧ outcome.after = afterAll p calls := by
  have whole : outcome = perform p action → ∃ calls, calls <+: callsOf p action ∧ outcome.after = afterAll p calls := by
    rintro rfl
    exact ⟨_, List.prefix_rfl, after_perform p action⟩
  cases action with
  | start | sample | stop | summary =>
    simp only [perform, Outcome.within, List.mem_singleton] at member
    exact whole (by simpa only [perform])
  | block name inputSize entry body exit raised =>
    cases opened : (p.start name inputSize entry).result with
    | error fault =>
      simp only [perform, opened, Outcome.within, Outcome.withinAll, List.nil_append, List.mem_singleton] at member
      exact whole (by simpa only [perform, opened])
    | ok done =>
      simp only [perform, opened, Outcome.within, List.mem_append, List.mem_singleton] at member
      rcases member with inside | itself
      · obtain ⟨calls, part, same⟩ := reached_withinAll (p.start name inputSize entry).after body inside
        refine ⟨.start name inputSize entry :: calls, ?_, same⟩
        simp only [callsOf, opened, List.prefix_cons_inj]
        exact part.trans (List.prefix_append _ _)
      · exact whole (by simpa only [perform, opened])

theorem reached_withinAll (p : Meter) (actions : List Action) {outcome : Outcome}
    (member : outcome ∈ Outcome.withinAll (performAll p actions).1) :
    ∃ calls, calls <+: callsOfAll p actions ∧ outcome.after = afterAll p calls := by
  cases actions with
  | nil => simp [performAll, Outcome.withinAll] at member
  | cons action rest =>
    simp only [performAll, Outcome.withinAll, List.mem_append] at member
    simp only [callsOfAll]
    rcases member with here | later
    · obtain ⟨calls, part, same⟩ := reached_within p action here
      exact ⟨calls, part.trans (List.prefix_append _ _), same⟩
    · rw [after_perform] at later
      obtain ⟨calls, part, same⟩ := reached_withinAll (afterAll p (callsOf p action)) rest later
      refine ⟨callsOf p action ++ calls, (List.prefix_append_right_inj _).2 part, ?_⟩
      rw [same, afterAll_append]

end

structure Opening where
  name : Text
  reading : Reading
deriving DecidableEq

def noted (openings : List Opening) : Call × Bool → List Opening
  | (.start name _ reading, _) => openings ++ [⟨name, reading⟩]
  | (.stop _ _ _, true) => []
  | _ => openings

def answers (p : Meter) : List Call → List (Call × Bool)
  | [] => []
  | call :: rest => (call, call.returns p) :: answers (call.after p) rest

def standing (calls : List Call) : List Opening := (answers .fresh calls).foldl noted []

/-- The session as these starts leave it: the last of them gives it name and time, and the last that could read
memory its memory. -/
structure OpenedBy (p : Meter) (openings : List Opening) : Prop where
  operation : p.operation = openings.getLast?.map Opening.name
  startTime : p.startTime = openings.getLast?.map (·.reading.now)
  startMemory : p.startMemory = (openings.filterMap (·.reading.memory)).getLast?

section OpenedBy

variable {p : Meter} {openings : List Opening}

theorem OpenedBy.start (h : p.OpenedBy openings) (name : Text) (inputSize : Int) (reading : Reading) :
    (p.start name inputSize reading).after.OpenedBy (openings ++ [⟨name, reading⟩]) := by
  cases memory : reading.memory with
  | none => constructor <;> simp [Meter.start, memory, h.startMemory]
  | some used => constructor <;> simp [Meter.start, memory]

theorem OpenedBy.sample (h : p.OpenedBy openings) (reading : Reading) : (p.sample reading).after.OpenedBy openings := by
  obtain ⟨peak, same⟩ := p.after_sample reading
  rw [same]
  exact ⟨h.operation, h.startTime, h.startMemory⟩

theorem after_stop_of_error {fault : MeterFault} {outputSize definitionsCreated : Int} {reading : Reading}
    (failed : (p.stop outputSize definitionsCreated reading).result = .error fault) :
    (p.stop outputSize definitionsCreated reading).after = p := by
  unfold Meter.stop at failed ⊢
  cases session : p.session? with
  | none => rfl
  | some found =>
    cases memory : reading.memory.or p.startMemory with
    | none => rfl
    | some used => simp [session, memory] at failed

theorem OpenedBy.call (h : p.OpenedBy openings) (call : Call) :
    (call.after p).OpenedBy (noted openings (call, call.returns p)) := by
  cases call with
  | start name inputSize reading => exact h.start name inputSize reading
  | sample reading => exact h.sample reading
  | stop outputSize definitionsCreated reading =>
    cases result : (p.stop outputSize definitionsCreated reading).result with
    | ok metrics =>
      have idle := (ended_stop result).2.idle
      simp only [Call.after, Call.returns, result, Except.toBool, noted]
      exact ⟨idle.operation, idle.startTime, idle.startMemory⟩
    | error fault =>
      simp only [Call.after, Call.returns, result, Except.toBool, noted, after_stop_of_error result]
      exact h

theorem OpenedBy.afterAll (h : p.OpenedBy openings) (calls : List Call) :
    (afterAll p calls).OpenedBy ((answers p calls).foldl noted openings) := by
  induction calls generalizing p openings with
  | nil => exact h
  | cons call rest ih => exact ih (h.call call)

end OpenedBy

theorem openedBy_standing (calls : List Call) : (afterAll .fresh calls).OpenedBy (standing calls) :=
  OpenedBy.afterAll ⟨rfl, rfl, rfl⟩ calls

/-- What holds of a session with these starts since a stop returned. It has a name if and only if it has a start time;
it has these two and no memory if and only if there are such starts and none of them could read any. A start that fails
on it could not read memory, and has set the name, the time and the input size. -/
structure Session (p : Meter) (openings : List Opening) : Prop where
  openedBy : p.OpenedBy openings
  timed : p.operation = none ↔ p.startTime = none
  closed : p.operation = none → p.startMemory = none
  halfOpen : p.operation ≠ none ∧ p.startMemory = none ↔
    openings ≠ [] ∧ ∀ opening ∈ openings, opening.reading.memory = none
  failed : ∀ name inputSize reading fault, (p.start name inputSize reading).result = .error fault →
    reading.memory = none ∧ (p.start name inputSize reading).after =
      { p with operation := some name, startTime := some reading.now, inputSize := inputSize }

theorem OpenedBy.session {p : Meter} {openings : List Opening} (h : p.OpenedBy openings) : p.Session openings := by
  have named : p.operation = none ↔ openings = [] := by
    rw [h.operation, Option.map_eq_none_iff, List.getLast?_eq_none_iff]
  have timed : p.startTime = none ↔ openings = [] := by
    rw [h.startTime, Option.map_eq_none_iff, List.getLast?_eq_none_iff]
  have measured : p.startMemory = none ↔ ∀ opening ∈ openings, opening.reading.memory = none := by
    rw [h.startMemory, List.getLast?_eq_none_iff, List.filterMap_eq_nil_iff]
  refine ⟨h, named.trans timed.symm, ?_, ?_, ?_⟩
  · intro closed
    rw [measured, named.1 closed]
    exact fun opening member => absurd member List.not_mem_nil
  · rw [ne_eq, named, measured]
  · intro name inputSize reading fault failed
    cases memory : reading.memory with
    | none => simp [Meter.start, memory]
    | some used => simp [Meter.start, memory] at failed

/-- In every state that a run on a new meter comes through, the session is told by the calls so far. The states that
the run shows are among these, and its last one is the one its calls end in. -/
theorem session_of_calls (actions : List Action) :
    (∀ calls, calls <+: callsOfAll .fresh actions → (afterAll .fresh calls).Session (standing calls)) ∧
      (∀ outcome ∈ Outcome.withinAll (performAll .fresh actions).1,
        ∃ calls, calls <+: callsOfAll .fresh actions ∧ outcome.after = afterAll .fresh calls) ∧
      (performAll .fresh actions).2 = afterAll .fresh (callsOfAll .fresh actions) :=
  ⟨fun calls _ => (openedBy_standing calls).session, fun _ member => reached_withinAll .fresh actions member,
    after_performAll .fresh actions⟩

def patchyActions : List Action :=
  [.start "a" 3 ⟨.ofInt 1, none⟩,
    .block "b" 5 ⟨.ofInt 2, some (.ofInt 8)⟩ [.sample ⟨.ofInt 2, none⟩] ⟨.ofInt 3, none⟩ none,
    .start "c" 7 ⟨.ofInt 4, none⟩]

theorem session_of_calls_patchyActions :
    callsOfAll .fresh patchyActions =
        [.start "a" 3 ⟨.ofInt 1, none⟩, .start "b" 5 ⟨.ofInt 2, some (.ofInt 8)⟩, .sample ⟨.ofInt 2, none⟩,
          .stop 0 0 ⟨.ofInt 3, none⟩, .start "c" 7 ⟨.ofInt 4, none⟩] ∧
      standing (callsOfAll .fresh patchyActions) = [⟨"c", ⟨.ofInt 4, none⟩⟩] ∧
      (performAll .fresh patchyActions).2.Session [⟨"c", ⟨.ofInt 4, none⟩⟩] := by
  have calls : callsOfAll .fresh patchyActions =
      [.start "a" 3 ⟨.ofInt 1, none⟩, .start "b" 5 ⟨.ofInt 2, some (.ofInt 8)⟩, .sample ⟨.ofInt 2, none⟩,
        .stop 0 0 ⟨.ofInt 3, none⟩, .start "c" 7 ⟨.ofInt 4, none⟩] := by decide +kernel
  have left : standing (callsOfAll .fresh patchyActions) = [⟨"c", ⟨.ofInt 4, none⟩⟩] := by decide +kernel
  obtain ⟨session, -, last⟩ := session_of_calls patchyActions
  refine ⟨calls, left, ?_⟩
  rw [last, ← left]
  exact session _ List.prefix_rfl

/-- A first start that cannot read memory leaves a name and a start time behind. -/
theorem halfOpen_unreadStart :
    (performAll .fresh [.start "a" 0 ⟨.ofInt 1, none⟩]).2.operation = some "a" ∧
      (performAll .fresh [.start "a" 0 ⟨.ofInt 1, none⟩]).2.startTime = some (.ofInt 1) ∧
      (performAll .fresh [.start "a" 0 ⟨.ofInt 1, none⟩]).2.startMemory = none := by
  refine ⟨?_, ?_, ?_⟩ <;> decide +kernel

end SchemaUnnest.Meter
