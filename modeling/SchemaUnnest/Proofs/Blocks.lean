import SchemaUnnest.Proofs.Sessions

namespace SchemaUnnest.Meter

/-- A session with these starts since a stop returned, if there are any, can be closed at this reading. -/
def Closable (starts : List Opening) (reading : Reading) : Prop :=
  ∀ last ∈ starts.getLast?, last.name ≠ [] ∧ last.reading.now.isZero = false ∧
    (reading.memory.isSome ∨ ∃ opening ∈ starts, opening.reading.memory.isSome)

inductive Closing (p : Meter) (starts : List Opening) (reading : Reading) : Option MeterFault → Meter → Prop where
  | idle (none : starts = []) : Closing p starts reading .none p
  | unnamed {last : Opening} (held : starts.getLast? = some last) (empty : last.name = []) :
    Closing p starts reading .none p
  | untimed {last : Opening} (held : starts.getLast? = some last) (named : last.name ≠ [])
    (zero : last.reading.now.isZero) : Closing p starts reading (some .noSession) p
  | unread {last : Opening} (held : starts.getLast? = some last) (named : last.name ≠ [])
    (clock : last.reading.now.isZero = false) (now : reading.memory = none)
    (before : ∀ opening ∈ starts, opening.reading.memory = none) :
    Closing p starts reading (some (.noMemoryAtAll true)) p
  | closed {last : Opening} {after : Meter} (held : starts.getLast? = some last) (closable : Closable starts reading)
    (ended : after.Ended p.history ⟨last.name, p.inputSize, 0, 0⟩) : Closing p starts reading .none after

variable {p : Meter} {starts : List Opening} {reading : Reading}

theorem stop_of_session {name : Text} {start used : Binary64} (session : p.session? = some (name, start))
    (memory : reading.memory.or p.startMemory = some used) (outputSize definitionsCreated : Int) :
    ∃ metrics, (p.stop outputSize definitionsCreated reading).result = .ok metrics := by
  simp [Meter.stop, session, memory]

theorem measured_raisePeak {peak : Option Binary64} (measured : peak.isSome) (used : Binary64) :
    (raisePeak peak used).isSome := by
  unfold raisePeak
  split
  · rfl
  · exact measured

theorem measured_after (measured : p.peak.isSome) (call : Call) : (call.after p).peak.isSome := by
  cases call with
  | start name inputSize reading => cases memory : reading.memory <;> simp [Call.after, Meter.start, memory, measured]
  | sample reading =>
    cases memory : reading.memory <;> by_cases filled : p.isOpen <;>
      simp [Call.after, Meter.sample, memory, filled, measured, measured_raisePeak]
  | stop outputSize definitionsCreated reading =>
    cases session : p.session? with
    | none => simpa [Call.after, Meter.stop, session] using measured
    | some found =>
      cases memory : reading.memory.or p.startMemory <;>
        simp [Call.after, Meter.stop, session, memory, measured, measured_raisePeak]

theorem measured_afterAll (measured : p.peak.isSome) (calls : List Call) : (afterAll p calls).peak.isSome := by
  induction calls generalizing p with
  | nil => exact measured
  | cons call rest ih => exact ih (measured_after measured call)

def Step.fault? {α : Type} (step : Step α) : Option MeterFault :=
  match step.result with
  | .error fault => some fault
  | .ok _ => none

theorem closing_leave (opened : p.OpenedBy starts) (measured : p.peak.isSome) (reading : Reading) :
    Closing p starts reading (p.leave reading).fault? (p.leave reading).after := by
  cases held : starts.getLast? with
  | none =>
    have operation : p.operation = none := by rw [opened.operation, held]; rfl
    have closed : p.isOpen = false := by simp [isOpen, operation]
    simp only [Meter.leave, closed, Bool.false_eq_true, if_false]
    exact .idle (List.getLast?_eq_none_iff.1 held)
  | some last =>
    have operation : p.operation = some last.name := by rw [opened.operation, held]; rfl
    have startTime : p.startTime = some last.reading.now := by rw [opened.startTime, held]; rfl
    -- the tests of leaving and of stopping, in the order they are made
    by_cases empty : last.name = []
    · have closed : p.isOpen = false := by simp [isOpen, operation, empty]
      simp only [Meter.leave, closed, Bool.false_eq_true, if_false]
      exact .unnamed held empty
    have filled : p.isOpen := by simp [isOpen, operation, empty]
    simp only [Meter.leave, filled, if_true]
    cases clock : last.reading.now.isZero with
    | true =>
      have session : p.session? = none := by simp [session?, operation, startTime, empty, clock]
      simp only [Meter.stop, session]
      exact .untimed held empty clock
    | false =>
      have session : p.session? = some (last.name, last.reading.now) := by
        simp [session?, operation, startTime, empty, clock]
      cases memory : reading.memory.or p.startMemory with
      | none =>
        obtain ⟨now, start⟩ := Option.or_eq_none_iff.1 memory
        rw [opened.startMemory, List.getLast?_eq_none_iff, List.filterMap_eq_nil_iff] at start
        simp only [Meter.stop, session, memory, measured]
        exact .unread held empty clock now start
      | some used =>
        obtain ⟨metrics, stopped⟩ := stop_of_session session memory 0 0
        obtain ⟨named, ended⟩ := ended_stop stopped
        rw [operation, Option.some.injEq] at named
        rw [← named] at ended
        simp only [stopped]
        refine .closed held ?_ ended
        intro other same
        cases held.symm.trans same
        refine ⟨empty, clock, ?_⟩
        -- the memory that stands in on closing is that of now or of one of the starts
        rcases Option.or_eq_some_iff.1 memory with now | ⟨-, start⟩
        · exact Or.inl (Option.isSome_of_eq_some now)
        · rw [opened.startMemory] at start
          obtain ⟨opening, member, read⟩ := List.mem_filterMap.1 (List.mem_of_getLast? start)
          exact Or.inr ⟨opening, member, Option.isSome_of_eq_some read⟩

instance (starts : List Opening) (reading : Reading) : Decidable (Closable starts reading) :=
  inferInstanceAs (Decidable (∀ last ∈ starts.getLast?, _))

theorem not_closable {last : Opening} (held : starts.getLast? = some last)
    (reason : last.name = [] ∨ last.reading.now.isZero ∨
      (reading.memory = none ∧ ∀ opening ∈ starts, opening.reading.memory = none)) : ¬ Closable starts reading := by
  intro closable
  obtain ⟨named, clock, read⟩ := closable last held
  rcases reason with empty | zero | ⟨now, before⟩
  · exact named empty
  · rw [clock] at zero
    cases zero
  · rcases read with here | ⟨opening, member, there⟩
    · simp [now] at here
    · simp [before opening member] at there

theorem not_closable_or_unnamed {last : Opening} (held : starts.getLast? = some last) (named : last.name ≠ [])
    (reason : last.reading.now.isZero ∨ (reading.memory = none ∧ ∀ opening ∈ starts, opening.reading.memory = none)) :
    ¬ (Closable starts reading ∨ ∃ last ∈ starts.getLast?, last.name = []) := by
  rintro (closable | ⟨other, same, empty⟩)
  · exact not_closable held (Or.inr reason) closable
  · cases held.symm.trans same
    exact named empty

theorem closable_nil (reading : Reading) : Closable [] reading := by
  intro last held
  cases held

section Closing

variable {fault : Option MeterFault} {after : Meter}

theorem Closing.idle_of_closable (opened : p.OpenedBy starts) (closing : Closing p starts reading fault after)
    (closable : Closable starts reading) : after.Idle := by
  cases closing with
  | idle none =>
    subst none
    exact ⟨opened.operation, opened.startTime, opened.startMemory⟩
  | unnamed held empty => exact absurd closable (not_closable held (Or.inl empty))
  | untimed held named zero => exact absurd closable (not_closable held (Or.inr (Or.inl zero)))
  | unread held named clock now before => exact absurd closable (not_closable held (Or.inr (Or.inr ⟨now, before⟩)))
  | closed held closable ended => exact ended.idle

theorem Closing.kept (closing : Closing p starts reading fault after) (left : ¬ Closable starts reading) :
    after = p := by
  cases closing with
  | closed held closable ended => exact absurd closable left
  | _ => rfl

theorem Closing.operation_eq_none_iff (opened : p.OpenedBy starts) (closing : Closing p starts reading fault after) :
    after.operation = none ↔ Closable starts reading := by
  constructor
  · intro operation
    apply Classical.byContradiction
    intro left
    rw [closing.kept left, opened.operation, Option.map_eq_none_iff, List.getLast?_eq_none_iff] at operation
    exact left (operation ▸ closable_nil reading)
  · intro closable
    exact (closing.idle_of_closable opened closable).operation

theorem Closing.fault_eq_none_iff (closing : Closing p starts reading fault after) :
    fault = none ↔ Closable starts reading ∨ ∃ last ∈ starts.getLast?, last.name = [] := by
  cases closing with
  | idle none => exact iff_of_true rfl (Or.inl (none ▸ closable_nil reading))
  | unnamed held empty => exact iff_of_true rfl (Or.inr ⟨_, held, empty⟩)
  | untimed held named zero => exact iff_of_false (by simp) (not_closable_or_unnamed held named (Or.inl zero))
  | unread held named clock now before =>
    exact iff_of_false (by simp) (not_closable_or_unnamed held named (Or.inr ⟨now, before⟩))
  | closed held closable ended => exact iff_of_true rfl (Or.inl closable)

end Closing

structure Exit (ε : Type) where
  error : Option (MeterFault ⊕ ε)
  after : Meter

def leaveWith {ε : Type} (p : Meter) (raised : Option ε) (reading : Reading) : Exit ε :=
  let closed := p.leave reading
  ⟨(closed.fault?.map .inl).or (raised.map .inr), closed.after⟩

structure Exit.Tells {ε : Type} (left : Exit ε) (inner : Meter) (starts : List Opening) (reading : Reading)
    (raised : Option ε) : Prop where
  closed : left.after.operation = none ↔ Closable starts reading
  idle : Closable starts reading → left.after.Idle
  transparent : left.error = raised.map .inr ↔ Closable starts reading ∨ ∃ last ∈ starts.getLast?, last.name = []
  cause : ∃ fault, Closing inner starts reading fault left.after ∧ left.error = (fault.map .inl).or (raised.map .inr)

theorem tells_leaveWith {ε : Type} (opened : p.OpenedBy starts) (measured : p.peak.isSome) (raised : Option ε)
    (reading : Reading) : (p.leaveWith raised reading).Tells p starts reading raised := by
  have closing := closing_leave opened measured reading
  constructor
  · exact closing.operation_eq_none_iff opened
  · exact closing.idle_of_closable opened
  · rw [← closing.fault_eq_none_iff, leaveWith]
    cases (p.leave reading).fault? <;> cases raised <;> simp
  · exact ⟨_, closing, rfl⟩

def inside (p : Meter) (name : Text) (inputSize : Int) (entry : Reading) (calls : List Call) : Meter :=
  afterAll (p.start name inputSize entry).after calls

def startsInside (p : Meter) (name : Text) (inputSize : Int) (entry : Reading) (calls : List Call) : List Opening :=
  (answers (p.start name inputSize entry).after calls).foldl noted [⟨name, entry⟩]

section Block

variable {name : Text} {inputSize : Int} {entry : Reading}

theorem entered_iff : (p.start name inputSize entry).result = .ok () ↔ entry.memory.isSome := by
  cases memory : entry.memory <;> simp [Meter.start, memory]

theorem openedBy_inside (entered : (p.start name inputSize entry).result = .ok ()) (calls : List Call) :
    (p.inside name inputSize entry calls).OpenedBy (p.startsInside name inputSize entry calls) := by
  obtain ⟨used, memory⟩ := Option.isSome_iff_exists.1 (entered_iff.1 entered)
  have first : (p.start name inputSize entry).after.OpenedBy [⟨name, entry⟩] := by
    constructor <;> simp [Meter.start, memory]
  exact first.afterAll calls

theorem measured_inside (entered : (p.start name inputSize entry).result = .ok ()) (calls : List Call) :
    (p.inside name inputSize entry calls).peak.isSome := by
  obtain ⟨used, memory⟩ := Option.isSome_iff_exists.1 (entered_iff.1 entered)
  apply measured_afterAll
  simp [Meter.start, memory]

def Outcome.escape? : Outcome → Option Escape
  | .left _ escape _ _ _ => escape
  | _ => none

theorem perform_block (entered : (p.start name inputSize entry).result = .ok ()) (body : List Action) (exit : Reading)
    (raised : Option Text) :
    let left := (p.inside name inputSize entry (callsOfAll (p.start name inputSize entry).after body)).leaveWith
      raised exit
    (perform p (.block name inputSize entry body exit raised)).after = left.after ∧
      (perform p (.block name inputSize entry body exit raised)).escape? =
        left.error.map (Sum.elim .fault .raised) := by
  have inner : (performAll (p.start name inputSize entry).after body).2 =
      p.inside name inputSize entry (callsOfAll (p.start name inputSize entry).after body) := after_performAll _ body
  simp only [perform, entered, inner, leaveWith, Outcome.after, Outcome.escape?, Step.fault?, true_and]
  cases ((p.inside name inputSize entry (callsOfAll (p.start name inputSize entry).after body)).leave exit).result with
  | error fault => rfl
  | ok done => cases raised <;> rfl

end Block

/-- A block that could be entered is left with its session closed, and with the error of its body or with none, just if
the session can be closed; whatever calls its body makes, whichever of their errors it catches, and whatever it raises.
What is done with a meter leaves its blocks so. -/
theorem blocks_close_iff {p : Meter} {name : Text} {inputSize : Int} {entry : Reading}
    (entered : (p.start name inputSize entry).result = .ok ()) (exit : Reading) :
    (∀ (ε : Type) (calls : List Call) (raised : Option ε),
      ((p.inside name inputSize entry calls).leaveWith raised exit).Tells (p.inside name inputSize entry calls)
        (p.startsInside name inputSize entry calls) exit raised) ∧
    ∀ (body : List Action) (raised : Option Text),
      let calls := callsOfAll (p.start name inputSize entry).after body
      (perform p (.block name inputSize entry body exit raised)).after =
          ((p.inside name inputSize entry calls).leaveWith raised exit).after ∧
        (perform p (.block name inputSize entry body exit raised)).escape? =
          ((p.inside name inputSize entry calls).leaveWith raised exit).error.map (Sum.elim .fault .raised) :=
  ⟨fun _ calls raised => tells_leaveWith (openedBy_inside entered calls) (measured_inside entered calls) raised exit,
    fun body raised => perform_block entered body exit raised⟩

def reopeningBody : List Action := [.stop 10 1 ⟨.ofInt 2, none⟩, .start "b" 7 ⟨.ofInt 3, none⟩]

theorem blocks_close_iff_reopeningBody :
    (Meter.fresh.start "a" 5 ⟨.ofInt 1, some (.ofInt 8)⟩).result = .ok () ∧
      (perform .fresh (.block "a" 5 ⟨.ofInt 1, some (.ofInt 8)⟩ reopeningBody ⟨.ofInt 4, some (.ofInt 6)⟩
        (some "boom"))).after.operation = none ∧
      (perform .fresh (.block "a" 5 ⟨.ofInt 1, some (.ofInt 8)⟩ reopeningBody ⟨.ofInt 4, some (.ofInt 6)⟩
        (some "boom"))).escape? = some (.raised "boom") := by
  have entered : (Meter.fresh.start "a" 5 ⟨.ofInt 1, some (.ofInt 8)⟩).result = .ok () := by decide +kernel
  have closable : Closable (Meter.fresh.startsInside "a" 5 ⟨.ofInt 1, some (.ofInt 8)⟩
      (callsOfAll (Meter.fresh.start "a" 5 ⟨.ofInt 1, some (.ofInt 8)⟩).after reopeningBody))
      ⟨.ofInt 4, some (.ofInt 6)⟩ := by decide +kernel
  obtain ⟨left, performed⟩ := blocks_close_iff entered ⟨.ofInt 4, some (.ofInt 6)⟩
  obtain ⟨after, escape⟩ := performed reopeningBody (some "boom")
  have told := left Text (callsOfAll (Meter.fresh.start "a" 5 ⟨.ofInt 1, some (.ofInt 8)⟩).after reopeningBody)
    (some "boom")
  refine ⟨entered, ?_, ?_⟩
  · rw [after]
    exact told.closed.2 closable
  · rw [escape, told.transparent.2 (Or.inl closable)]
    rfl

def untimedBlock : Action := .block "a" 0 ⟨.zero, some (.ofInt 1)⟩ [] ⟨.ofInt 1, some (.ofInt 1)⟩ none

/-- A block that opens another session in place of its own, and can read no memory from then on; then it raises an error. -/
def unreadBlock : Action :=
  .block "a" 0 ⟨.ofInt 1, some (.ofInt 1)⟩ [.stop 0 0 ⟨.ofInt 2, some (.ofInt 1)⟩, .start "b" 0 ⟨.ofInt 3, none⟩]
    ⟨.ofInt 4, none⟩ (some "boom")

/-- Both blocks are entered. The session of the one stays open, though nothing is raised in it; that of the other too, and
its error is lost. -/
theorem staysOpen_untimedBlock :
    ((Meter.fresh.start "a" 0 ⟨.zero, some (.ofInt 1)⟩).result = .ok () ∧
        (perform .fresh untimedBlock).escape? = some (.fault .noSession) ∧
        (perform .fresh untimedBlock).after.operation = some "a") ∧
      (Meter.fresh.start "a" 0 ⟨.ofInt 1, some (.ofInt 1)⟩).result = .ok () ∧
        (perform .fresh unreadBlock).escape? = some (.fault (.noMemoryAtAll true)) ∧
        (perform .fresh unreadBlock).after.operation = some "b" := by
  refine ⟨⟨?_, ?_, ?_⟩, ?_, ?_, ?_⟩ <;> decide +kernel

end SchemaUnnest.Meter
