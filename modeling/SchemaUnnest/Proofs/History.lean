import SchemaUnnest.Proofs.Sessions

namespace SchemaUnnest.Meter

namespace Call

def start? : Call → Option (Text × Int)
  | .start name inputSize _ => some (name, inputSize)
  | _ => none

def stop? : Call → Option (Int × Int)
  | .stop outputSize definitionsCreated _ => some (outputSize, definitionsCreated)
  | _ => none

def closes (p : Meter) (call : Call) : Bool := call.stop?.isSome && call.returns p

end Call

/-- Name and input size of the last of these calls that is a start, whether it returned or not. -/
def lastStart? (calls : List Call) : Option (Text × Int) := (calls.filterMap Call.start?).getLast?

variable {p : Meter}

theorem ended_of_closes {call : Call} (closes : call.closes p) :
    ∃ name outputSize definitionsCreated, p.operation = some name ∧
      call.stop? = some (outputSize, definitionsCreated) ∧
      (call.after p).Ended p.history ⟨name, p.inputSize, outputSize, definitionsCreated⟩ := by
  cases call with
  | stop outputSize definitionsCreated reading =>
    cases result : (p.stop outputSize definitionsCreated reading).result with
    | ok metrics =>
      obtain ⟨named, ended⟩ := ended_stop result
      exact ⟨metrics.name, outputSize, definitionsCreated, named, rfl, ended⟩
    | error fault => simp [Call.closes, Call.stop?, Call.returns, result, Except.toBool] at closes
  | _ => simp [Call.closes, Call.stop?] at closes

/-- A call that starts nothing and closes nothing changes the peak at most. -/
theorem after_of_quiet {call : Call} (other : call.start? = none) (quiet : call.closes p = false) :
    ∃ peak, call.after p = { p with peak := peak } := by
  cases call with
  | start name inputSize reading => cases other
  | sample reading => exact p.after_sample reading
  | stop outputSize definitionsCreated reading =>
    cases result : (p.stop outputSize definitionsCreated reading).result with
    | ok metrics => simp [Call.closes, Call.stop?, Call.returns, result, Except.toBool] at quiet
    | error fault => exact ⟨p.peak, after_stop_of_error result⟩

def OpenSince (p : Meter) (calls : List Call) : Prop :=
  ∀ name, p.operation = some name → lastStart? calls = some (name, p.inputSize)

theorem lastStart?_append_of_none {call : Call} (other : call.start? = none) (calls : List Call) :
    lastStart? (calls ++ [call]) = lastStart? calls := by
  simp [lastStart?, other]

theorem openSince_start (calls : List Call) (name : Text) (inputSize : Int) (reading : Reading) :
    (p.start name inputSize reading).after.OpenSince (calls ++ [.start name inputSize reading]) := by
  intro other held
  have begun : (p.start name inputSize reading).after.operation = some name ∧
      (p.start name inputSize reading).after.inputSize = inputSize := by
    cases memory : reading.memory <;> simp [Meter.start, memory]
  cases begun.1.symm.trans held
  rw [begun.2]
  simp [lastStart?, Call.start?]

theorem OpenSince.call {calls : List Call} (h : p.OpenSince calls) (call : Call) :
    (call.after p).OpenSince (calls ++ [call]) := by
  cases other : call.start? with
  | some started =>
    cases call with
    | start name inputSize reading => exact openSince_start calls name inputSize reading
    | _ => cases other
  | none =>
    intro name held
    rw [lastStart?_append_of_none other]
    cases closes : call.closes p with
    | true =>
      obtain ⟨name, output, created, -, -, ended⟩ := ended_of_closes closes
      rw [ended.idle.operation] at held
      cases held
    | false =>
      obtain ⟨peak, same⟩ := after_of_quiet other closes
      rw [same] at held ⊢
      exact h name held

theorem OpenSince.afterAll {first : List Call} (h : p.OpenSince first) (calls : List Call) :
    (afterAll p calls).OpenSince (first ++ calls) := by
  induction calls generalizing p first with
  | nil => rwa [List.append_nil]
  | cons call rest ih =>
    have later := ih (h.call call)
    rwa [List.append_assoc, List.singleton_append] at later

mutual

/-- What shows of an action, also from inside its blocks, comes of an action done with some meter. -/
theorem performed_within (p : Meter) (action : Action) {outcome : Outcome}
    (member : outcome ∈ (perform p action).within) :
    ∃ q other, outcome = perform q other := by
  by_cases whole : outcome = perform p action
  · exact ⟨p, action, whole⟩
  -- what is not the action as a whole stands in the body of a block
  cases action with
  | block name inputSize entry body exit raised =>
    cases opened : (p.start name inputSize entry).result with
    | error fault =>
      simp only [perform, opened, Outcome.within, Outcome.withinAll, List.nil_append,
        List.mem_singleton] at member whole
      exact absurd member whole
    | ok done =>
      simp only [perform, opened, Outcome.within, List.mem_append, List.mem_singleton] at member whole
      exact performed_withinAll _ body (member.resolve_right whole)
  | _ =>
    simp only [perform, Outcome.within, List.mem_singleton] at member whole
    exact absurd member whole

theorem performed_withinAll (p : Meter) (actions : List Action) {outcome : Outcome}
    (member : outcome ∈ Outcome.withinAll (performAll p actions).1) : ∃ q other, outcome = perform q other := by
  cases actions with
  | nil => simp [performAll, Outcome.withinAll] at member
  | cons action rest =>
    simp only [performAll, Outcome.withinAll, List.mem_append] at member
    rcases member with here | later
    · exact performed_within p action here
    · exact performed_withinAll _ rest later

end

end SchemaUnnest.Meter
