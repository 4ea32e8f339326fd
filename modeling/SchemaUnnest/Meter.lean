import SchemaUnnest.Binary64.Decimal
import SchemaUnnest.Log

namespace SchemaUnnest

structure Reading where
  now : Binary64
  memory : Option Binary64
deriving DecidableEq

structure Metrics where
  name : Text
  start : Binary64
  stop : Binary64
  duration : Binary64
  inputSize : Int
  outputSize : Int
  peak : Option Binary64
  memoryStart : Option Binary64
  memoryEnd : Binary64
  definitionsCreated : Int
deriving DecidableEq

/-- The open session, if there is one, and the figures of those before. Until memory has been measured once,
there is no peak, which counts as zero. -/
structure Meter where
  operation : Option Text
  startTime : Option Binary64
  startMemory : Option Binary64
  peak : Option Binary64
  inputSize : Int
  history : List Metrics
deriving DecidableEq

inductive MeterFault where
  | noMemoryReading
  | noSession
  /-- Memory could be read neither at the start nor at the end; the flag tells whether it ever was. -/
  | noMemoryAtAll (measured : Bool)
deriving DecidableEq

def MeterFault.message : MeterFault → Text
  | .noMemoryReading => []
  | .noSession => "No active profiling session"
  | .noMemoryAtAll measured =>
    "'>' not supported between instances of 'NoneType' and '" ++
      (if measured then Text.ofString "float" else "int") ++ "'"

namespace Meter

def fresh : Meter := ⟨none, none, none, none, 0, []⟩

def peakValue (peak : Option Binary64) : Binary64 := peak.getD .zero

def raisePeak (peak : Option Binary64) (measured : Binary64) : Option Binary64 :=
  if measured.greater (peakValue peak) then some measured else peak

def isOpen (p : Meter) : Bool := p.operation.any (· ≠ [])

def session? (p : Meter) : Option (Text × Binary64) :=
  match p.operation, p.startTime with
  | some name, some start => if name ≠ [] && !start.isZero then some (name, start) else none
  | _, _ => none

structure Step (α : Type) where
  result : Except MeterFault α
  after : Meter
  log : Log

/-- Opens a session. Name, time and input size are set before memory is read. -/
def start (p : Meter) (name : Text) (inputSize : Int) (reading : Reading) : Step Unit :=
  let begun := { p with operation := some name, startTime := some reading.now, inputSize := inputSize }
  match reading.memory with
  | none => ⟨.error .noMemoryReading, begun, []⟩
  | some memory =>
    { result := .ok ()
      after := { begun with startMemory := some memory, peak := some memory }
      log := [⟨.debug, "Started profiling: " ++ name⟩] }

def sample (p : Meter) (reading : Reading) : Step Unit :=
  if !p.isOpen then ⟨.ok (), p, []⟩
  else match reading.memory with
    | none => ⟨.ok (), p, [⟨.warning, "Performance sampling failed: "⟩]⟩
    | some memory => ⟨.ok (), { p with peak := raisePeak p.peak memory }, []⟩

def stopLine (metrics : Metrics) : LogLine :=
  ⟨.debug, "Performance Summary - " ++ metrics.name ++ ": duration=" ++
    (metrics.duration.mul (.ofInt 1000)).fixed 2 ++ "ms, memory_peak=" ++ (peakValue metrics.peak).fixed 1 ++
    "MB, definitions_created=" ++ Text.ofInt metrics.definitionsCreated⟩

def stop (p : Meter) (outputSize definitionsCreated : Int) (reading : Reading) : Step Metrics :=
  match p.session? with
  | none => ⟨.error .noSession, p, []⟩
  | some (name, start) =>
    match reading.memory.or p.startMemory with
    | none => ⟨.error (.noMemoryAtAll p.peak.isSome), p, []⟩
    | some memory =>
      let peak := raisePeak p.peak memory
      let metrics : Metrics :=
        { name := name
          start := start
          stop := reading.now
          duration := reading.now.sub start
          inputSize := p.inputSize
          outputSize := outputSize
          peak := peak
          memoryStart := p.startMemory
          memoryEnd := memory
          definitionsCreated := definitionsCreated }
      { result := .ok metrics
        after :=
          { operation := none
            startTime := none
            startMemory := none
            peak := peak
            inputSize := p.inputSize
            history := p.history ++ [metrics] }
        log := [stopLine metrics] }

def leave (p : Meter) (reading : Reading) : Step Unit :=
  if p.isOpen then
    let step := p.stop 0 0 reading
    ⟨step.result.map fun _ => (), step.after, step.log⟩
  else ⟨.ok (), p, []⟩

structure Summary where
  operations : List Metrics
  duration : Binary64
  inputSize : Int
  outputSize : Int
  definitionsCreated : Int
  peak : Binary64
deriving DecidableEq

def summary (p : Meter) : Summary :=
  { operations := p.history
    duration := p.history.foldl (fun sum metrics => sum.add metrics.duration) .zero
    inputSize := p.history.foldl (fun sum metrics => sum + metrics.inputSize) 0
    outputSize := p.history.foldl (fun sum metrics => sum + metrics.outputSize) 0
    definitionsCreated := p.history.foldl (fun sum metrics => sum + metrics.definitionsCreated) 0
    peak := match p.history with
      | [] => .zero
      | first :: rest =>
        rest.foldl (fun peak metrics =>
          if (peakValue metrics.peak).greater peak then peakValue metrics.peak else peak) (peakValue first.peak) }

structure Report where
  count : Nat
  figures : Option Summary
deriving DecidableEq

def Summary.report (summary : Summary) : Report :=
  ⟨summary.operations.length, if summary.operations = [] then none else some summary⟩

/-- Something done with a meter. A block opens a session, does what is in it, raises an error of its own if
it has one, and closes whatever session is open when it is left. -/
inductive Action where
  | start (name : Text) (inputSize : Int) (reading : Reading)
  | sample (reading : Reading)
  | stop (outputSize definitionsCreated : Int) (reading : Reading)
  | summary
  | block (name : Text) (inputSize : Int) (entry : Reading) (body : List Action) (exit : Reading)
      (raised : Option Text)

inductive Escape where
  | fault (fault : MeterFault)
  | raised (message : Text)
deriving DecidableEq

inductive Outcome where
  | started (result : Except MeterFault Unit) (log : Log) (after : Meter)
  | sampled (log : Log) (after : Meter)
  | stopped (result : Except MeterFault Metrics) (log : Log) (after : Meter)
  | summed (summary : Summary) (after : Meter)
  | left (body : List Outcome) (escape : Option Escape) (entryLog exitLog : Log) (after : Meter)

namespace Outcome

def after : Outcome → Meter
  | .started _ _ p | .sampled _ p | .stopped _ _ p | .summed _ p | .left _ _ _ _ p => p

end Outcome

mutual

def perform (p : Meter) : Action → Outcome
  | .start name inputSize reading =>
    let step := p.start name inputSize reading
    .started step.result step.log step.after
  | .sample reading =>
    let step := p.sample reading
    .sampled step.log step.after
  | .stop outputSize definitionsCreated reading =>
    let step := p.stop outputSize definitionsCreated reading
    .stopped step.result step.log step.after
  | .summary => .summed p.summary p
  | .block name inputSize entry body exit raised =>
    let opened := p.start name inputSize entry
    match opened.result with
    | .error fault => .left [] (some (.fault fault)) opened.log [] opened.after
    | .ok () =>
      let (outcomes, inner) := performAll opened.after body
      let closed := inner.leave exit
      let escape := match closed.result with
        | .error fault => some (.fault fault)
        | .ok () => raised.map .raised
      .left outcomes escape opened.log closed.log closed.after

def performAll (p : Meter) : List Action → List Outcome × Meter
  | [] => ([], p)
  | action :: rest =>
    let outcome := perform p action
    let (outcomes, last) := performAll outcome.after rest
    (outcome :: outcomes, last)

end

end Meter
end SchemaUnnest
