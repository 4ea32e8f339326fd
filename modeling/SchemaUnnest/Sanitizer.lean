import SchemaUnnest.Batch

namespace SchemaUnnest

structure Sanitizer where
  settings : Settings
  lastReport : Option Unnesting.Run
  meter : Option Meter

inductive SchemaFault where
  | parse (fault : Schema.ParseFault)
  | unnest (fault : Unnesting.Fault)
deriving DecidableEq

def SchemaFault.message : SchemaFault → Text
  | .parse fault => fault.message
  | .unnest fault => fault.message

structure Worked (α : Type) where
  work : Work α
  after : Sanitizer

namespace Sanitizer

open Batch

def fresh (settings : Settings) (metered : Bool) : Sanitizer :=
  ⟨settings, none, if metered then some .fresh else none⟩

def unnest (s : Sanitizer) (document : Option Document) : Unnested × Sanitizer :=
  let unnested := Document.unnest s.settings.stack.room document
  (unnested, { s with lastReport := unnested.report })

def sanitizeText (s : Sanitizer) (text : Json) : Except SchemaFault Json × Log :=
  match Schema.parse s.settings.stack.levels s.settings.maxDepth text with
  | (.error fault, log) => (.error (.parse fault), log)
  | (.ok root, log) =>
    let run := s.settings.unnest root
    let log := log ++ run.events.map (·.line)
    match run.fault with
    | some fault => (.error (.unnest fault), log)
    | none => (.ok run.root, log)

/-- Loads, unnests and writes one file. The result counts the fragments of the last account. -/
def process (s : Sanitizer) (fs : FileSystem) (source : FilePath) : Worked FileResult :=
  match s.settings.load fs source with
  | (.error fault, log) => ⟨⟨.error (.file source fault), fs, log⟩, s⟩
  | (.ok document, log) =>
    let (unnested, after) := s.unnest (some document)
    let log := log ++ unnested.log
    match unnested.fault, unnested.document, after.lastReport with
    | some fault, _, _ => ⟨⟨.error (.record fault), fs, log⟩, after⟩
    | none, some output, some report =>
      let work := writeResult s.settings fs source report.made.length output
      ⟨{ work with log := log ++ work.log }, after⟩
    | none, _, _ =>
      if document.hasRoot then
        let failure := FileResult.tooDeep source
        ⟨⟨.ok (.failed source failure none 0), fs, log ++ failure.log⟩, after⟩
      else ⟨⟨.ok (.nothingFound source), fs, log⟩, after⟩

def sanitizeFile (s : Sanitizer) (readings : Readings) (fs : FileSystem) (source : FilePath) : Worked FileResult :=
  match s.meter with
  | none => s.process fs source
  | some p =>
    let opened := p.start (sessionName source) (fs.size source.text) readings.start
    let entered := { s with meter := some opened.after }
    match opened.result with
    | .error fault => ⟨⟨.error (.meter fault), fs, opened.log⟩, entered⟩
    | .ok () =>
      let ⟨work, after⟩ := entered.process fs source
      let closed := match work.result with
        | .error _ => opened.after.leave readings.stop
        | .ok result => finish readings opened.after result
      let outcome := match closed.result with
        | .error fault => .error (.meter fault)
        | .ok () => work.result
      ⟨⟨outcome, work.fs, opened.log ++ work.log ++ closed.log⟩, { after with meter := some closed.after }⟩

def sanitizeEach (s : Sanitizer) (readings : Nat → Readings) (place : Nat) (fs : FileSystem) :
    List FilePath → Worked (List FileResult)
  | [] => ⟨⟨.ok [], fs, []⟩, s⟩
  | source :: rest =>
    let first := s.sanitizeFile (readings place) fs source
    match first.work.result with
    | .error fault => ⟨⟨.error fault, first.work.fs, first.work.log⟩, first.after⟩
    | .ok result =>
      let next := first.after.sanitizeEach readings (place + 1) first.work.fs rest
      ⟨⟨next.work.result.map (result :: ·), next.work.fs, first.work.log ++ next.work.log⟩, next.after⟩

def sanitizeFiles (s : Sanitizer) (readings : Nat → Readings) (fs : FileSystem) (sources : List FilePath) :
    Worked (List FileResult) :=
  let batch := s.sanitizeEach readings 0 fs sources
  { batch with work := close batch.work }

end Sanitizer
end SchemaUnnest
