import SchemaUnnest.Document
import SchemaUnnest.Problem
import SchemaUnnest.Unnesting.Run

namespace SchemaUnnest

structure Unnested where
  document : Option Document
  report : Option Unnesting.Run
  root : Option Json
  fault : Option RecordFault
  log : Log

namespace Document

def originText : Option Document → Text
  | none => "<unknown>"
  | some document => document.origin.text

def unnest (room : Unnesting.Room) (document : Option Document) : Unnested :=
  match document.bind (·.root) with
  | none =>
    { document := none
      report := none
      root := none
      fault := none
      log := [⟨.error, ProblemKind.missingSchema.name ++ ": No JSON found at path '" ++ originText document ++ "'"⟩] }
  | some root =>
    let run := Unnesting.unnest room root
    let log := run.events.map (·.line)
    match run.fault with
    | some (.record fault) => ⟨none, none, some run.root, some fault, log⟩
    | some .tooDeep =>
      { document := none
        report := none
        root := some run.root
        fault := none
        log := log ++ [⟨.error, ProblemKind.shape.name ++ ": Schema at path '" ++ originText document ++
          "' is nested too deeply to unnest"⟩] }
    | none =>
      { document := document.map fun document => { document with root := some run.root }
        report := some run
        root := some run.root
        fault := none
        log := log ++ [⟨.info, "Unnested '" ++ originText document ++ "': " ++ Text.ofNat run.made.length ++
          " externalizations in " ++ Text.ofNat run.passes ++ " passes"⟩] }

end Document
end SchemaUnnest
