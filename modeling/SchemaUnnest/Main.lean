import SchemaUnnest.CommandLine

namespace SchemaUnnest.Main

def string (text : Text) : String :=
  String.ofList (text.map fun c => if c.isSurrogate then '\uFFFD' else Char.ofNat c.value)

def pathString (location : Location) : String := "/" ++ string (Text.join "/" location)

/-- Notes what stands at a location. A directory gives itself away when it is read as a file. -/
def observe (fs : FileSystem) (location : Location) : IO FileSystem := do
  let note (entry : FileEntry) : FileSystem := { fs with entries := Entries.set location entry fs.entries }
  try
    return note (.file (← IO.FS.readBinFile (pathString location)).toList)
  catch
    | .inappropriateType .. => return note .directory
    | _ => return fs

def observeAlong (fs : FileSystem) (location : Location) : List Text → IO FileSystem
  | [] => return fs
  | name :: rest => do
    let next := if name = ".." then location.dropLast else location ++ [name]
    observeAlong (← observe fs next) next rest

def observePath (fs : FileSystem) (path : Text) : IO FileSystem :=
  let start := if PathStart.ofText path = .here then fs.current else []
  observeAlong fs start (FilePath.names path)

def paths : CommandLine.Request → List Text
  | .sanitize files ending _ _ _ => files.flatMap fun file =>
    match (FilePath.ofText file).withName ((FilePath.ofText file).name ++ ending) with
    | .ok output => [file, output.text]
    | .error _ => [file]
  | .stats file _ => [file]
  | .version | .help => []

def snapshot (arguments : List Text) : IO FileSystem := do
  let current := FilePath.names (.ofString (← IO.currentDir).toString)
  let bare ← observeAlong ⟨[], current⟩ [] current
  match CommandLine.readArguments arguments with
  | .error _ => return bare
  | .ok request => (paths request).foldlM observePath bare

def store (before after : FileSystem) : IO Unit :=
  after.entries.forM fun (location, entry) =>
    match entry with
    | .directory => pure ()
    | .file content =>
      if before.lookup location = some entry then pure ()
      else IO.FS.writeBinFile (pathString location) ⟨content.toArray⟩

def memory : IO (Option Binary64) := do
  try
    let counts := Text.splitOn ' ' (.ofString (← IO.FS.readFile "/proc/self/statm"))
    match (counts[1]?).bind Text.toInt? with
    | some pages => return some (Binary64.ofQuotient false (pages.toNat * 4096 * Binary64.unitsOfOne) (1024 * 1024))
    | none => return none
  catch _ => return none

/-- Texts are refused long before the stack gives out, and no schema that is read is too deep to be copied. -/
def stack : Stack := ⟨1000, .unbounded⟩

def reading : IO Reading := do
  return ⟨.ofDecimal false (← IO.monoMsNow) (-3), ← memory⟩

end SchemaUnnest.Main

def main (arguments : List String) : IO UInt32 := do
  let arguments := arguments.map SchemaUnnest.Text.ofString
  let before ← SchemaUnnest.Main.snapshot arguments
  let now ← SchemaUnnest.Main.reading
  let output := SchemaUnnest.CommandLine.run SchemaUnnest.Main.stack (fun _ => ⟨now, now, now⟩) before arguments
  SchemaUnnest.Main.store before output.fs
  IO.eprint (SchemaUnnest.Main.string output.stderr)
  IO.print (SchemaUnnest.Main.string output.stdout)
  match output.fault with
  | some fault => IO.eprintln (SchemaUnnest.Main.string fault.message)
  | none => pure ()
  return output.exitCode.toUInt32
