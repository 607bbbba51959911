import ZoneDemand.Program

/-!
# The command

Reads the arguments, the environment and the files below the current directory,
runs the program on them, and writes back what it changed.  Files elsewhere are not
seen by a run.
-/

namespace ZoneDemand
namespace Console

def usageText : String :=
  "Usage: pickups2deepar [OPTIONS] [COMMAND]\n\n" ++
  "Commands:\n" ++
  "  run    Stage, build and upload the datasets (default)\n" ++
  "  build  Build local dataset files from an already staged source file\n" ++
  "  fetch  Stage the raw records locally without building anything\n\n" ++
  "Options:\n" ++
  "  -c, --config <FILE>           Configuration file\n" ++
  "      --source-prefix <PREFIX>  Prefix of the raw pickup records\n" ++
  "      --staging-file <FILE>     Local file the raw records are staged into\n" ++
  "  -o, --output-dir <DIR>        Directory for the dataset files\n" ++
  "  -v, --log-level <LEVEL>       Log level\n" ++
  "  -h, --help                    Print help\n" ++
  "  -V, --version                 Print version"

def ownKeys : List String :=
  ["CONFIG", "CONFIG_CONTENT"] ++ Settings.overrides.filterMap fun o =>
    match o.source with
    | .own key => some key
    | .fallback .. => none

def sharedNames : List String :=
  Settings.overrides.filterMap fun o =>
    match o.source with
    | .own _ => none
    | .fallback name _ => some name

def readVariables (names : List String) : IO (List (String × String)) :=
  names.filterMapM fun name => do
    pure ((← IO.getEnv name).map fun value => (name, value))

def readEnvironment : IO Environment := do
  let own ← readVariables (ownKeys.map Environment.fullName)
  let shared ← readVariables sharedNames
  pure (.ofVariables (own ++ shared))

def readTree : IO FileTree := do
  let here ← IO.currentDir
  let location := here.components.filter (· ≠ "")
  let mut entries := (List.range location.length).map fun n =>
    (location.take (n + 1), Node.directory)
  for path in ← here.walkDir do
    let node ←
      if ← path.isDir then pure Node.directory
      else pure (Node.file (← IO.FS.readBinFile path).toList)
    entries := entries ++ [(path.components.filter (· ≠ ""), node)]
  pure ⟨location, entries⟩

def absolutePath (location : Location) : String := "/" ++ "/".intercalate location

/-- Makes the files what the tree says, given what they were. -/
def writeTree (before after : FileTree) : IO Unit := do
  for (location, node) in before.entries do
    if (after.node? location).isNone && node ≠ .directory then
      IO.FS.removeFile (absolutePath location)
  for (location, node) in after.entries do
    if before.node? location ≠ some node then
      match node with
      | .directory => IO.FS.createDirAll (absolutePath location)
      | .file content => IO.FS.writeBinFile (absolutePath location) ⟨content.toArray⟩

def entryText (entry : Entry) : String :=
  let details := entry.details.map fun (name, value) => s!" {name}={value}"
  s!"{entry.severity.name}: {entry.message}{String.join details}"

def failureText (failure : Failure) : String :=
  match failure.messages with
  | [] => "Error"
  | text :: causes => "\n".intercalate (s!"Error: {text}" :: causes.map fun c => s!"  {c}")

/-- Runs the program; answers its exit code. -/
def perform (line : CommandLine) : IO UInt32 := do
  let env ← readEnvironment
  let before ← readTree
  let world := { World.initial with files := before }
  let (outcome, after) := (Program.execute line env).run.run world
  writeTree before after.files
  for entry in after.journal.shownAt (Program.shownLevel line env world) do
    IO.eprintln (entryText entry)
  match outcome with
  | .ok () => pure 0
  | .error failure => do
      IO.eprintln (failureText failure)
      pure 1

end Console
end ZoneDemand

def main (arguments : List String) : IO UInt32 := do
  match ZoneDemand.CommandLine.parse arguments with
  | .ok line => ZoneDemand.Console.perform line
  | .error .help => do
      IO.println ZoneDemand.Console.usageText
      pure 0
  | .error .version => do
      IO.println s!"pickups2deepar {ZoneDemand.Settings.version}"
      pure 0
  | .error .usage => do
      IO.eprintln ZoneDemand.Console.usageText
      pure 2
