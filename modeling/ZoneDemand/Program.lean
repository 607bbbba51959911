import ZoneDemand.CommandLine
import ZoneDemand.Pipeline
import ZoneDemand.Settings.Layers
import ZoneDemand.Setup

/-!
# The program

From the arguments and the environment to the settings, and from the settings to
what the command does.  The values of the command line are the last layer of the
settings, and only the whole is validated.
-/

namespace ZoneDemand

namespace CommandLine

/-- The settings with the values of the command line over them. -/
def applyTo (line : CommandLine) (s : Settings) : Settings :=
  { s with
    source :=
      { s.source with
        stem := (line.value? .sourceStem).getD s.source.stem
        stagingFile := (line.value? .stagingFile).getD s.source.stagingFile }
    dataset :=
      { s.dataset with
        outputDirectory := (line.value? .outputDirectory).getD s.dataset.outputDirectory }
    logging :=
      { s.logging with level := (line.value? .logLevel).getD s.logging.level } }

def resolve (line : CommandLine) (env : Environment) : Action Failure Settings := do
  let asked := line.value? .settings
  let files := (← get).files
  let layers ← Pipeline.during (.loadingSettings asked)
    (Action.ofExcept (Settings.ofLayers asked env files))
  let s := (line.applyTo layers).normalize
  s.validate
  pure s

end CommandLine

namespace Program

def outcomeText : StagingOutcome → String
  | .skipped => "Skipped"
  | .downloaded objects bytes =>
      s!"Downloaded \x7b objects: {objects}, bytes: {bytes} \x7d"

/-- Does what the command asks for, which is a full run if there is none. -/
def perform (command : Option Command) (s : Settings) : Action Failure Unit := do
  match command with
  | some .build =>
      let datasets ← Pipeline.build s
      Action.report [.info
        (s!"Wrote {datasets.train.path} ({datasets.train.records} series) and " ++
          s!"{datasets.test.path} ({datasets.test.records} series)") []]
  | some .fetch =>
      s.openStore
      let outcome ← Pipeline.stage s
      Action.report [.info s!"Fetch finished: {outcomeText outcome}" []]
  | some .run | none =>
      s.openStore
      let report ← Pipeline.run s
      Action.report (report.uploaded.map fun key => .info s!"Uploaded {key}" [])

/-- Resolves the settings, summarises them and performs the command. -/
def execute (line : CommandLine) (env : Environment) : Action Failure Unit := do
  let s ← line.resolve env
  s.reportSummary
  perform line.command s

def shownLevel (line : CommandLine) (env : Environment) (world : World) : Severity :=
  match ((line.resolve env).run.run world).1 with
  | .ok s => .ofLevel s.logging.level
  | .error _ => .info

/-- The settings without a command line, validated. -/
def settings (env : Environment) : Action Failure Settings := do
  let files := (← get).files
  let s ← Action.ofExcept (Settings.ofLayers none env files)
  s.validate
  pure s

def runConfigured (env : Environment) : Action Failure PipelineReport := do
  let s ← Pipeline.during (.loadingSettings none) (settings env)
  s.openStore
  Pipeline.run s

end Program
end ZoneDemand
