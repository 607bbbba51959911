import ZoneDemand.Program
import ZoneDemand.Proofs.Settings.Stems
import ZoneDemand.Proofs.Settings.Variables

/-!
# The layers of the settings

One document at most is read, the first that is there.  Over what its keys set come the
values of the environment and over these the values of the command line, setting by setting;
the whole is accepted exactly if the document and all values with a type can be read and the
settings that result have no fault.  One default does not come through: a storage section in
the document takes the default directory away.
-/

namespace ZoneDemand

namespace Settings

/-! ## The document -/

/-- The entries of the document at a source.  Where there is none, nothing is set. -/
inductive DocumentSource.Holds (tree : FileTree) : DocumentSource → Toml.Entries → Prop
  | absent : Holds tree .absent []
  | text {text : String} {entries : Toml.Entries} (hparse : Toml.parse text = some entries) :
      Holds tree (.variable text) entries
  | file {path text : String} {entries : Toml.Entries} (hread : tree.readText path = .ok text)
      (hparse : Toml.parse text = some entries) : Holds tree (.file path) entries

/-- What the document at a source sets. -/
def DocumentSource.Sets (tree : FileTree) (source : DocumentSource) (d : DocumentLayer) : Prop :=
  ∃ entries, source.Holds tree entries ∧ d.FromEntries entries

theorem ofSource_eq_ok_iff_entries {tree : FileTree} {source : DocumentSource} {s : Settings} :
    ofSource tree source = .ok s ↔
      ∃ entries, source.Holds tree entries ∧ ofEntries? entries = some s := by
  constructor
  · intro hok
    rcases source with path | text | _
    · simp only [ofSource] at hok
      cases hread : tree.readText path with
      | error fault => simp [hread] at hok
      | ok text =>
          cases hdocument : ofDocument? text with
          | none => simp [hread, hdocument] at hok
          | some base =>
              simp only [hread, hdocument, Except.ok.injEq] at hok
              obtain ⟨entries, hparse, hentries⟩ := Option.bind_eq_some_iff.mp hdocument
              exact ⟨entries, .file hread hparse, hok ▸ hentries⟩
    · simp only [ofSource] at hok
      cases hdocument : ofDocument? text with
      | none => simp [hdocument] at hok
      | some base =>
          simp only [hdocument, Except.ok.injEq] at hok
          obtain ⟨entries, hparse, hentries⟩ := Option.bind_eq_some_iff.mp hdocument
          exact ⟨entries, .text hparse, hok ▸ hentries⟩
    · exact ⟨[], .absent, congrArg some (Except.ok.inj hok)⟩
  · rintro ⟨entries, hholds, hentries⟩
    cases hholds with
    | absent => exact congrArg Except.ok (Option.some.inj hentries)
    | text hparse => simp [ofSource, ofDocument?, hparse, hentries]
    | file hread hparse => simp [ofSource, ofDocument?, hread, hparse, hentries]

theorem ofSource_eq_ok_iff {tree : FileTree} {source : DocumentSource} {s : Settings} :
    ofSource tree source = .ok s ↔ ∃ d, source.Sets tree d ∧ s = d.settings := by
  rw [ofSource_eq_ok_iff_entries]
  simp only [ofEntries?_eq_some_iff]
  constructor
  · rintro ⟨entries, hholds, d, hd, hs⟩
    exact ⟨d, ⟨entries, hholds, hd⟩, hs⟩
  · rintro ⟨d, ⟨entries, hholds, hd⟩, hs⟩
    exact ⟨entries, hholds, d, hd, hs⟩

theorem DocumentSource.Sets.unique {tree : FileTree} {source : DocumentSource}
    {d other : DocumentLayer} (hd : source.Sets tree d) (hother : source.Sets tree other) :
    d.settings = other.settings := by
  have hok := ofSource_eq_ok_iff.mpr ⟨d, hd, rfl⟩
  rw [ofSource_eq_ok_iff.mpr ⟨other, hother, rfl⟩, Except.ok.injEq] at hok
  exact hok.symm

/-- All documents that are there, the one that counts first. -/
def documents (asked : Option String) (env : Environment) (tree : FileTree) :
    List DocumentSource :=
  asked.toList.map .file ++ (env.own? "CONFIG").toList.map .file ++
    (env.own? "CONFIG_CONTENT").toList.map .variable ++ (usualFiles.filter tree.exists?).map .file

def firstDocument (asked : Option String) (env : Environment) (tree : FileTree) :
    DocumentSource :=
  (documents asked env tree).head?.getD .absent

theorem documentSource_eq (asked : Option String) (env : Environment) (tree : FileTree) :
    documentSource asked env tree = firstDocument asked env tree := by
  unfold documentSource firstDocument documents
  cases asked with
  | some path => rfl
  | none =>
      cases env.own? "CONFIG" with
      | some path => rfl
      | none =>
          cases env.own? "CONFIG_CONTENT" with
          | some text => rfl
          | none =>
              simp only [Option.toList_none, List.map_nil, List.nil_append, List.head?_map,
                List.head?_filter]
              cases usualFiles.find? tree.exists? <;> rfl

theorem ofLayers_eq_ok_iff {asked : Option String} {env : Environment} {tree : FileTree}
    {s : Settings} :
    ofLayers asked env tree = .ok s ↔ ∃ d, (firstDocument asked env tree).Sets tree d ∧
      env.Readable ∧ s = (d.settings.overridden env).normalize := by
  have happlies := applies_overrides env
  unfold ofLayers
  rw [documentSource_eq]
  cases hsource : ofSource tree (firstDocument asked env tree) with
  | error failure =>
      constructor
      · intro h
        contradiction
      · rintro ⟨d, hd, -⟩
        rw [ofSource_eq_ok_iff.mpr ⟨d, hd, rfl⟩] at hsource
        contradiction
  | ok base =>
      obtain ⟨d, hd, rfl⟩ := ofSource_eq_ok_iff.mp hsource
      by_cases hreadable : env.Readable
      · simp only [override, happlies.taken hreadable, Except.ok.injEq]
        constructor
        · intro hs
          exact ⟨d, hd, hreadable, hs.symm⟩
        · rintro ⟨other, hother, -, hs⟩
          rw [hs, hd.unique hother]
      · obtain ⟨fault, hfault⟩ := happlies.refused hreadable d.settings
        constructor
        · intro h
          simp only [override] at h
          generalize applyAll env overrides d.settings = first at h hfault
          obtain ⟨changed, stop⟩ := first
          simp only at hfault
          subst hfault
          contradiction
        · rintro ⟨-, -, hother, -⟩
          contradiction

end Settings

/-! ## What is not read -/

/-- The same variables but for those that tell where the document is. -/
structure Environment.AgreesWith (env other : Environment) : Prop where
  own : ∀ key, key ≠ "CONFIG" → key ≠ "CONFIG_CONTENT" → other.own? key = env.own? key
  shared : other.shared? "AWS_REGION" = env.shared? "AWS_REGION"

namespace Settings

/-- A file at the source has the same text. -/
def DocumentSource.SameIn (tree other : FileTree) (source : DocumentSource) : Prop :=
  ∀ path, source = .file path → other.readText path = tree.readText path

theorem applyAll_congr {env other : Environment} {os : List Override}
    (hvalue : ∀ o ∈ os, o.source.value? other = o.source.value? env) (s : Settings) :
    applyAll other os s = applyAll env os s := by
  induction os generalizing s with
  | nil => rfl
  | cons o os ih =>
      have hfirst : o.apply other s = o.apply env s := by
        rw [Override.apply, hvalue o List.mem_cons_self]
        rfl
      rw [applyAll, applyAll, hfirst]
      cases o.apply env s with
      | ok changed => exact ih (fun o ho => hvalue o (List.mem_cons_of_mem _ ho)) changed
      | error fault => rfl

theorem override_of_agreesWith {env other : Environment} (hagree : env.AgreesWith other)
    (s : Settings) : s.override other = s.override env := by
  refine applyAll_congr (fun o ho => ?_) s
  have hkey := hagree.own
  simp only [overrides, sourceOverrides, datasetOverrides, resampleOverrides, storageOverrides,
    loggingOverrides, List.cons_append, List.nil_append, List.mem_cons, List.not_mem_nil,
    or_false] at ho
  rcases ho with rfl | rfl | rfl | rfl | rfl | rfl | rfl | rfl | rfl | rfl | rfl | rfl | rfl | rfl |
    rfl | rfl | rfl | rfl | rfl
  all_goals
    simp [Override.ofText, Override.ofNumber, Override.ofFlag, Override.ofChoice,
      Variable.value?, hkey, hagree.shared]

theorem ofSource_of_sameIn {tree other : FileTree} {source : DocumentSource}
    (hsame : source.SameIn tree other) : ofSource other source = ofSource tree source := by
  rcases source with path | text | _
  · simp only [ofSource, hsame path rfl]
  · rfl
  · rfl

theorem ofLayers_of_agreesWith {asked : Option String} {env other : Environment}
    {tree otherTree : FileTree} (hagree : env.AgreesWith other)
    (hfirst : firstDocument asked other otherTree = firstDocument asked env tree)
    (hsame : (firstDocument asked env tree).SameIn tree otherTree) :
    ofLayers asked other otherTree = ofLayers asked env tree := by
  unfold ofLayers
  rw [documentSource_eq, documentSource_eq, hfirst, ofSource_of_sameIn hsame]
  simp only [override_of_agreesWith hagree]

end Settings

/-! ## The whole -/

namespace CommandLine

def sourceLayer (line : CommandLine) : SourceLayer where
  stem := line.value? .sourceStem
  stagingFile := line.value? .stagingFile
  chunkBytes := none

def datasetLayer (line : CommandLine) : DatasetLayer where
  stem := none
  trainFile := none
  testFile := none
  outputDirectory := line.value? .outputDirectory
  horizon := none
  categories := none

def loggingLayer (line : CommandLine) : LoggingLayer where
  level := line.value? .logLevel
  format := none

/-- The settings of the command line over those of the environment over a base. -/
def assembled (line : CommandLine) (env : Environment) (v : VariableLayer) (base : Settings) :
    Settings where
  source := (line.sourceLayer.over (v.source.over base.source)).normalize
  dataset := (line.datasetLayer.over (v.dataset.over base.dataset)).normalize
  resample := v.resample.over base.resample
  storage := env.storageOver v.backend base.storage
  logging := line.loggingLayer.over (v.logging.over base.logging)

theorem normalize_applyTo (line : CommandLine) {env : Environment} {v : VariableLayer}
    (hv : env.Sets v) (base : Settings) :
    (line.applyTo (base.overridden env).normalize).normalize = line.assembled env v base := by
  have hstem : sourceStem ((line.value? .sourceStem).getD
      (sourceStem ((v.source.stem.map sourceStem).getD base.source.stem))) =
        sourceStem ((line.value? .sourceStem).getD (v.source.stem.getD base.source.stem)) := by
    cases line.value? .sourceStem <;> cases v.source.stem <;> simp
  have hdataset : datasetStem (datasetStem
      ((v.dataset.stem.map datasetStem).getD base.dataset.stem)) =
        datasetStem (v.dataset.stem.getD base.dataset.stem) := by
    cases v.dataset.stem <;> simp
  rw [Settings.overridden_of_sets hv]
  unfold assembled
  simp only [SourceSettings.normalize, DatasetSettings.normalize, SourceLayer.over,
    DatasetLayer.over, sourceLayer, datasetLayer, Option.getD_none]
  rw [← hstem, ← hdataset]
  rfl

theorem reports_validate (s : Settings) (w : World) :
    s.validate.Reports w
      (match s.fault? with
        | some fault => .error (.ofCause (.setting fault))
        | none => .ok ()) := by
  unfold Settings.validate
  refine Action.Reports.after_report fun later => ?_
  cases s.fault? with
  | some fault => exact ⟨[], by simp⟩
  | none => exact Action.reports_pure () _

/-- What resolving answers, from the layers below the command line. -/
def outcomeOf (line : CommandLine) (layers : Except Failure Settings) : Except Failure Settings :=
  layers.mapError (·.during (.loadingSettings (line.value? .settings))) >>= fun base =>
    match (line.applyTo base).normalize.fault? with
    | some fault => .error (.ofCause (.setting fault))
    | none => .ok (line.applyTo base).normalize

theorem reports_resolve (line : CommandLine) (env : Environment) (w : World) :
    (line.resolve env).Reports w
      (line.outcomeOf (Settings.ofLayers (line.value? .settings) env w.files)) := by
  unfold resolve
  refine Action.Reports.after_get ?_
  refine ((Action.reports_ofExcept _ w).mapFailure _).bind fun base entries => ?_
  have hvalidated := (reports_validate (line.applyTo base).normalize (w.report entries)).bind
    fun _ later => Action.reports_pure (line.applyTo base).normalize _
  cases hfault : (line.applyTo base).normalize.fault? <;> simpa [hfault] using hvalidated

theorem outcomeOf_eq_ok_iff {line : CommandLine} {layers : Except Failure Settings}
    {s : Settings} :
    line.outcomeOf layers = .ok s ↔ ∃ base, layers = .ok base ∧
      (line.applyTo base).normalize.fault? = none ∧ s = (line.applyTo base).normalize := by
  unfold outcomeOf
  rw [bind_eq_ok_iff]
  refine exists_congr fun base => ?_
  rw [mapError_eq_ok_iff]
  refine and_congr_right fun _ => ?_
  cases (line.applyTo base).normalize.fault? with
  | some fault => simp
  | none => simp [eq_comm]

/-- The document that counts. -/
def document (line : CommandLine) (env : Environment) (w : World) : Settings.DocumentSource :=
  Settings.firstDocument (line.value? .settings) env w.files

section Resolve

variable (line : CommandLine) (env : Environment) (w : World)

theorem resolve_eq_ok_iff (s : Settings) :
    ((line.resolve env).on w).1 = .ok s ↔
      ∃ d v, (line.document env w).Sets w.files d ∧ env.Sets v ∧
        (line.assembled env v d.settings).fault? = none ∧
        s = line.assembled env v d.settings := by
  obtain ⟨entries, hon⟩ := line.reports_resolve env w
  rw [hon, outcomeOf_eq_ok_iff]
  simp only [Settings.ofLayers_eq_ok_iff, readable_iff_sets]
  constructor
  · rintro ⟨-, ⟨d, hd, ⟨v, hv⟩, rfl⟩, hfault, hs⟩
    rw [normalize_applyTo line hv] at hfault hs
    exact ⟨d, v, hd, hv, hfault, hs⟩
  · rintro ⟨d, v, hd, hv, hfault, hs⟩
    rw [← normalize_applyTo line hv] at hfault hs
    exact ⟨_, ⟨d, hd, ⟨v, hv⟩, rfl⟩, hfault, hs⟩

theorem assembled_unique {v other : VariableLayer} (hv : env.Sets v) (hother : env.Sets other)
    (base : Settings) : line.assembled env v base = line.assembled env other base := by
  rw [← normalize_applyTo line hv, normalize_applyTo line hother]

theorem resolve_eq_error_iff :
    (∃ failure, ((line.resolve env).on w).1 = .error failure) ↔
      (¬∃ d, (line.document env w).Sets w.files d) ∨ (¬∃ v, env.Sets v) ∨
        ∃ d v, (line.document env w).Sets w.files d ∧ env.Sets v ∧
          (line.assembled env v d.settings).fault? ≠ none := by
  have hok := line.resolve_eq_ok_iff env w
  constructor
  · rintro ⟨failure, hfailure⟩
    have hnot : ∀ s, ((line.resolve env).on w).1 ≠ .ok s := by
      intro s
      rw [hfailure]
      simp
    by_cases hdocument : ∃ d, (line.document env w).Sets w.files d
    · obtain ⟨d, hd⟩ := hdocument
      by_cases henv : ∃ v, env.Sets v
      · obtain ⟨v, hv⟩ := henv
        refine .inr (.inr ⟨d, v, hd, hv, fun hfault => ?_⟩)
        exact hnot _ ((hok _).mpr ⟨d, v, hd, hv, hfault, rfl⟩)
      · exact .inr (.inl henv)
    · exact .inl hdocument
  · intro hcause
    cases hanswer : ((line.resolve env).on w).1 with
    | error failure => exact ⟨failure, rfl⟩
    | ok s =>
        obtain ⟨d, v, hd, hv, hfault, -⟩ := (hok s).mp hanswer
        rcases hcause with hnone | hunreadable | ⟨other, w, hother, hw, hfaulty⟩
        · exact absurd ⟨d, hd⟩ hnone
        · exact absurd ⟨v, hv⟩ hunreadable
        · rw [hother.unique hd, assembled_unique line env hw hv] at hfaulty
          exact absurd hfault hfaulty

/-- The document takes the default directory away: it has a storage section that names none,
and the environment names none either. -/
def LosesDirectory (env : Environment) (d : DocumentLayer) : Prop :=
  env.own? "STORAGE_PATH" = none ∧ ∃ s, d.storage = some s ∧ s.directory = none

/-- The settings with the directory, too, from the first layer that names it or by default. -/
def keyByKey (v : VariableLayer) (d : DocumentLayer) : Settings :=
  let s := line.assembled env v d.settings
  { s with
    storage :=
      { s.storage with
        directory :=
          some ⟨(env.own? "STORAGE_PATH" <|> d.path?).getD DirectorySettings.default.path⟩ } }

omit w in
theorem assembled_eq_keyByKey_iff (v : VariableLayer) (d : DocumentLayer) :
    line.assembled env v d.settings = line.keyByKey env v d ↔ ¬LosesDirectory env d := by
  have hdirectory : line.assembled env v d.settings = line.keyByKey env v d ↔
      (line.assembled env v d.settings).storage.directory =
        some ⟨(env.own? "STORAGE_PATH" <|> d.path?).getD DirectorySettings.default.path⟩ := by
    constructor
    · intro h
      rw [h]
      rfl
    · intro h
      rw [keyByKey, ← h]
  rw [hdirectory]
  unfold LosesDirectory DocumentLayer.path?
  simp only [assembled, Environment.storageOver, DocumentLayer.settings]
  cases env.own? "STORAGE_PATH" with
  | some path => simp
  | none =>
      cases d.storage with
      | none => simp [StorageSettings.default]
      | some s => cases hnamed : s.directory <;> simp [hnamed]

/-- Resolving reads the first document that is there and no other, and answers the settings
that the command line, the environment, the document and the defaults assemble, unless
something cannot be read or the whole has a fault.  All of them come key by key exactly if the
document does not take the default directory away. -/
theorem resolve_layers :
    (∀ s, ((line.resolve env).on w).1 = .ok s ↔
      ∃ d v, (line.document env w).Sets w.files d ∧ env.Sets v ∧
        (line.assembled env v d.settings).fault? = none ∧
        s = line.assembled env v d.settings) ∧
    ((∃ failure, ((line.resolve env).on w).1 = .error failure) ↔
      (¬∃ d, (line.document env w).Sets w.files d) ∨ (¬∃ v, env.Sets v) ∨
        ∃ d v, (line.document env w).Sets w.files d ∧ env.Sets v ∧
          (line.assembled env v d.settings).fault? ≠ none) ∧
    (∀ d v, line.assembled env v d.settings = line.keyByKey env v d ↔ ¬LosesDirectory env d) ∧
    (∀ other u, env.AgreesWith other → (line.document env w).SameIn w.files u.files →
      line.document other u = line.document env w →
        ((line.resolve other).on u).1 = ((line.resolve env).on w).1) ∧
    ((line.resolve env).on w).2.files = w.files ∧
    ((line.resolve env).on w).2.store = w.store := by
  obtain ⟨entries, hon⟩ := line.reports_resolve env w
  refine ⟨line.resolve_eq_ok_iff env w, line.resolve_eq_error_iff env w,
    fun d v => line.assembled_eq_keyByKey_iff env v d, ?_, ?_, ?_⟩
  · intro other u hagree hsame hfirst
    obtain ⟨others, hother⟩ := line.reports_resolve other u
    rw [hon, hother, Settings.ofLayers_of_agreesWith hagree hfirst hsame]
  · rw [hon]
    exact World.files_report w entries
  · rw [hon]
    exact World.store_report w entries

end Resolve

/-! ## Three layers -/

/-- A directory with a document in one of the usual files. -/
def worldWith (document : String) : World :=
  { World.initial with
    files :=
      ⟨["work"], [(["work"], .directory),
        (["work", "config.toml"], .file (Utf8.encode document))]⟩ }

def nightDocument : String :=
  "[source]\nprefix = \"taxi\"\nstaging_file = \"day.csv\"\n\n" ++
  "[resample]\nstep_secs = 900\npolicy = \"bucket\"\n\n" ++
  "[storage]\nbackend = \"fs\"\nfs.path = \"/data/pickups\"\n"

def nightVariables : Environment :=
  .ofKeys [("STAGING_FILE", "night.csv"), ("RESAMPLE_STEP_SECS", "+300"), ("LOG_FORMAT", "JSON")] []

def nightLine : CommandLine where
  command := none
  value?
    | .stagingFile => some "tonight.csv"
    | _ => none

def nightSettings : Settings where
  source := ⟨"taxi/", "tonight.csv", 8388608⟩
  dataset := .default
  resample := ⟨300, .bucketed⟩
  storage := ⟨.directory, some ⟨"/data/pickups"⟩, none⟩
  logging := ⟨"info", .json⟩

theorem nightLine_resolve :
    ((nightLine.resolve nightVariables).on (worldWith nightDocument)).1 = .ok nightSettings := by
  have hdocument : Settings.ofSource (worldWith nightDocument).files
      (nightLine.document nightVariables (worldWith nightDocument)) =
        .ok
          { source := ⟨"taxi", "day.csv", 8388608⟩
            dataset := .default
            resample := ⟨900, .bucketed⟩
            storage := ⟨.directory, some ⟨"/data/pickups"⟩, none⟩
            logging := .default } := by decide +kernel
  obtain ⟨d, hd, hbase⟩ := Settings.ofSource_eq_ok_iff.mp hdocument
  have hv : nightVariables.Sets
      { source := ⟨none, some "night.csv", none⟩
        dataset := ⟨none, none, none, none, none, none⟩
        resample := ⟨some 300, none⟩
        backend := none
        logging := ⟨none, some .json⟩ } :=
    { sourceStem := rfl
      stagingFile := rfl
      chunkBytes := .none
      datasetStem := rfl
      trainFile := rfl
      testFile := rfl
      outputDirectory := rfl
      horizon := .none
      categories := .none
      stepSeconds := .some (countOf?_eq_some_iff.mp rfl)
      policy := .none
      backend := .none
      level := rfl
      format := .some ⟨"json", by decide, by decide⟩ }
  obtain ⟨hok, -⟩ := resolve_layers nightLine nightVariables (worldWith nightDocument)
  refine (hok nightSettings).mpr ⟨d, _, hd, hv, ?_, ?_⟩
  · rw [← hbase]
    decide +kernel
  · rw [← hbase]
    decide +kernel

/-- A document that names the backend and leaves the directory to its default. -/
def backendDocument : String := "[storage]\nbackend = \"fs\"\n"

def bareLine : CommandLine := ⟨none, fun _ => none⟩

/-- The layer of an environment without variables. -/
def nothingSet : VariableLayer where
  source := ⟨none, none, none⟩
  dataset := ⟨none, none, none, none, none, none⟩
  resample := ⟨none, none⟩
  backend := none
  logging := ⟨none, none⟩

/-- The document and the environment can be read, and the settings that they lead to key by
key have no fault, and yet resolving fails. -/
theorem backendDocument_refused :
    (∃ d v, (bareLine.document .empty (worldWith backendDocument)).Sets
        (worldWith backendDocument).files d ∧ Environment.empty.Sets v ∧
      (bareLine.keyByKey .empty v d).fault? = none) ∧
    ∃ failure, ((bareLine.resolve .empty).on (worldWith backendDocument)).1 = .error failure := by
  have hdocument : Settings.ofSource (worldWith backendDocument).files
      (bareLine.document .empty (worldWith backendDocument)) =
        .ok { Settings.default with storage := ⟨.directory, none, none⟩ } := by decide +kernel
  obtain ⟨d, hd, hbase⟩ := Settings.ofSource_eq_ok_iff.mp hdocument
  have hstorage : d.storage = some ⟨.directory, none, none⟩ := by
    have hsettings : d.storage.getD .default = ⟨.directory, none, none⟩ :=
      (congrArg Settings.storage hbase).symm
    cases hs : d.storage with
    | none =>
        rw [hs] at hsettings
        contradiction
    | some s =>
        rw [hs, Option.getD_some] at hsettings
        rw [hsettings]
  have hv : Environment.empty.Sets nothingSet :=
    ⟨rfl, rfl, .none, rfl, rfl, rfl, rfl, .none, .none, .none, .none, .none, rfl, .none⟩
  refine ⟨⟨d, nothingSet, hd, hv, ?_⟩, ?_⟩
  · rw [keyByKey, DocumentLayer.path?, ← hbase, hstorage]
    decide +kernel
  · refine (bareLine.resolve_eq_error_iff .empty (worldWith backendDocument)).mpr
      (.inr (.inr ⟨d, nothingSet, hd, hv, ?_⟩))
    rw [← hbase]
    decide +kernel

end CommandLine
end ZoneDemand
