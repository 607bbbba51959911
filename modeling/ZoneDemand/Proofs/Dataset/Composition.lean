import ZoneDemand.Pipeline
import ZoneDemand.Proofs.FileTree.Places

/-!
# The dataset as a function of the staged content

What a build does before it writes is a function of the content of the staged file and of
the settings.  All that the stages do besides is to report.
-/

namespace ZoneDemand

/-- Both halves of the dataset of a staged content, and what became of its pickups. -/
def Split.ofContent (content : Bytes) (step : Step) (policy : ResamplePolicy) (horizon : Nat) :
    Except DataError (Split × ResampleStats) := do
  let table ← PickupTable.ofBytes content
  let zones ← ZoneSet.ofTable table
  let resampled ← resample table zones step policy
  let halves ← Split.ofSeries resampled.series horizon
  pure (halves, resampled.stats)

namespace Transform

open ZoneDemand.Action

def loaded (files : FileTree) (path : String) : Except DataError PickupTable :=
  match files.stat path with
  | .error fault => .error (.file path fault)
  | .ok .directory => .error (.reading .isDirectory)
  | .ok (.file content) => PickupTable.ofBytes content

theorem reports_readTable (content : Bytes) (w : World) :
    (readTable content).Reports w (PickupTable.ofBytes content) := by
  have hread : PickupTable.ofBytes content =
      Pickup.ofBytes content >>= fun pickups => .ok (PickupTable.ofList pickups) := by
    unfold PickupTable.ofBytes
    cases Pickup.ofBytes content <;> rfl
  rw [hread]
  refine (reports_ofExcept _ w).bind fun pickups entries => ?_
  refine .after_report fun _ => .after_report fun _ => .after_report fun _ => ?_
  simp only [World.report_report]
  exact reports_pure _ _

/-- The table in what stands at a path. -/
def tableIn : Node → Except DataError PickupTable
  | .directory => .error (.reading .isDirectory)
  | .file content => PickupTable.ofBytes content

theorem reports_loadTable (path : String) (w : World) :
    (loadTable path).Reports w (loaded w.files path) := by
  have hloaded : loaded w.files path =
      (w.files.stat path).mapError (DataError.file path) >>= tableIn := by
    unfold loaded
    cases w.files.stat path with
    | error fault => rfl
    | ok node => cases node <;> rfl
  rw [hloaded]
  refine .after_get ((reports_ofExcept _ w).bind fun node entries => .after_report fun later => ?_)
  cases node with
  | directory => exact reports_ofExcept _ _
  | file content => exact reports_readTable content _

theorem reports_enumerate (table : PickupTable) (w : World) :
    (enumerate table).Reports w (ZoneSet.ofTable table) := by
  rw [← bind_pure (ZoneSet.ofTable table)]
  exact (reports_ofExcept _ w).bind fun zones _ => .after_report fun _ => reports_pure zones _

theorem reports_resample (table : PickupTable) (zones : ZoneSet) (step : Step)
    (policy : ResamplePolicy) (w : World) :
    (resample table zones step policy).Reports w (ZoneDemand.resample table zones step policy) := by
  rw [← bind_pure (ZoneDemand.resample table zones step policy)]
  exact (reports_ofExcept _ w).bind fun r _ => .after_report fun _ => reports_pure r _

theorem reports_split (series : List Series) (horizon : Nat) (w : World) :
    (split series horizon).Reports w (Split.ofSeries series horizon) := by
  rw [← bind_pure (Split.ofSeries series horizon)]
  exact (reports_ofExcept _ w).bind fun halves _ => .after_report fun _ => reports_pure halves _

end Transform

namespace Pipeline

open ZoneDemand.Action

/-- What the stages before the first write answer on a file tree. -/
def splitOutcome (s : Settings) (files : FileTree) : Except Failure (Split × ResampleStats) := do
  let table ← ((Transform.loaded files s.source.stagingFile).mapError fun e =>
    Failure.ofCause (.data e)).mapError (·.during (.loadingRecords s.source.stagingFile))
  let zones ← ((ZoneSet.ofTable table).mapError fun e => Failure.ofCause (.data e)).mapError
    (·.during .enumeratingZones)
  let step ← stepOf s.resample
  let resampled ← (resample table zones step s.resample.policy).mapError fun e =>
    Failure.ofCause (.data e)
  let halves ← (Split.ofSeries resampled.series s.dataset.horizon).mapError fun e =>
    Failure.ofCause (.data e)
  pure (halves, resampled.stats)

/-- The stages before the first write change nothing but the journal. -/
theorem reports_splitDataset (s : Settings) (w : World) :
    (splitDataset s).Reports w (splitOutcome s w.files) := by
  refine ((Transform.reports_loadTable s.source.stagingFile w).mapFailure _ |>.mapFailure _).bind
    fun table entries => ?_
  refine ((Transform.reports_enumerate table _).mapFailure _ |>.mapFailure _).bind
    fun zones entries => ?_
  refine (reports_ofExcept (stepOf s.resample) _).bind fun step entries => ?_
  refine ((Transform.reports_resample table zones step s.resample.policy _).mapFailure _).bind
    fun resampled entries => ?_
  refine ((Transform.reports_split resampled.series s.dataset.horizon _).mapFailure _).bind
    fun halves entries => ?_
  exact reports_pure _ _

theorem loaded_eq_ok_iff {files : FileTree} {path : String} {table : PickupTable} :
    Transform.loaded files path = .ok table ↔
      ∃ content, files.read path = .ok content ∧ PickupTable.ofBytes content = .ok table := by
  unfold Transform.loaded FileTree.read
  cases files.stat path with
  | error fault => simp
  | ok node => cases node <;> simp

theorem splitOutcome_eq_ok_iff {s : Settings} {files : FileTree} {result : Split × ResampleStats} :
    splitOutcome s files = .ok result ↔
      ∃ content step, files.read s.source.stagingFile = .ok content ∧
        stepOf s.resample = .ok step ∧
        Split.ofContent content step s.resample.policy s.dataset.horizon = .ok result := by
  simp only [splitOutcome, Split.ofContent, bind_eq_ok_iff, mapError_eq_ok_iff,
    loaded_eq_ok_iff, pure_eq_ok, Except.ok.injEq]
  constructor
  · rintro ⟨table, ⟨content, hread, htable⟩, zones, hzones, step, hstep, hrest⟩
    exact ⟨content, step, hread, hstep, table, htable, zones, hzones, hrest⟩
  · rintro ⟨content, step, hread, hstep, table, htable, zones, hzones, hrest⟩
    exact ⟨table, ⟨content, hread, htable⟩, zones, hzones, step, hstep, hrest⟩

end Pipeline
end ZoneDemand
