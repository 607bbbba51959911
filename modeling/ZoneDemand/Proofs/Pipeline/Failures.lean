import ZoneDemand.Proofs.Dataset.Cut
import ZoneDemand.Proofs.Dataset.Loading
import ZoneDemand.Proofs.Dataset.Meaning
import ZoneDemand.Proofs.Pipeline.Run
import ZoneDemand.Proofs.Resample.LeapSeconds

/-!
# Why a build fails

A build stops at the first stage that fails, and each stage has causes of its own.  Under
valid settings all of them lie in the staged data or in the local files but one: validation
accepts every number of seconds but zero as a step, and the build refuses those that no step
can have.
-/

namespace ZoneDemand

/-- The whole seconds of the longest step. -/
def Step.longestSeconds : Nat := 9223372036854775

/-- The errors of data that cannot be read, that are too few, or that the local files do not
give or take. -/
inductive DataError.InDataOrFiles : DataError → Prop where
  | encoding {record field position : Nat} {place : Csv.Place} :
      InDataOrFiles (.encoding record place field position)
  | reading {cause : FileFault} : InDataOrFiles (.reading cause)
  | row {line : Nat} {fault : RowFault} : InDataOrFiles (.row line fault)
  | emptyTable : InDataOrFiles .emptyTable
  | tooShort {geohash : String} {intervals horizon : Nat} :
      InDataOrFiles (.tooShort geohash intervals horizon)
  | file {path : String} {cause : FileFault} : InDataOrFiles (.file path cause)

def Failure.InDataOrFiles (failure : Failure) : Prop :=
  ∃ e : DataError, failure.cause = .data e ∧ e.InDataOrFiles

theorem Csv.Row.FailsWith.inDataOrFiles {row : Csv.Row} {index : Nat} {e : DataError}
    (h : row.FailsWith index e) : e.InDataOrFiles := by
  cases h with
  | encoding => exact .encoding
  | columns => exact .row
  | time => exact .row
  | count => exact .row

namespace Pipeline

/-! ## The step -/

theorem stepSeconds_ne_zero {s : Settings} (hvalid : s.fault? = none) :
    s.resample.stepSeconds ≠ 0 := by
  intro hzero
  have hresample : s.resample.fault? = some .noStep := by
    rw [ResampleSettings.fault?, if_pos hzero]
  unfold Settings.fault? Settings.earlyFault? at hvalid
  cases hsource : s.source.fault? with
  | some fault => simp [hsource] at hvalid
  | none => simp [hsource, dataset_valid hvalid, hresample] at hvalid

theorem ofSeconds?_isSome_iff {n : Nat} :
    (Step.ofSeconds? n).isSome ↔ n ≤ Step.longestSeconds := by
  unfold Step.ofSeconds? Step.ofMillis? Step.longestSeconds
  split <;> simp <;> omega

/-- A step that is not zero is refused exactly if no step is as long. -/
theorem stepOf_cases {s : ResampleSettings} (hzero : s.stepSeconds ≠ 0) :
    (∃ step, stepOf s = .ok step ∧ 1 ≤ step.seconds ∧ s.stepSeconds ≤ Step.longestSeconds) ∨
      stepOf s = .error (.ofCause (.step s.stepSeconds)) ∧
        Step.longestSeconds < s.stepSeconds := by
  unfold stepOf
  rw [if_neg hzero]
  cases hstep : Step.ofSeconds? s.stepSeconds with
  | some step =>
      have hlong : s.stepSeconds ≤ Step.longestSeconds := by
        rw [← ofSeconds?_isSome_iff, hstep]
        rfl
      have hseconds := Step.seconds_of_ofSeconds? hstep
      exact .inl ⟨step, rfl, by omega, hlong⟩
  | none =>
      have hlong : ¬s.stepSeconds ≤ Step.longestSeconds := by
        rw [← ofSeconds?_isSome_iff, hstep]
        simp
      exact .inr ⟨rfl, by omega⟩

/-! ## The stages -/

/-- How a build fails under settings with a step that is not zero. -/
inductive BuildFails (s : Settings) (files : FileTree) : Failure → Prop where
  | unopened {fault : FileFault} (hstat : files.stat s.source.stagingFile = .error fault) :
      BuildFails s files ⟨[.loadingRecords s.source.stagingFile],
        .data (.file s.source.stagingFile fault)⟩
  | directory (hstat : files.stat s.source.stagingFile = .ok .directory) :
      BuildFails s files ⟨[.loadingRecords s.source.stagingFile],
        .data (.reading .isDirectory)⟩
  /-- The first row that is no pickup decides. -/
  | unreadable {content : Bytes} {before after : List Csv.Row} {row : Csv.Row} {e : DataError}
      (hread : files.read s.source.stagingFile = .ok content)
      (hrows : Csv.LaidOut content (before ++ row :: after))
      (hbefore : ∀ r ∈ before, ∃ pickup, r.Says pickup)
      (hrow : row.FailsWith before.length e) :
      BuildFails s files ⟨[.loadingRecords s.source.stagingFile], .data e⟩
  | empty {table : PickupTable}
      (hload : Transform.loaded files s.source.stagingFile = .ok table)
      (hrows : table.rows = []) :
      BuildFails s files ⟨[.enumeratingZones], .data .emptyTable⟩
  | step {table : PickupTable}
      (hload : Transform.loaded files s.source.stagingFile = .ok table)
      (hrows : table.rows ≠ []) (hlong : Step.longestSeconds < s.resample.stepSeconds) :
      BuildFails s files (.ofCause (.step s.resample.stepSeconds))
  | tooShort {table : PickupTable} {short : Series}
      (hload : Transform.loaded files s.source.stagingFile = .ok table)
      (hrows : table.rows ≠ []) (hlong : s.resample.stepSeconds ≤ Step.longestSeconds)
      (hshort : short.size ≤ s.dataset.horizon) :
      BuildFails s files
        (.ofCause (.data (.tooShort short.geohash short.size s.dataset.horizon)))
  /-- All stages have answered but for the writing of a half. -/
  | unwritten {split : Split} {stats : ResampleStats} {half : Half} {before : FileTree}
      {path : String} {fault : FileFault} (hsplit : splitOutcome s files = .ok (split, stats))
      (hwrite : (halfWritten s.dataset split half before).2 = .error (.file path fault)) :
      BuildFails s files (.ofCause (.data (.file path fault)))

section Stages

variable {s : Settings} {files : FileTree}

theorem loaded_fails {e : DataError}
    (herror : Transform.loaded files s.source.stagingFile = .error e) :
    BuildFails s files ⟨[.loadingRecords s.source.stagingFile], .data e⟩ := by
  unfold Transform.loaded at herror
  split at herror
  · rename_i fault hstat
    rw [Except.error.injEq] at herror
    exact herror ▸ .unopened hstat
  · rename_i hstat
    rw [Except.error.injEq] at herror
    exact herror ▸ .directory hstat
  · rename_i content hstat
    obtain ⟨rows, hrows⟩ := Csv.exists_laidOut content
    obtain ⟨before, row, after, rfl, hbefore, hrow⟩ :=
      PickupTable.failsWith_of_ofBytes hrows herror
    have hread : files.read s.source.stagingFile = .ok content := by
      rw [FileTree.read, hstat]
      rfl
    exact .unreadable hread hrows hbefore hrow

variable (hzero : s.resample.stepSeconds ≠ 0)
include hzero

theorem splitOutcome_fails {failure : Failure}
    (herror : splitOutcome s files = .error failure) : BuildFails s files failure := by
  unfold splitOutcome at herror
  cases hload : Transform.loaded files s.source.stagingFile with
  | error e =>
      rw [hload] at herror
      simp only [mapError_error, error_bind, Except.error.injEq] at herror
      exact herror ▸ loaded_fails hload
  | ok table =>
      rw [hload] at herror
      simp only [mapError_ok, ok_bind] at herror
      by_cases hrows : table.rows = []
      · rw [ZoneSet.ofTable_eq_error hrows] at herror
        simp only [mapError_error, error_bind, Except.error.injEq] at herror
        exact herror ▸ .empty hload hrows
      obtain ⟨zones, hzones, -⟩ := ZoneSet.ofTable_eq_ok hrows
      rw [hzones] at herror
      simp only [mapError_ok, ok_bind] at herror
      rcases stepOf_cases hzero with ⟨step, hstep, hseconds, hlong⟩ | ⟨hstep, hlong⟩
      · have hresample := resample_of_intervalCount hrows
          (TimeRange.intervalCount_of_le hseconds rfl zones.start_le_finish) s.resample.policy
        rw [hstep] at herror
        simp only [ok_bind, hresample, mapError_ok] at herror
        cases hhalves : Split.ofSeries _ s.dataset.horizon with
        | ok halves =>
            rw [hhalves] at herror
            contradiction
        | error e =>
            rw [hhalves] at herror
            simp only [mapError_error, error_bind, Except.error.injEq] at herror
            obtain ⟨short, ⟨-, -, -, hshort, -⟩, rfl⟩ := Split.ofSeries_eq_error_iff.mp hhalves
            exact herror ▸ .tooShort hload hrows hlong hshort
      · rw [hstep] at herror
        simp only [error_bind, Except.error.injEq] at herror
        exact herror ▸ .step hload hrows hlong

theorem splitOutcome_of_long {table : PickupTable}
    (hload : Transform.loaded files s.source.stagingFile = .ok table) (hrows : table.rows ≠ [])
    (hlong : Step.longestSeconds < s.resample.stepSeconds) :
    splitOutcome s files = .error (.ofCause (.step s.resample.stepSeconds)) := by
  obtain ⟨zones, hzones, -⟩ := ZoneSet.ofTable_eq_ok hrows
  rcases stepOf_cases hzero with ⟨-, -, -, hshort⟩ | ⟨hstep, -⟩
  · omega
  · unfold splitOutcome
    rw [hload, hstep]
    simp only [mapError_ok, ok_bind, hzones, error_bind]

end Stages

theorem write_fails {tree : FileTree} {path : String} {series : List Series}
    {categories : Bool} {e : DataError}
    (herror : (DatasetFile.write tree path series categories).2 = .error e) :
    ∃ path fault, e = .file path fault := by
  have hwriting := DatasetFile.writing tree path series categories
  generalize DatasetFile.write tree path series categories = result at herror hwriting
  cases hwriting with
  | unprepared => exact ⟨_, _, (Except.error.inj herror).symm⟩
  | incomplete => exact ⟨_, _, (Except.error.inj herror).symm⟩
  | complete => contradiction

theorem writeHalf_fails {s : DatasetSettings} {split : Split} {half : Half} {w later : World}
    {failure : Failure} (hon : (writeHalf s split half).on w = (.error failure, later)) :
    ∃ path fault, (halfWritten s split half w.files).2 = .error (.file path fault) ∧
      failure = .ofCause (.data (.file path fault)) := by
  obtain ⟨entries, hwrite⟩ := writeHalf_on s split half w
  rw [hwrite, Prod.mk.injEq, mapError_eq_error_iff] at hon
  obtain ⟨⟨e, herror, rfl⟩, -⟩ := hon
  obtain ⟨path, fault, rfl⟩ := write_fails herror
  exact ⟨path, fault, herror, rfl⟩

theorem build_of_split_error {s : Settings} {w : World} {failure : Failure}
    (herror : splitOutcome s w.files = .error failure) :
    ((build s).on w).1 = .error failure := by
  obtain ⟨entries, hreports⟩ := reports_splitDataset s w
  rw [herror] at hreports
  unfold build
  rw [Action.on_bind_of_error hreports]

theorem build_fails {s : Settings} (hzero : s.resample.stepSeconds ≠ 0) {w later : World}
    {failure : Failure} (hon : (build s).on w = (.error failure, later)) :
    BuildFails s w.files failure := by
  obtain ⟨entries, hreports⟩ := reports_splitDataset s w
  unfold build at hon
  rcases Action.on_bind_cases hon with ⟨e, hsplit, he⟩ | ⟨⟨split, stats⟩, start, hsplit, hon⟩
  · obtain rfl := Except.error.inj he
    rw [hreports, Prod.mk.injEq] at hsplit
    exact splitOutcome_fails hzero hsplit.1
  rw [hreports, Prod.mk.injEq] at hsplit
  rcases Action.on_bind_cases hon with ⟨e, htrain, he⟩ | ⟨train, between, -, hon⟩
  · obtain rfl := Except.error.inj he
    obtain ⟨path, fault, hwrite, rfl⟩ := writeHalf_fails htrain
    exact .unwritten hsplit.1 hwrite
  rcases Action.on_bind_cases hon with ⟨e, htest, he⟩ | ⟨test, last, -, hon⟩
  · obtain rfl := Except.error.inj he
    obtain ⟨path, fault, hwrite, rfl⟩ := writeHalf_fails htest
    exact .unwritten hsplit.1 hwrite
  · rw [Action.on_pure, Prod.mk.injEq] at hon
    exact nomatch hon.1

theorem BuildFails.inDataOrFiles_or_step {s : Settings} {files : FileTree} {failure : Failure}
    (h : BuildFails s files failure) :
    failure.InDataOrFiles ∨ failure = .ofCause (.step s.resample.stepSeconds) := by
  cases h with
  | unopened => exact .inl ⟨_, rfl, .file⟩
  | directory => exact .inl ⟨_, rfl, .reading⟩
  | unreadable _ _ _ hrow => exact .inl ⟨_, rfl, hrow.inDataOrFiles⟩
  | empty => exact .inl ⟨_, rfl, .emptyTable⟩
  | step => exact .inr rfl
  | tooShort => exact .inl ⟨_, rfl, .tooShort⟩
  | unwritten => exact .inl ⟨_, rfl, .file⟩

/-- Under valid settings, what makes a build fail is in the data or in the local files, unless
the step has more seconds than a step can have.  Such a step makes every build fail for which
the staged file is a table with at least one row. -/
theorem build_fails_by_step_iff {s : Settings} (hvalid : s.fault? = none) (w : World) :
    (∀ failure, ((build s).on w).1 = .error failure →
      BuildFails s w.files failure ∧
        (failure.InDataOrFiles ∨ failure = .ofCause (.step s.resample.stepSeconds))) ∧
    (((build s).on w).1 = .error (.ofCause (.step s.resample.stepSeconds)) ↔
      Step.longestSeconds < s.resample.stepSeconds ∧
        ∃ content table, w.files.read s.source.stagingFile = .ok content ∧
          PickupTable.ofBytes content = .ok table ∧ table.rows ≠ []) := by
  have hzero := stepSeconds_ne_zero hvalid
  have hfails : ∀ failure, ((build s).on w).1 = .error failure →
      BuildFails s w.files failure := by
    intro failure herror
    exact build_fails hzero (Prod.ext herror rfl)
  refine ⟨fun failure herror => ⟨hfails failure herror,
    (hfails failure herror).inDataOrFiles_or_step⟩, ?_, ?_⟩
  · intro herror
    generalize hfailure : Failure.ofCause (.step s.resample.stepSeconds) = failure at herror
    cases hfails failure herror with
    | step hload hrows hlong =>
        obtain ⟨content, hread, htable⟩ := loaded_eq_ok_iff.mp hload
        exact ⟨hlong, content, _, hread, htable, hrows⟩
    | unopened | directory | unreadable | empty | tooShort | unwritten =>
        exact nomatch congrArg Failure.cause hfailure
  · rintro ⟨hlong, content, table, hread, htable, hrows⟩
    have hload := loaded_eq_ok_iff.mpr ⟨content, hread, htable⟩
    exact build_of_split_error (splitOutcome_of_long hzero hload hrows hlong)

def sampleWithStep (seconds : Nat) : Settings :=
  { sampleSettings "train.json" with resample := ⟨seconds, .exact⟩ }

theorem sample_table :
    ∃ content table, sampleWorld.files.read "source.csv" = .ok content ∧
      PickupTable.ofBytes content = .ok table ∧ table.rows ≠ [] := by
  obtain ⟨content, step, hread, -, hcontent⟩ :=
    splitOutcome_eq_ok_iff.mp (splitOutcome_sample "train.json")
  unfold Split.ofContent at hcontent
  obtain ⟨table, htable, hcontent⟩ := bind_eq_ok_iff.mp hcontent
  obtain ⟨zones, hzones, -⟩ := bind_eq_ok_iff.mp hcontent
  refine ⟨content, table, hread, htable, fun hrows => ?_⟩
  rw [ZoneSet.ofTable_eq_error hrows] at hzones
  contradiction

theorem sample_longest_step :
    (sampleWithStep 9223372036854775).fault? = none ∧
      ((build (sampleWithStep 9223372036854775)).on sampleWorld).1 ≠
        .error (.ofCause (.step 9223372036854775)) := by
  have hvalid : (sampleWithStep 9223372036854775).fault? = none := by decide +kernel
  refine ⟨hvalid, fun herror => ?_⟩
  have hlong := ((build_fails_by_step_iff hvalid sampleWorld).2.mp herror).1
  exact absurd hlong (by decide)

/-- A step of one second more is valid too, and the build refuses it. -/
theorem sample_longer_step_refused :
    (sampleWithStep 9223372036854776).fault? = none ∧
      ((build (sampleWithStep 9223372036854776)).on sampleWorld).1 =
        .error (.ofCause (.step 9223372036854776)) ∧
      ¬(Failure.ofCause (.step 9223372036854776)).InDataOrFiles := by
  have hvalid : (sampleWithStep 9223372036854776).fault? = none := by decide +kernel
  obtain ⟨content, table, hread, htable, hrows⟩ := sample_table
  have hload := loaded_eq_ok_iff.mpr ⟨content, hread, htable⟩
  refine ⟨hvalid, build_of_split_error ?_, ?_⟩
  · exact splitOutcome_of_long (stepSeconds_ne_zero hvalid) hload hrows (by decide)
  · rintro ⟨e, he, -⟩
    contradiction

end Pipeline
end ZoneDemand
