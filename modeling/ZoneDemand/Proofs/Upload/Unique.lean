import ZoneDemand.Pipeline
import ZoneDemand.Proofs.FileTree.Parents
import ZoneDemand.Proofs.Pipeline.Run
import ZoneDemand.Proofs.Settings.Stems
import Mathlib.Logic.Function.Iterate

/-!
# What a dataset key tells

Cut at its slashes, the key of a dataset file ends in the name of the half and the name of the
file; what is before these is the prefix.  The three can be read off a key whatever names the
prefix itself consists of, so two keys are the same only if all three are.
-/

namespace ZoneDemand

/-- The names that the prefix puts before that of the half. -/
def stemNames (stem : String) : List Path.Segment :=
  if datasetStem stem = "" then [] else Path.split (datasetStem stem).toList

theorem stemNames_eq_iff {stem other : String} :
    stemNames stem = stemNames other ↔ datasetStem stem = datasetStem other := by
  constructor
  · intro hnames
    unfold stemNames at hnames
    split at hnames <;> split at hnames
    · rename_i hstem hother
      rw [hstem, hother]
    · exact absurd hnames.symm (Path.split_ne_nil _)
    · exact absurd hnames (Path.split_ne_nil _)
    · have hjoined := congrArg Path.join hnames
      rw [Path.join_split, Path.join_split] at hjoined
      exact String.toList_injective hjoined
  · intro hstem
    rw [stemNames, stemNames, hstem]

theorem split_datasetKey (stem : String) (half : Half) {fileName : String}
    (hslash : '/' ∉ fileName.toList) :
    Path.split (datasetKey stem half fileName).toList =
      stemNames stem ++ [half.name.toList, fileName.toList] := by
  have hhalf : Path.split half.name.toList = [half.name.toList] :=
    Path.split_of_not_mem half.noSlash_name
  have hlast : Path.split (half.name.toList ++ '/' :: fileName.toList) =
      [half.name.toList, fileName.toList] := by
    rw [Path.split_append, hhalf, Path.split_of_not_mem hslash, List.singleton_append]
  rw [toList_datasetKey]
  unfold keyBase stemNames
  split
  · rw [List.nil_append, List.nil_append, hlast]
  · rw [List.append_assoc, List.singleton_append, Path.split_append, hlast]

theorem datasetKey_eq_iff {stem other fileName otherName : String} {half otherHalf : Half}
    (hfile : '/' ∉ fileName.toList) (hother : '/' ∉ otherName.toList) :
    datasetKey stem half fileName = datasetKey other otherHalf otherName ↔
      datasetStem stem = datasetStem other ∧ half = otherHalf ∧ fileName = otherName := by
  constructor
  · intro hkeys
    have hnames := congrArg (fun key => Path.split key.toList) hkeys
    simp only [split_datasetKey _ _ hfile, split_datasetKey _ _ hother] at hnames
    -- The last two names are those of the half and the file, however many come before.
    obtain ⟨hstems, hlast⟩ := List.append_inj' hnames rfl
    obtain ⟨hhalf, hlast⟩ := List.cons.inj hlast
    exact ⟨stemNames_eq_iff.mp hstems, Half.name_injective hhalf,
      String.toList_injective (List.cons.inj hlast).1⟩
  · rintro ⟨hstem, rfl, rfl⟩
    unfold datasetKey
    rw [hstem]

theorem datasetKey_head_ne_slash (stem : String) (half : Half) (fileName : String) :
    (datasetKey stem half fileName).toList.head? ≠ some '/' := by
  obtain ⟨c, rest, hname, -, hc⟩ := half.name_head
  rw [toList_datasetKey, keyBase, hname]
  split
  · simpa using hc
  · rename_i hstem
    have hne : (datasetStem stem).toList ≠ [] := by simpa using hstem
    rw [List.append_assoc, List.head?_append, List.head?_eq_some_head hne, Option.some_or,
      ← List.head?_eq_some_head hne]
    exact (trims_datasetStem stem).first

theorem datasetStem_iterate (stem : String) (n : ℕ) :
    datasetStem (datasetStem^[n] stem) = datasetStem stem := by
  induction n with
  | zero => rfl
  | succ n ih => rw [Function.iterate_succ_apply', datasetStem_datasetStem, ih]

namespace Pipeline

theorem uploadHalf_key {s : DatasetSettings} {datasets : Datasets} {half : Half} {w later : World}
    {key : String} (hon : (uploadHalf s datasets half).on w = (.ok key, later)) :
    key = datasetKey s.stem half (s.fileName half) := by
  obtain ⟨_, between, -, hon⟩ := Action.on_bind_eq_ok hon
  rw [Action.on_pure, Prod.mk.injEq, Except.ok.injEq] at hon
  exact hon.1.symm

theorem upload_keys {s : DatasetSettings} {datasets : Datasets} {w later : World}
    {keys : List String} (hon : (upload s datasets).on w = (.ok keys, later)) :
    keys = [datasetKey s.stem .train s.trainFile, datasetKey s.stem .test s.testFile] := by
  obtain ⟨train, between, htrain, hon⟩ := Action.on_bind_eq_ok hon
  obtain ⟨test, last, htest, hon⟩ := Action.on_bind_eq_ok hon
  rw [Action.on_pure, Prod.mk.injEq, Except.ok.injEq] at hon
  rw [← hon.1, uploadHalf_key htrain, uploadHalf_key htest]
  rfl

end Pipeline

/-- Two dataset keys are the same exactly if the prefixes are the same up to slashes at their
ends, and the halves and the file names are the same.  A key never starts with a slash and
does not depend on how often its prefix has been brought into shape.  The two keys of an
upload under valid settings differ. -/
theorem datasetKey_unique {stem other fileName otherName : String} {half otherHalf : Half}
    (hfile : '/' ∉ fileName.toList) (hother : '/' ∉ otherName.toList) :
    (datasetKey stem half fileName = datasetKey other otherHalf otherName ↔
      (∃ core, Trims stem core ∧ Trims other core) ∧ half = otherHalf ∧ fileName = otherName) ∧
    (datasetKey stem half fileName).toList.head? ≠ some '/' ∧
    (∀ n, datasetKey (datasetStem^[n] stem) half fileName = datasetKey stem half fileName) ∧
    ∀ (s : Settings), s.fault? = none →
      datasetKey s.dataset.stem .train s.dataset.trainFile ≠
          datasetKey s.dataset.stem .test s.dataset.testFile ∧
        ∀ datasets w keys later, (Pipeline.upload s.dataset datasets).on w = (.ok keys, later) →
          keys = [datasetKey s.dataset.stem .train s.dataset.trainFile,
            datasetKey s.dataset.stem .test s.dataset.testFile] := by
  refine ⟨?_, datasetKey_head_ne_slash stem half fileName, fun n => ?_, fun s hvalid => ⟨?_, ?_⟩⟩
  · rw [datasetKey_eq_iff hfile hother]
    simp only [trims_iff, exists_eq_left']
    exact and_congr_left fun _ => eq_comm
  · exact (datasetKey_eq_iff hfile hfile).mpr ⟨datasetStem_iterate stem n, rfl, rfl⟩
  · have hdataset := Pipeline.dataset_valid hvalid
    have hbare := Pipeline.bare_fileName hdataset
    intro hsame
    have hhalf := ((datasetKey_eq_iff (hbare .train).noSlash (hbare .test).noSlash).mp hsame).2.1
    contradiction
  · intro datasets w keys later hon
    exact Pipeline.upload_keys hon

/-- A prefix that ends in the name of a half is told apart from that half. -/
theorem trainPrefix_unique :
    datasetKey "//pickups/train/" .test "test" = datasetKey "pickups/train" .test "test" ∧
      datasetKey "//pickups/train/" .test "test" ≠ datasetKey "pickups" .train "test" := by
  have hslash : '/' ∉ "test".toList := by decide
  constructor
  · refine (datasetKey_unique hslash hslash).1.mpr ⟨⟨"pickups/train", ?_, ?_⟩, rfl, rfl⟩
    · exact trims_iff.mpr (by decide +kernel)
    · exact trims_iff.mpr (by decide +kernel)
  · intro hsame
    have hhalf := ((datasetKey_unique hslash hslash).1.mp hsame).2.1
    contradiction

end ZoneDemand
