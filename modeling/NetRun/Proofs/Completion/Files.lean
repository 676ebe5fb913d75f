import NetRun.Proofs.Completion.Summary
import NetRun.Settings.Basic

/-!
# Names of the tables of a comparison

The files of a run are named for its label, and all three names go on with a
dash behind it.  Two runs with different labels can still share a file: what
follows the dash of the one name may spell the rest of the other label, since
a suffix may be any text.  They share none, whatever the suffixes are, exactly
when neither label goes on with a dash behind the other.
-/

namespace NetRun

/-! ## Texts that a dash closes -/

/-- Closed by a dash, the one text begins the other. -/
def ContinuesAfterDash
    (text stem : String) :
    Prop :=
  (stem ++ "-").toList <+: (text ++ "-").toList

instance (text stem : String) : Decidable (ContinuesAfterDash text stem) :=
  inferInstanceAs (Decidable ((stem ++ "-").toList <+: (text ++ "-").toList))

/-- Neither of two texts continues the other after a dash. -/
def ApartAtDash
    (first second : String) :
    Prop :=
  ¬ ContinuesAfterDash first second ∧ ¬ ContinuesAfterDash second first

instance (first second : String) : Decidable (ApartAtDash first second) :=
  inferInstanceAs (Decidable (_ ∧ _))

/-- What is put in front of two texts does not matter. -/
@[simp]
theorem continuesAfterDash_append_iff
    {front text stem : String} :
    ContinuesAfterDash (front ++ text) (front ++ stem) ↔ ContinuesAfterDash text stem := by
  simp only [ContinuesAfterDash, String.toList_append, List.append_assoc,
    List.prefix_append_right_inj]

theorem apartAtDash_append_iff
    {front first second : String} :
    ApartAtDash (front ++ first) (front ++ second) ↔ ApartAtDash first second := by
  simp only [ApartAtDash, continuesAfterDash_append_iff]

/-- Texts that are apart stay different, whatever follows their dashes. -/
theorem ApartAtDash.append_ne
    {first second : String}
    (apart : ApartAtDash first second)
    (behind other : String) :
    first ++ "-" ++ behind ≠ second ++ "-" ++ other := by
  intro same
  have sameCharacters :
      (first ++ "-").toList ++ behind.toList = (second ++ "-").toList ++ other.toList := by
    rw [← String.toList_append, ← String.toList_append, same]
  rcases List.prefix_or_prefix_of_prefix (List.prefix_append _ behind.toList)
    (sameCharacters ▸ List.prefix_append _ other.toList) with continues | continues
  · exact apart.2 continues
  · exact apart.1 continues

/-- A text that continues another after a dash is spelled by what follows there. -/
theorem ContinuesAfterDash.exists_append_eq
    {text stem : String}
    (continues : ContinuesAfterDash text stem) :
    ∃ behind, stem ++ "-" ++ behind = text ++ "-" := by
  rcases continues with ⟨behind, spelled⟩
  refine ⟨String.ofList behind, ?_⟩
  rw [← String.toList_inj, String.toList_append, String.toList_ofList, spelled]

/-! ## Joined paths -/

namespace Path

/-- What is joined goes on as the name does. -/
theorem join_append
    {behind : String}
    (relative : isAbsolute behind = false)
    (directory name : String) :
    join directory (name ++ behind) = join directory name ++ behind := by
  have sameStart : isAbsolute (name ++ behind) = isAbsolute name := by
    rw [isAbsolute, isAbsolute, String.toList_append]
    cases listed : name.toList with
    | nil => exact relative
    | cons c rest => rfl
  rw [join, join, sameStart]
  split
  · rfl
  · split
    · rw [String.append_assoc]
    · rw [← String.append_assoc]

theorem join_append_dash
    (directory name behind : String) :
    join directory (name ++ "-" ++ behind) = join directory name ++ "-" ++ behind := by
  have relative : isAbsolute ("-" ++ behind) = false := by
    rw [isAbsolute, String.toList_append]
    rfl
  rw [String.append_assoc, join_append relative, String.append_assoc]

/-- Names that do not start at the root are joined behind one and the same text. -/
theorem exists_join_eq_append
    (directory : String) :
    ∃ front, ∀ name, isAbsolute name = false → join directory name = front ++ name := by
  by_cases closed : directory.isEmpty || directory.toList.getLast? == some '/'
  · refine ⟨directory, fun name relative => ?_⟩
    rw [join, relative, if_neg Bool.false_ne_true, if_pos closed]
  · refine ⟨directory ++ "/", fun name relative => ?_⟩
    rw [join, relative, if_neg Bool.false_ne_true, if_neg closed]

end Path

/-! ## Files of a comparison -/

namespace SummaryPaths

/-- What follows the label and a dash in the names of the files of a run. -/
def endings
    (suffix : String) :
    List String :=
  [suffix, "bulk-" ++ suffix, "weighted-" ++ suffix]

theorem toList_ofLabel
    (directory label suffix : String) :
    (ofLabel directory label suffix).toList =
      (endings suffix).map fun ending => Path.join directory label ++ "-" ++ ending := by
  have bulk : "-bulk-" = "-" ++ "bulk-" := rfl
  have weighted : "-weighted-" = "-" ++ "weighted-" := rfl
  simp only [endings, List.map_cons, List.map_nil, ← Path.join_append_dash]
  simp only [toList, ofLabel, bulk, weighted, toString, String.append_assoc]

theorem nodup_endings
    (suffix : String) :
    (endings suffix).Nodup := by
  have longer : ∀ front, front ≠ "" → suffix ≠ front ++ suffix := by
    intro front nonempty same
    exact nonempty (String.append_left_inj suffix |>.1 (same.symm.trans (by simp)))
  have other : "bulk-" ++ suffix ≠ "weighted-" ++ suffix :=
    mt (String.append_left_inj suffix).1 (by decide)
  simp [endings, longer "bulk-" (by decide), longer "weighted-" (by decide), other]

/-- The files of one run are different. -/
theorem nodup_ofLabel
    (directory label suffix : String) :
    (ofLabel directory label suffix).toList.Nodup := by
  rw [toList_ofLabel]
  apply (nodup_endings suffix).map
  intro ending other same
  exact String.append_right_inj _ |>.1 same

end SummaryPaths

namespace CompletionSettings

/-- The files of the tables of both runs. -/
def tablePaths
    (settings : CompletionSettings)
    (directory regularSuffix alternativeSuffix : String) :
    List String :=
  (SummaryPaths.ofLabel directory settings.regularLabel regularSuffix).toList ++
    (SummaryPaths.ofLabel directory settings.alternativeLabel alternativeSuffix).toList

variable
    {settings : CompletionSettings}
    {directory : String}

/-- Labels that are apart give different files, whatever the suffixes are. -/
theorem nodup_tablePaths
    (apart :
      ApartAtDash (Path.join directory settings.regularLabel)
        (Path.join directory settings.alternativeLabel))
    (regularSuffix alternativeSuffix : String) :
    (settings.tablePaths directory regularSuffix alternativeSuffix).Nodup := by
  rw [tablePaths, List.nodup_append']
  refine ⟨SummaryPaths.nodup_ofLabel _ _ _, SummaryPaths.nodup_ofLabel _ _ _, ?_⟩
  intro path ofRegular ofAlternative
  rw [SummaryPaths.toList_ofLabel, List.mem_map] at ofRegular ofAlternative
  rcases ofRegular with ⟨ending, -, rfl⟩
  rcases ofAlternative with ⟨other, -, same⟩
  exact apart.append_ne ending other same.symm

/-- Two files that go on alike are one, so that the files of both runs are not all different. -/
theorem not_nodup_tablePaths
    {regularSuffix alternativeSuffix : String}
    (same :
      Path.join directory settings.regularLabel ++ "-" ++ regularSuffix =
        Path.join directory settings.alternativeLabel ++ "-" ++ alternativeSuffix) :
    ¬ (settings.tablePaths directory regularSuffix alternativeSuffix).Nodup := by
  intro different
  rw [tablePaths, List.nodup_append', SummaryPaths.toList_ofLabel,
    SummaryPaths.toList_ofLabel] at different
  refine different.2.2 (List.mem_map_of_mem List.mem_cons_self) ?_
  rw [same]
  exact List.mem_map_of_mem List.mem_cons_self

/--
The files of both runs are different for all suffixes exactly when neither
label, joined to the directory, continues the other after a dash.
-/
theorem nodup_tablePaths_iff :
    (∀ regularSuffix alternativeSuffix,
        (settings.tablePaths directory regularSuffix alternativeSuffix).Nodup) ↔
      ApartAtDash (Path.join directory settings.regularLabel)
        (Path.join directory settings.alternativeLabel) := by
  constructor
  · intro different
    constructor
    · intro continues
      rcases continues.exists_append_eq with ⟨behind, spelled⟩
      refine not_nodup_tablePaths ?_ (different "" behind)
      rw [spelled, String.append_empty]
    · intro continues
      rcases continues.exists_append_eq with ⟨behind, spelled⟩
      refine not_nodup_tablePaths ?_ (different behind "")
      rw [spelled, String.append_empty]
  · intro apart
    exact nodup_tablePaths apart

/-- Where no label starts at the root, the directory does not matter. -/
theorem apartAtDash_join_iff
    (regularRelative : Path.isAbsolute settings.regularLabel = false)
    (alternativeRelative : Path.isAbsolute settings.alternativeLabel = false) :
    ApartAtDash (Path.join directory settings.regularLabel)
        (Path.join directory settings.alternativeLabel) ↔
      ApartAtDash settings.regularLabel settings.alternativeLabel := by
  rcases Path.exists_join_eq_append directory with ⟨front, joined⟩
  rw [joined _ regularRelative, joined _ alternativeRelative, apartAtDash_append_iff]

end CompletionSettings

end NetRun
