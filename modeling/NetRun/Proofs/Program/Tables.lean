import NetRun.Proofs.Completion.Files
import NetRun.Proofs.Program.Outputs
import NetRun.Proofs.Store.Overwriting

/-!
# What stands in the tables of a comparison

A comparison writes its six tables one after the other, so a table is lost
exactly if a later one goes to the same file.  Different labels do not prevent
that.  Labels of which neither continues the other after a dash do, whatever
the suffixes are, and then every file holds the table of its own run.
-/

namespace NetRun.Program

open NetRun.Log

/-! ## Deeds that write files -/

/-- The file that a deed writes, and its text. -/
def Deed.file? :
    Deed → Option (String × String)
  | .write path text => some (path, text)
  | .writeReport path text => some (path, text)
  | _ => none

/-- The files that deeds write, in order. -/
def writtenFiles
    (deeds : List Deed) :
    List (String × String) :=
  deeds.filterMap Deed.file?

section Deeds

variable
    {files directories : List String}
    {mayLackOrder : Prop}
    {deeds : List Deed}

/-- Deeds stay within the files that they write. -/
theorem StayWithin.own
    (within : StayWithin files directories mayLackOrder deeds) :
    StayWithin ((writtenFiles deeds).map Prod.fst) directories mayLackOrder deeds := by
  intro deed listed
  have own : ∀ file, deed.file? = some file → file.1 ∈ (writtenFiles deeds).map Prod.fst :=
    fun file writes => List.mem_map_of_mem (List.mem_filterMap.2 ⟨deed, listed, writes⟩)
  have within := within deed listed
  cases deed with
  | note | print => trivial
  | giveUp | crashWith | makeDirectories => exact within
  | write path text | writeReport path text => exact own (path, text) rfl

/-- What a deed has written is read back. -/
theorem Deed.readText_of_perform_eq_ok
    {deed : Deed}
    {file : String × String}
    (writes : deed.file? = some file)
    {progress later : Progress}
    (done : deed.perform progress = .ok later) :
    later.store.readText file.1 = .ok file.2 := by
  cases deed with
  | note | print | giveUp | crashWith | makeDirectories => cases writes
  | write path text | writeReport path text =>
      cases writes
      rw [perform] at done
      cases written : progress.store.writeText path text with
      | ok store =>
          rw [written] at done
          cases done
          exact Store.readText_writeText written
      | error fault =>
          rw [written] at done
          cases done

/-- Deeds that are all done leave every file as it was written last. -/
theorem holdsLast_performAll
    (within : StayWithin files directories mayLackOrder deeds)
    {progress : Progress}
    (finished : (performAll deeds progress).2 = none) :
    (performAll deeds progress).1.store.HoldsLast (writtenFiles deeds) := by
  induction deeds generalizing progress with
  | nil => exact Store.holdsLast_nil _
  | cons deed deeds induction =>
      rcases stayWithin_cons_iff.1 within with ⟨-, rest⟩
      rw [performAll] at finished ⊢
      cases done : deed.perform progress with
      | error failure =>
          rw [done] at finished
          cases finished
      | ok later =>
          rw [done] at finished
          have restHolds := induction rest finished
          dsimp only
          rw [writtenFiles, List.filterMap_cons]
          split
          case h_1 => exact restHolds
          case h_2 file writes =>
            refine Store.holdsLast_cons_iff.2 ⟨fun unshared => ?_, restHolds⟩
            -- What the deed has written outlives those that follow it.
            refine (performAll_spec rest.own later).1.readText_eq_ok ?_
              (Deed.readText_of_perform_eq_ok writes done)
            intro path listed
            rcases List.mem_map.1 listed with ⟨other, isOther, rfl⟩
            exact unshared other isOther

/-- No deed that is done ends the program. -/
theorem not_mem_of_performAll
    {progress : Progress}
    (finished : (performAll deeds progress).2 = none)
    (crash : Crash) :
    .crashWith crash ∉ deeds := by
  induction deeds generalizing progress with
  | nil => exact List.not_mem_nil
  | cons deed deeds induction =>
      rw [performAll] at finished
      cases done : deed.perform progress with
      | error stop =>
          rw [done] at finished
          cases finished
      | ok later =>
          rw [done] at finished
          rw [List.mem_cons, not_or]
          refine ⟨?_, induction finished⟩
          rintro rfl
          cases done

/-- A run that finishes has worked out its deeds and done them all. -/
theorem exists_performAll_of_finished
    {plan : Planning (List Deed)}
    {store : Store}
    (finished : (carryOut store plan).ending = .finished) :
    ∃ deeds, plan.outcome = .ok deeds ∧
      (performAll deeds ⟨store, "", plan.entries⟩).2 = none ∧
        (carryOut store plan).store = (performAll deeds ⟨store, "", plan.entries⟩).1.store := by
  cases worked : plan.outcome with
  | error cause => exact absurd finished (carryOut_of_error worked store).2.2
  | ok deeds =>
      rw [carryOut, worked] at finished ⊢
      dsimp only at finished
      refine ⟨deeds, rfl, ?_, rfl⟩
      cases ended : (performAll deeds ⟨store, "", plan.entries⟩).2 with
      | none => rfl
      | some stop =>
          rw [ended] at finished
          cases stop with
          | refused | crashed => cases finished

/-- Deeds that are worked out and all done make a run that finishes. -/
theorem carryOut_finishes
    {plan : Planning (List Deed)}
    {store : Store}
    (worked : plan.outcome = .ok deeds)
    (done : (performAll deeds ⟨store, "", plan.entries⟩).2 = none) :
    (carryOut store plan).ending = .finished := by
  rw [carryOut, worked]
  dsimp only
  rw [done]

end Deeds

/-! ## The tables of a comparison -/

/-- The texts of the tables of both runs under the paths of their files. -/
def tableFiles
    (settings : CompletionSettings)
    (directory regularSuffix alternativeSuffix : String)
    (before after : Summary) :
    List (String × String) :=
  before.files (SummaryPaths.ofLabel directory settings.regularLabel regularSuffix) ++
    after.files (SummaryPaths.ofLabel directory settings.alternativeLabel alternativeSuffix)

theorem map_fst_tableFiles
    (settings : CompletionSettings)
    (directory regularSuffix alternativeSuffix : String)
    (before after : Summary) :
    (tableFiles settings directory regularSuffix alternativeSuffix before after).map Prod.fst =
      settings.tablePaths directory regularSuffix alternativeSuffix :=
  rfl

/-- A run of a comparison whose deeds do not end the program is summed up. -/
theorem exists_summary_of_summaryDeeds
    {directory label suffix : String}
    {outcome : Except Crash (Option Summary)}
    (settled :
      (∃ summary, outcome = .ok (some summary)) ∨
        outcome = .error .unorderedValues ∧ mayLackOrder)
    (calm : .crashWith .unorderedValues ∉ summaryDeeds directory label suffix outcome) :
    ∃ summary, outcome = .ok (some summary) := by
  rcases settled with made | ⟨rfl, -⟩
  · exact made
  · exact absurd List.mem_cons_self calm

/-- A comparison that is not ended early writes the tables of the runs that it has read. -/
theorem planStats_writes
    {here : Surroundings}
    {settings : CompletionSettings}
    {regularPath alternativePath regularSuffix alternativeSuffix directory : String}
    {deeds : List Deed}
    (worked :
      (planStats here settings regularPath alternativePath regularSuffix alternativeSuffix
        directory).outcome = .ok deeds)
    (calm : .crashWith .unorderedValues ∉ deeds) :
    ∃ before after, here.Summarizes settings regularPath alternativePath before after ∧
      writtenFiles deeds =
        tableFiles settings directory regularSuffix alternativeSuffix before after := by
  rcases planStats_deeds here settings regularPath alternativePath regularSuffix
    alternativeSuffix directory deeds worked with ⟨opening, regular, alternative, compares, rfl⟩
  have some := Comparison.commonFlows_ne_nil compares.common
  simp only [statsDeeds, List.mem_append, not_or] at calm
  rcases exists_summary_of_summaryDeeds
    ((Comparison.regular_shows regular alternative).summarize_cases some _) calm.1.1.2 with
    ⟨before, madeBefore⟩
  rcases exists_summary_of_summaryDeeds
    ((Comparison.alternative_shows regular alternative).summarize_cases some _) calm.1.2 with
    ⟨after, madeAfter⟩
  refine ⟨before, after, ⟨regular, alternative, compares, madeBefore, madeAfter⟩, ?_⟩
  rw [madeBefore, madeAfter]
  rfl

/-- A comparison of runs that can be summed up is worked out. -/
theorem exists_outcome_planStats_eq_ok
    {here : Surroundings}
    {settings : CompletionSettings}
    {regularPath alternativePath : String}
    {before after : Summary}
    (summarizes : here.Summarizes settings regularPath alternativePath before after)
    (regularSuffix alternativeSuffix directory : String) :
    ∃ opening,
      (planStats here settings regularPath alternativePath regularSuffix alternativeSuffix
          directory).outcome =
        .ok (statsDeeds settings directory regularSuffix alternativeSuffix opening
          (.ok (some before)) (.ok (some after))) := by
  rcases summarizes with ⟨regular, alternative, compares, madeBefore, madeAfter⟩
  have worked := compares.outcome_planStats regularSuffix alternativeSuffix directory
  dsimp only at worked
  rw [madeBefore, madeAfter] at worked
  exact ⟨_, worked⟩

/-- Neither the labels nor the suffixes lead from one directory to another. -/
def Slashless
    (settings : CompletionSettings)
    (regularSuffix alternativeSuffix : String) :
    Prop :=
  ∀ text ∈ [settings.regularLabel, settings.alternativeLabel, regularSuffix, alternativeSuffix],
    '/' ∉ text.toList

/-- A file of a run is an entry of the directory that the tables are written to. -/
theorem exists_entry_of_mem_ofLabel
    {directory label suffix path : String}
    (labelSlashless : '/' ∉ label.toList)
    (suffixSlashless : '/' ∉ suffix.toList)
    (listed : path ∈ (SummaryPaths.ofLabel directory label suffix).toList) :
    ∃ name, Store.IsEntryName name ∧ path = Path.join directory name := by
  rw [SummaryPaths.toList_ofLabel] at listed
  rcases List.mem_map.1 listed with ⟨ending, isEnding, rfl⟩
  refine ⟨label ++ "-" ++ ending, ?_, (Path.join_append_dash _ _ _).symm⟩
  have endingSlashless : '/' ∉ ending.toList := by
    simp only [SummaryPaths.endings, List.mem_cons, List.not_mem_nil, or_false] at isEnding
    rcases isEnding with rfl | rfl | rfl
    · exact suffixSlashless
    · simpa using suffixSlashless
    · simpa using suffixSlashless
  apply Store.isEntryName_of_mem
  · simpa using ⟨labelSlashless, endingSlashless⟩
  · show '-' ∈ _
    simp
  · decide

/-- Different files of both runs are not shared, as long as no label or suffix has a slash. -/
theorem pairwise_unshared_tableFiles
    {settings : CompletionSettings}
    {directory regularSuffix alternativeSuffix : String}
    (slashless : Slashless settings regularSuffix alternativeSuffix)
    (different : (settings.tablePaths directory regularSuffix alternativeSuffix).Nodup)
    (before after : Summary)
    (store : Store) :
    (tableFiles settings directory regularSuffix alternativeSuffix before after).Pairwise
      fun file later => ¬ store.Shares later.1 file.1 := by
  have entry :
      ∀ path ∈ settings.tablePaths directory regularSuffix alternativeSuffix,
        ∃ name, Store.IsEntryName name ∧ path = Path.join directory name := by
    intro path listed
    rcases List.mem_append.1 listed with ofRegular | ofAlternative
    · exact exists_entry_of_mem_ofLabel (slashless _ (by simp)) (slashless _ (by simp)) ofRegular
    · exact exists_entry_of_mem_ofLabel (slashless _ (by simp)) (slashless _ (by simp))
        ofAlternative
  have apart :
      (settings.tablePaths directory regularSuffix alternativeSuffix).Pairwise
        fun path later => ¬ store.Shares later path := by
    refine List.Pairwise.imp_of_mem ?_ different
    intro path later listed laterListed distinct shares
    rcases entry path listed with ⟨name, isName, rfl⟩
    rcases entry later laterListed with ⟨other, otherIsName, rfl⟩
    exact distinct (congrArg _ (shares.eq_of_join otherIsName isName).symm)
  rw [← map_fst_tableFiles settings directory regularSuffix alternativeSuffix before after,
    List.pairwise_map] at apart
  exact apart

section Comparison

variable
    {here : Surroundings}
    {settings : Settings}
    {regularPath alternativePath regularSuffix alternativeSuffix : String}
    {directory : Option String}
    {regularDeadline alternativeDeadline warmup : Option Float}

/-- A comparison that finishes has written the tables of both runs, and the last ones stay. -/
theorem holdsLast_stats
    {store : Store}
    (finished :
      (carryOut store
        ((Command.stats regularPath alternativePath regularSuffix alternativeSuffix directory
          regularDeadline alternativeDeadline warmup).plan here settings)).ending = .finished) :
    ∃ before after,
      here.Summarizes
          (CompletionSettings.override settings.completion regularDeadline alternativeDeadline
            warmup)
          regularPath alternativePath before after ∧
        (carryOut store
          ((Command.stats regularPath alternativePath regularSuffix alternativeSuffix directory
            regularDeadline alternativeDeadline warmup).plan here settings)).store.HoldsLast
          (tableFiles settings.completion (tableDirectory settings directory) regularSuffix
            alternativeSuffix before after) := by
  rcases exists_performAll_of_finished finished with ⟨deeds, worked, done, left⟩
  have holds :=
    holdsLast_performAll (Command.plan_yields here settings _ deeds worked) done
  rw [← left] at holds
  rw [Command.plan] at worked
  split at worked
  case h_1 => cases worked
  case h_2 =>
    rcases planStats_writes worked (not_mem_of_performAll done _) with
      ⟨before, after, summarizes, writes⟩
    rw [writes] at holds
    exact ⟨before, after, summarizes, holds⟩

end Comparison

/-- Two logs of one flow. -/
def oneFlowLogs :
    Store :=
  ⟨[ (["regular.log"], .file "100\t2.0\t3.0\t1\n".toUTF8),
    (["alternative.log"], .file "100\t1.0\t3.0\t1\n".toUTF8) ]⟩

theorem exists_oneFlowLogs_summarizes
    (regularLabel alternativeLabel : String)
    (time : String)
    (key : Keystream.Key) :
    ∃ before after,
      (surroundings oneFlowLogs time key).Summarizes
          { regularLabel := regularLabel, alternativeLabel := alternativeLabel }
          "regular.log" "alternative.log" before after ∧
        before.tables.map StatsRow.keys = Summary.tableKeys [100] ∧
          after.tables.map StatsRow.keys = Summary.tableKeys [100] := by
  have regularReads :
      oneFlowLogs.readText "regular.log" = .ok "100\t2.0\t3.0\t1\n" := by decide +kernel
  have alternativeReads :
      oneFlowLogs.readText "alternative.log" = .ok "100\t1.0\t3.0\t1\n" := by decide +kernel
  have regularRecords :
      CompletionRun.readRecords "regular.log" "100\t2.0\t3.0\t1\n" = .ok [⟨100, 2, 3, 1⟩] := by
    decide +kernel
  have alternativeRecords :
      CompletionRun.readRecords "alternative.log" "100\t1.0\t3.0\t1\n" =
        .ok [⟨100, 1, 3, 1⟩] := by
    decide +kernel
  let regular := CompletionRun.ofRecords ⟨10, 2⟩ [⟨100, 2, 3, 1⟩]
  let alternative := CompletionRun.ofRecords ⟨5, 2⟩ [⟨100, 1, 3, 1⟩]
  have one : (Comparison.ofRuns regular alternative).count = 1 := by decide +kernel
  have common : (Comparison.ofRuns regular alternative).count ≠ 0 := one ▸ Nat.one_ne_zero
  have sizes : (Comparison.ofRuns regular alternative).regular.bySize.keys = [100] := by
    decide +kernel
  rcases Comparison.exists_summaries_of_few common (one ▸ Nat.one_le_ofNat)
    (Comparison.ofRuns regular alternative).totalBytes with
    ⟨before, after, madeBefore, madeAfter⟩
  have keys := Comparison.keys_of_summaries madeBefore madeAfter
  rw [sizes] at keys
  refine ⟨before, after, ⟨regular, alternative, ⟨?_, ?_, common⟩, madeBefore, madeAfter⟩, keys⟩
  · exact outcome_input_log regularReads regularRecords _ _
  · exact outcome_input_log alternativeReads alternativeRecords _ _

end NetRun.Program
