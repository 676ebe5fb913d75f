import NetRun.Program.Run
import NetRun.Proofs.Completion.Summary
import NetRun.Proofs.Store.Changes

/-!
# What a run leaves behind

A command works out its deeds before it does the first of them, so whatever
goes wrong until then leaves no trace.  The deeds write the files that the
command names and no others.  Only writing and making directories can fail among
them, and a comparison of many flows can end at the run whose times are found to
have no order, when the tables of the other run may have been written already.
-/

namespace NetRun.Program

open NetRun.Log

/-! ## Deeds -/

/--
The deed writes only these files and makes only these directories.  It does not
give up, and it ends the program only for want of an order, where there may be none.
-/
def Deed.StaysWithin
    (files directories : List String)
    (mayLackOrder : Prop) :
    Deed → Prop
  | .note _ => True
  | .print _ => True
  | .write path _ => path ∈ files
  | .writeReport path _ => path ∈ files
  | .makeDirectories path => path ∈ directories
  | .giveUp _ => False
  | .crashWith crash => crash = .unorderedValues ∧ mayLackOrder

/-- All deeds of a list stay within some files and directories. -/
def StayWithin
    (files directories : List String)
    (mayLackOrder : Prop)
    (deeds : List Deed) :
    Prop :=
  ∀ deed ∈ deeds, deed.StaysWithin files directories mayLackOrder

/-- Deeds are stopped by an output that fails, or for want of an order, where there may be none. -/
def IsLate
    (mayLackOrder : Prop) :
    Stop Failure → Prop
  | .refused failure => failure.isOutput = true
  | .crashed crash => crash = .unorderedValues ∧ mayLackOrder

section Deeds

variable
    {files directories : List String}
    {mayLackOrder : Prop}

@[simp]
theorem stayWithin_nil :
    StayWithin files directories mayLackOrder [] :=
  List.forall_mem_nil _

@[simp]
theorem stayWithin_cons_iff
    {deed : Deed}
    {deeds : List Deed} :
    StayWithin files directories mayLackOrder (deed :: deeds) ↔
      deed.StaysWithin files directories mayLackOrder ∧
        StayWithin files directories mayLackOrder deeds :=
  List.forall_mem_cons

@[simp]
theorem stayWithin_append_iff
    {deeds others : List Deed} :
    StayWithin files directories mayLackOrder (deeds ++ others) ↔
      StayWithin files directories mayLackOrder deeds ∧
        StayWithin files directories mayLackOrder others :=
  List.forall_mem_append

/-- A deed that is done changes what it may, and one that is not is stopped late. -/
theorem Deed.StaysWithin.perform_spec
    {deed : Deed}
    (within : deed.StaysWithin files directories mayLackOrder)
    (progress : Progress) :
    match deed.perform progress with
    | .ok later => Store.ChangedBy files directories progress.store later.store
    | .error stop => IsLate mayLackOrder stop := by
  cases deed with
  | note => exact .refl progress.store
  | print => exact .refl progress.store
  | giveUp => exact within.elim
  | crashWith => exact within
  | write path text =>
      rw [perform]
      cases writes : progress.store.writeText path text with
      | ok store => exact Store.changedBy_of_writeText within writes
      | error fault => rfl
  | writeReport path text =>
      rw [perform]
      cases writes : progress.store.writeText path text with
      | ok store => exact Store.changedBy_of_writeText within writes
      | error fault => rfl
  | makeDirectories path =>
      rw [perform]
      cases makes : progress.store.makeDirectories path with
      | ok store => exact Store.changedBy_of_makeDirectories within makes
      | error fault => rfl

/--
Deeds that are done one after the other change what they may, whether or not all
of them are done, and they are only stopped late.
-/
theorem performAll_spec
    {deeds : List Deed}
    (within : StayWithin files directories mayLackOrder deeds)
    (progress : Progress) :
    Store.ChangedBy files directories progress.store (performAll deeds progress).1.store ∧
      ∀ stop, (performAll deeds progress).2 = some stop → IsLate mayLackOrder stop := by
  induction deeds generalizing progress with
  | nil => exact ⟨.refl progress.store, fun _ stopped => nomatch stopped⟩
  | cons deed deeds induction =>
      rcases stayWithin_cons_iff.1 within with ⟨first, rest⟩
      have step := first.perform_spec progress
      rw [performAll]
      cases done : deed.perform progress with
      | ok later =>
          rw [done] at step
          rcases induction rest later with ⟨changed, stopped⟩
          exact ⟨step.trans changed, stopped⟩
      | error stop =>
          rw [done] at step
          refine ⟨.refl progress.store, ?_⟩
          rintro _ ⟨⟩
          exact step

end Deeds

/-! ## Plans -/

/-- The directory of the tables of a comparison: the one that is asked for, or that of the settings. -/
def tableDirectory
    (settings : Settings)
    (directory : Option String) :
    String :=
  directory.getD settings.completion.outputDirectory

/-- The files that a command names as its outputs. -/
def Command.outputs
    (settings : Settings) :
    Command → List String
  | .paths _ _ _ _ json => json.toList
  | .endHosts _ output => [output]
  | .assignDelay _ _ output _ _ => [output]
  | .fanoutTopology _ _ output => [output]
  | .fanoutWorkload _ _ _ output _ => [output]
  | .linkUtil _ _ _ => []
  | .stats _ _ regularSuffix alternativeSuffix directory _ _ _ =>
    let directory := tableDirectory settings directory
    (SummaryPaths.ofLabel directory settings.completion.regularLabel regularSuffix).toList ++
      (SummaryPaths.ofLabel directory settings.completion.alternativeLabel
        alternativeSuffix).toList
  | .improvement _ _ pattern directory => [Path.join directory s!"avgreduction-{pattern}.txt"]

/-- The directory that a command makes for its outputs. -/
def Command.outputDirectories
    (settings : Settings) :
    Command → List String
  | .stats _ _ _ _ directory _ _ _ => [tableDirectory settings directory]
  | _ => []

/-- Whatever the computation gives is good. -/
def Yields
    {α : Type}
    (good : α → Prop)
    (plan : Planning α) :
    Prop :=
  ∀ value, plan.outcome = .ok value → good value

theorem yields_bind
    {α β : Type}
    {good : β → Prop}
    {first : Planning α}
    {next : α → Planning β}
    (rest : ∀ value, first.outcome = .ok value → Yields good (next value)) :
    Yields good (first >>= next) := by
  intro result gives
  rw [Logged.outcome_bind] at gives
  rcases bind_eq_ok_iff.1 gives with ⟨value, isValue, givesNext⟩
  exact rest value isValue result givesNext

theorem yields_pure
    {α : Type}
    {good : α → Prop}
    {value : α}
    (isGood : good value) :
    Yields good (pure value : Planning α) := by
  rintro _ ⟨⟩
  exact isGood

theorem yields_refuse
    {α : Type}
    {good : α → Prop}
    (failure : Failure) :
    Yields good (refuse failure : Planning α) := by
  rintro _ ⟨⟩

variable
    (here : Surroundings)

theorem planPaths_yields
    (settings : PathSettings)
    (topologyPath hostsPath : String)
    (delayOnly : Bool)
    (exclude : Option UInt32)
    (json : Option String) :
    Yields (StayWithin json.toList [] False)
      (planPaths here settings topologyPath hostsPath delayOnly exclude json) := by
  refine yields_bind fun topology _ => yields_bind fun hosts _ => ?_
  refine yields_bind fun _ _ => yields_bind fun table _ => yields_bind fun analysis _ => ?_
  split
  case h_1 => exact yields_refuse _
  case h_2 =>
    cases json with
    | none => exact yields_pure (by simp [Deed.StaysWithin])
    | some path => exact yields_pure (by simp [Deed.StaysWithin])

theorem stayWithin_writeAndNote
    (path text note : String) :
    StayWithin [path] [] False (writeAndNote path text note) := by
  simp [writeAndNote, Deed.StaysWithin]

theorem planEndHosts_yields
    (topologyPath output : String) :
    Yields (StayWithin [output] [] False) (planEndHosts here topologyPath output) := by
  refine yields_bind fun topology _ => yields_bind fun _ _ => yields_pure ?_
  exact stayWithin_cons_iff.2 ⟨trivial, stayWithin_writeAndNote _ _ _⟩

theorem planAssignDelay_yields
    (settings : DelaySettings)
    (topologyPath hostsPath output : String)
    (access core : Option UInt64) :
    Yields (StayWithin [output] [] False)
      (planAssignDelay here settings topologyPath hostsPath output access core) := by
  refine yields_bind fun topology _ => yields_bind fun hosts _ => yields_bind fun _ _ => ?_
  exact yields_pure (stayWithin_writeAndNote _ _ _)

theorem planFanoutTopology_yields
    (topologyPath : String)
    (fanout : UInt32)
    (output : String) :
    Yields (StayWithin [output] [] False) (planFanoutTopology here topologyPath fanout output) := by
  refine yields_bind fun topology _ => yields_bind fun expanded _ => yields_bind fun _ _ => ?_
  exact yields_pure (stayWithin_writeAndNote _ _ _)

theorem planFanoutWorkload_yields
    (settings : WorkloadSettings)
    (workloadPath : String)
    (fanout core : UInt32)
    (output : String)
    (seed : Option UInt64) :
    Yields (StayWithin [output] [] False)
      (planFanoutWorkload here settings workloadPath fanout core output seed) := by
  refine yields_bind fun flows _ => ?_
  dsimp only
  split
  case h_1 => exact yields_refuse _
  case h_2 => exact yields_bind fun _ _ => yields_pure (stayWithin_writeAndNote _ _ _)

theorem planLinkUtil_yields
    (settings : WorkloadSettings)
    (workloadPath : String)
    (duration : Float)
    (rate : Option UInt64) :
    Yields (StayWithin [] [] False) (planLinkUtil here settings workloadPath duration rate) := by
  refine yields_bind fun flows _ => ?_
  split
  case h_1 => exact yields_refuse _
  case h_2 => exact yields_pure (by simp [Deed.StaysWithin])

/-- The tables of samples are written to their files, if there is a summary. -/
theorem stayWithin_summaryDeeds
    {files directories : List String}
    {mayLackOrder : Prop}
    {outcome : Except Crash (Option Summary)}
    (settled :
      (∃ summary, outcome = .ok (some summary)) ∨
        outcome = .error .unorderedValues ∧ mayLackOrder)
    {directory label suffix : String}
    (listed : (SummaryPaths.ofLabel directory label suffix).toList ⊆ files) :
    StayWithin files directories mayLackOrder (summaryDeeds directory label suffix outcome) := by
  rcases settled with ⟨summary, rfl⟩ | ⟨rfl, lacks⟩
  · simp only [SummaryPaths.toList, List.cons_subset] at listed
    simp [summaryDeeds, Summary.files, Deed.StaysWithin, listed]
  · simp [summaryDeeds, Deed.StaysWithin, lacks]

/-- A log whose records can be read is a run. -/
theorem outcome_input_log
    {here : Surroundings}
    {path text : String}
    {records : List Completion}
    (reads : here.read path = .ok text)
    (parsed : CompletionRun.readRecords path text = .ok records)
    (kind : InputKind)
    (window : Window) :
    (here.input kind path
        (steady fun origin text => CompletionRun.read origin text window)).outcome =
      .ok (CompletionRun.ofRecords window records) := by
  have readsInput : here.inputText path = .ok text := by
    rw [Surroundings.inputText, reads]
    rfl
  rw [Surroundings.input, Logged.outcome_mapError, Logged.outcome_bind,
    Logged.outcome_ofExcept, readsInput]
  change ((CompletionRun.read path text window).outcome.mapError _).mapError _ = _
  rw [CompletionRun.read, parsed]
  rfl

/-- Two runs are read from their logs and share a flow. -/
structure Surroundings.Compares
    (here : Surroundings)
    (settings : CompletionSettings)
    (regularPath alternativePath : String)
    (regular alternative : CompletionRun) :
    Prop where
  readsRegular :
    (here.input .regularLog regularPath
        (steady fun origin text =>
          CompletionRun.read origin text ⟨settings.regularDeadline, settings.warmup⟩)).outcome =
      .ok regular
  readsAlternative :
    (here.input .alternativeLog alternativePath
        (steady fun origin text =>
          CompletionRun.read origin text
            ⟨settings.alternativeDeadline, settings.warmup⟩)).outcome =
      .ok alternative
  common : (Comparison.ofRuns regular alternative).count ≠ 0

/-- Two runs are read from their logs, share a flow, and are summed up. -/
def Surroundings.Summarizes
    (here : Surroundings)
    (settings : CompletionSettings)
    (regularPath alternativePath : String)
    (before after : Summary) :
    Prop :=
  ∃ regular alternative,
    here.Compares settings regularPath alternativePath regular alternative ∧
      let comparison := Comparison.ofRuns regular alternative
      comparison.regular.summarize comparison.totalBytes = .ok (some before) ∧
        comparison.alternative.summarize comparison.totalBytes = .ok (some after)

/-- Two runs are read from their logs, and the times of one of them may lack an order. -/
def Surroundings.MayLackOrder
    (here : Surroundings)
    (settings : CompletionSettings)
    (regularPath alternativePath : String) :
    Prop :=
  ∃ regular alternative,
    here.Compares settings regularPath alternativePath regular alternative ∧
      (CommonFlow.MayLackOrder CommonFlow.regular (commonFlows regular alternative) ∨
        CommonFlow.MayLackOrder CommonFlow.alternative (commonFlows regular alternative))

/-- The deeds of a comparison. -/
def statsDeeds
    (settings : CompletionSettings)
    (directory regularSuffix alternativeSuffix opening : String)
    (before after : Except Crash (Option Summary)) :
    List Deed :=
  [.makeDirectories directory, .print opening] ++
    summaryDeeds directory settings.regularLabel regularSuffix before ++
    summaryDeeds directory settings.alternativeLabel alternativeSuffix after ++
    [.print "\n"]

/-- Runs that have been found to share a flow are summed up one after the other. -/
theorem planStats_deeds
    (settings : CompletionSettings)
    (regularPath alternativePath regularSuffix alternativeSuffix directory : String) :
    Yields
      (fun deeds =>
        ∃ opening regular alternative,
          here.Compares settings regularPath alternativePath regular alternative ∧
            let comparison := Comparison.ofRuns regular alternative
            deeds =
              statsDeeds settings directory regularSuffix alternativeSuffix opening
                (comparison.regular.summarize comparison.totalBytes)
                (comparison.alternative.summarize comparison.totalBytes))
      (planStats here settings regularPath alternativePath regularSuffix alternativeSuffix
        directory) := by
  refine yields_bind fun _ _ => yields_bind fun regular isRegular => ?_
  refine yields_bind fun alternative isAlternative => yields_bind fun _ _ => ?_
  split
  case isTrue => exact yields_refuse _
  case isFalse common =>
    exact yields_pure ⟨_, regular, alternative, ⟨isRegular, isAlternative, common⟩, rfl⟩

/-- A comparison of runs that share a flow is worked out, whether or not they are summed up. -/
theorem Surroundings.Compares.outcome_planStats
    {here : Surroundings}
    {settings : CompletionSettings}
    {regularPath alternativePath : String}
    {regular alternative : CompletionRun}
    (compares : here.Compares settings regularPath alternativePath regular alternative)
    (regularSuffix alternativeSuffix directory : String) :
    let comparison := Comparison.ofRuns regular alternative
    let count := comparison.count
    (planStats here settings regularPath alternativePath regularSuffix alternativeSuffix
        directory).outcome =
      .ok (statsDeeds settings directory regularSuffix alternativeSuffix
        s!"\n=== FCT COMPARISON SUMMARY ===\n\nCommon flows: {count}\n"
        (comparison.regular.summarize comparison.totalBytes)
        (comparison.alternative.summarize comparison.totalBytes)) := by
  simp only [planStats, Logged.outcome_bind, Logged.outcome_note, Logged.outcome_report,
    compares.readsRegular, compares.readsAlternative, Except.bind]
  rw [if_neg compares.common]
  rfl

theorem planStats_yields
    (settings : CompletionSettings)
    (regularPath alternativePath regularSuffix alternativeSuffix directory : String) :
    Yields
      (StayWithin
        ((SummaryPaths.ofLabel directory settings.regularLabel regularSuffix).toList ++
          (SummaryPaths.ofLabel directory settings.alternativeLabel alternativeSuffix).toList)
        [directory] (here.MayLackOrder settings regularPath alternativePath))
      (planStats here settings regularPath alternativePath regularSuffix alternativeSuffix
        directory) := by
  intro deeds worked
  rcases planStats_deeds here settings regularPath alternativePath regularSuffix
    alternativeSuffix directory deeds worked with ⟨opening, regular, alternative, compares, rfl⟩
  have some := Comparison.commonFlows_ne_nil compares.common
  have settled :=
    (Comparison.regular_shows regular alternative).summarize_cases some
      (Comparison.ofRuns regular alternative).totalBytes
  have otherSettled :=
    (Comparison.alternative_shows regular alternative).summarize_cases some
      (Comparison.ofRuns regular alternative).totalBytes
  simp only [statsDeeds, stayWithin_append_iff]
  refine ⟨⟨⟨?_, ?_⟩, ?_⟩, by simp [Deed.StaysWithin]⟩
  · simp [Deed.StaysWithin]
  · refine stayWithin_summaryDeeds (settled.imp_right ?_) (List.subset_append_left _ _)
    exact And.imp_right fun lacks => ⟨regular, alternative, compares, Or.inl lacks⟩
  · refine stayWithin_summaryDeeds (otherSettled.imp_right ?_) (List.subset_append_right _ _)
    exact And.imp_right fun lacks => ⟨regular, alternative, compares, Or.inr lacks⟩

theorem planImprovement_yields
    (settings : CompletionSettings)
    (regularPath alternativePath pattern directory : String) :
    Yields (StayWithin [Path.join directory s!"avgreduction-{pattern}.txt"] [] False)
      (planImprovement here settings regularPath alternativePath pattern directory) := by
  refine yields_bind fun regular _ => yields_bind fun alternative _ => ?_
  split
  case h_1 => exact yields_refuse _
  case h_2 => exact yields_pure (by simp [Deed.StaysWithin])

/-- The command compares two runs, and the times of one of them may lack an order. -/
def Command.MayLackOrder
    (here : Surroundings)
    (settings : Settings) :
    Command → Prop
  | .stats regular alternative _ _ _ regularDeadline alternativeDeadline warmup =>
    here.MayLackOrder
      (CompletionSettings.override settings.completion regularDeadline alternativeDeadline warmup)
      regular alternative
  | _ => False

/-- The deeds of a command stay within the outputs that it names. -/
theorem Command.plan_yields
    (settings : Settings)
    (command : Command) :
    Yields
      (StayWithin (command.outputs settings) (command.outputDirectories settings)
        (command.MayLackOrder here settings))
      (command.plan here settings) := by
  cases command with
  | paths => exact planPaths_yields here _ _ _ _ _ _
  | endHosts => exact planEndHosts_yields here _ _
  | assignDelay => exact planAssignDelay_yields here _ _ _ _ _ _
  | fanoutTopology => exact planFanoutTopology_yields here _ _ _
  | fanoutWorkload => exact planFanoutWorkload_yields here _ _ _ _ _ _
  | linkUtil => exact planLinkUtil_yields here _ _ _ _
  | stats regular alternative regularSuffix alternativeSuffix directory regularDeadline
      alternativeDeadline warmup =>
      rw [plan]
      split
      case h_1 => exact yields_refuse _
      case h_2 =>
        -- What the command says about the settings concerns neither the labels nor the directory.
        have within :=
          planStats_yields here
            (CompletionSettings.override settings.completion regularDeadline alternativeDeadline
              warmup)
            regular alternative regularSuffix alternativeSuffix (tableDirectory settings directory)
        rw [outputs, outputDirectories, MayLackOrder]
        exact within
  | improvement => exact planImprovement_yields here _ _ _ _ _

/-- A comparison under settings that make sense is planned as such. -/
theorem plan_stats
    (here : Surroundings)
    {settings : Settings}
    (valid : settings.validate = .ok ())
    (regularPath alternativePath regularSuffix alternativeSuffix directory : String) :
    (Command.stats regularPath alternativePath regularSuffix alternativeSuffix (some directory)
        none none none).plan here settings =
      planStats here settings.completion regularPath alternativePath regularSuffix
        alternativeSuffix directory := by
  rw [Command.plan]
  split
  case h_1 cause refused =>
    have impossible : Except.error cause = .ok () := refused.symm.trans valid
    cases impossible
  case h_2 => rfl

/-! ## Runs -/

/-- The run ended for another reason than that its output could not be written. -/
def Ending.FailsOtherwise
    (ending : Ending) :
    Prop :=
  ending ≠ .finished ∧ ending ≠ .helped ∧
    ∀ failure, ending = .failed failure → failure.isOutput = false

/-- What fails to be worked out is not done. -/
theorem carryOut_of_error
    {plan : Planning (List Deed)}
    {cause : Stop Failure}
    (fails : plan.outcome = .error cause)
    (store : Store) :
    (carryOut store plan).store = store ∧ (carryOut store plan).printed = "" ∧
      (carryOut store plan).ending ≠ .finished := by
  rw [carryOut, fails]
  cases cause with
  | refused failure => exact ⟨rfl, rfl, Ending.noConfusion⟩
  | crashed crash => exact ⟨rfl, rfl, Ending.noConfusion⟩

section Carried

variable
    {files directories : List String}
    {mayLackOrder : Prop}
    {plan : Planning (List Deed)}
    {deeds : List Deed}
    (worked : plan.outcome = .ok deeds)
    (within : StayWithin files directories mayLackOrder deeds)
    (store : Store)

include worked within

theorem changedBy_carryOut :
    Store.ChangedBy files directories store (carryOut store plan).store := by
  rw [carryOut, worked]
  exact (performAll_spec within ⟨store, "", plan.entries⟩).1

/-- Once the deeds are worked out, they are only stopped late. -/
theorem unordered_of_failsOtherwise
    (fails : (carryOut store plan).ending.FailsOtherwise) :
    (carryOut store plan).ending = .crashed .unorderedValues ∧ mayLackOrder := by
  rw [carryOut, worked] at fails ⊢
  rcases fails with ⟨unfinished, -, notOutput⟩
  dsimp only at unfinished notOutput ⊢
  have late := (performAll_spec within ⟨store, "", plan.entries⟩).2
  generalize (performAll deeds ⟨store, "", plan.entries⟩).2 = stop at *
  cases stop with
  | none => exact absurd rfl unfinished
  | some stop =>
      have isLate := late stop rfl
      cases stop with
      | refused failure =>
          have isOutput : failure.isOutput = true := isLate
          rw [notOutput failure rfl] at isOutput
          cases isOutput
      | crashed crash =>
          rcases isLate with ⟨rfl, lacks⟩
          exact ⟨rfl, lacks⟩

end Carried

/--
However its settings are read, a command that fails for another reason than its
output leaves the store as it was and has printed nothing, unless it compares two
runs and those of one of them are found to have no order.  In any case nothing has changed
but the files that the command names as outputs, besides making the directory of
the tables and those above it where they were missing.
-/
theorem commands_leave_only_outputs
    (here : Surroundings)
    (store : Store)
    (configured : Planning Settings)
    (command : Command) :
    let after := carryOut store (configured >>= command.plan here)
    (after.ending.FailsOtherwise →
      after.store = store ∧ after.printed = "" ∨
        after.ending = .crashed .unorderedValues ∧
          ∃ settings,
            configured.outcome = .ok settings ∧ command.MayLackOrder here settings) ∧
      (after.ending = .finished → ∃ settings, configured.outcome = .ok settings) ∧
        (∀ settings,
          configured.outcome = .ok settings →
            Store.ChangedBy (command.outputs settings) (command.outputDirectories settings) store
              after.store) := by
  intro after
  cases worked : (configured >>= command.plan here).outcome with
  | error cause =>
      rcases carryOut_of_error worked store with ⟨kept, silent, unfinished⟩
      refine ⟨fun _ => Or.inl ⟨kept, silent⟩, fun finished => absurd finished unfinished, ?_⟩
      intro settings _
      rw [show after.store = store from kept]
      exact .refl store
  | ok deeds =>
      have planned := worked
      rw [Logged.outcome_bind] at planned
      rcases bind_eq_ok_iff.1 planned with ⟨settings, isSettings, planned⟩
      have within := command.plan_yields here settings deeds planned
      refine ⟨fun fails => ?_, fun _ => ⟨settings, isSettings⟩, fun others areOthers => ?_⟩
      · rcases unordered_of_failsOtherwise worked within store fails with ⟨unordered, lacks⟩
        exact Or.inr ⟨unordered, settings, isSettings, lacks⟩
      · rw [isSettings] at areOthers
        cases areOthers
        exact changedBy_carryOut worked within store

/-! ## A comparison that is cut short -/

/--
A log of six flows without a byte, three of which finished after some time of
their own, and of fifteen flows of one byte, whose times are negative.
-/
def mixedLog
    (time : String) :
    String :=
  printedLines
    [ "0\t1\t3\t1", "0\t1\t3\t2", "0\t1\t3\t3", s!"0\t{time}\t3\t4", s!"0\t{time}\t3\t5",
      s!"0\t{time}\t3\t6", "1\t-1\t3\t7", "1\t-2\t3\t8", "1\t-1\t3\t9", "1\t-2\t3\t10",
      "1\t-1\t3\t11", "1\t-2\t3\t12", "1\t-1\t3\t13", "1\t-2\t3\t14", "1\t-1\t3\t15",
      "1\t-2\t3\t16", "1\t-1\t3\t17", "1\t-2\t3\t18", "1\t-1\t3\t19", "1\t-2\t3\t20",
      "1\t-1\t3\t21" ]

/-- The records of such a log. -/
def mixedRecords
    (time : Float) :
    List Completion :=
  [ ⟨0, 1, 3, 1⟩, ⟨0, 1, 3, 2⟩, ⟨0, 1, 3, 3⟩, ⟨0, time, 3, 4⟩, ⟨0, time, 3, 5⟩,
    ⟨0, time, 3, 6⟩, ⟨1, -1, 3, 7⟩, ⟨1, -2, 3, 8⟩, ⟨1, -1, 3, 9⟩, ⟨1, -2, 3, 10⟩,
    ⟨1, -1, 3, 11⟩, ⟨1, -2, 3, 12⟩, ⟨1, -1, 3, 13⟩, ⟨1, -2, 3, 14⟩, ⟨1, -1, 3, 15⟩,
    ⟨1, -2, 3, 16⟩, ⟨1, -1, 3, 17⟩, ⟨1, -2, 3, 18⟩, ⟨1, -1, 3, 19⟩, ⟨1, -2, 3, 20⟩,
    ⟨1, -1, 3, 21⟩ ]

theorem readRecords_finiteLog :
    CompletionRun.readRecords "regular.log" (mixedLog "1") = .ok (mixedRecords 1) := by
  rw [CompletionRun.readRecords, Table.rows, mixedLog, printedLines, String.toList_ofList]
  decide +kernel

theorem readRecords_infiniteLog :
    CompletionRun.readRecords "alternative.log" (mixedLog "-inf") =
      .ok (mixedRecords (-1.0 / 0.0)) := by
  rw [CompletionRun.readRecords, Table.rows, mixedLog, printedLines, String.toList_ofList]
  decide +kernel

/-- The run of such a log with finite times only. -/
def finiteRun :
    CompletionRun :=
  CompletionRun.ofRecords ⟨10, 2⟩ (mixedRecords 1)

/-- The run of such a log in which three flows without a byte have infinite times. -/
def infiniteRun :
    CompletionRun :=
  CompletionRun.ofRecords ⟨5, 2⟩ (mixedRecords (-1.0 / 0.0))

theorem count_mixedRuns :
    (Comparison.ofRuns finiteRun infiniteRun).count = 21 := by
  decide +kernel

/-- An infinite time without a byte weighs as what is no number, which leaves no order. -/
theorem summarize_infiniteRun :
    (Comparison.ofRuns finiteRun infiniteRun).alternative.summarize
        (Comparison.ofRuns finiteRun infiniteRun).totalBytes =
      .error .unorderedValues := by
  decide +kernel

theorem exists_summarize_finiteRun :
    ∃ before,
      (Comparison.ofRuns finiteRun infiniteRun).regular.summarize
          (Comparison.ofRuns finiteRun infiniteRun).totalBytes =
        .ok (some before) := by
  have common : (Comparison.ofRuns finiteRun infiniteRun).count ≠ 0 :=
    count_mixedRuns ▸ by decide
  rcases (Comparison.regular_shows finiteRun infiniteRun).summarize_cases
      (Comparison.commonFlows_ne_nil common)
      (Comparison.ofRuns finiteRun infiniteRun).totalBytes with made | ⟨-, lacks⟩
  · exact made
  · have finite :
        ∀ flow ∈ commonFlows finiteRun infiniteRun,
          flow.regular.isNaN = false ∧ flow.regular.isInf = false := by
      decide +kernel
    rcases lacks.odd with ⟨flow, listed, isNaN⟩ | ⟨⟨flow, listed, -, isInf⟩, -⟩
    · rw [(finite flow listed).1] at isNaN
      cases isNaN
    · rw [(finite flow listed).2] at isInf
      cases isInf

/-- Both logs in the working directory. -/
def mixedLogs :
    Store :=
  ⟨[ (["regular.log"], .file (mixedLog "1").toByteArray),
    (["alternative.log"], .file (mixedLog "-inf").toByteArray) ]⟩

/--
The tables of the regular run have been written and shown when those of the
alternative run turn out to have no order.
-/
theorem comparison_leaves_tables_of_one_run :
    let settings : Settings := {}
    let command :=
      Command.stats "regular.log" "alternative.log" "run" "run" (some "out") none none none
    let here := surroundings mixedLogs "" (.ofSeed 0)
    let after := carryOut mixedLogs (pure settings >>= command.plan here)
    after.ending.FailsOtherwise ∧ after.ending = .crashed .unorderedValues ∧
      (mixedLogs.item? ["out", "regular-run"]).isSome = false ∧
        (after.store.item? ["out", "regular-run"]).isSome = true ∧ after.printed ≠ "" := by
  intro settings command here after
  have common : (Comparison.ofRuns finiteRun infiniteRun).count ≠ 0 :=
    count_mixedRuns ▸ by decide
  have compares :
      here.Compares settings.completion "regular.log" "alternative.log" finiteRun infiniteRun :=
    ⟨outcome_input_log (Store.readText_of_readBytes rfl) readRecords_finiteLog _ _,
      outcome_input_log (Store.readText_of_readBytes rfl) readRecords_infiniteLog _ _, common⟩
  rcases exists_summarize_finiteRun with ⟨before, madeBefore⟩
  have planned :
      command.plan here settings =
        planStats here settings.completion "regular.log" "alternative.log" "run" "run" "out" :=
    plan_stats here (by decide +kernel) _ _ _ _ _
  have worked := compares.outcome_planStats "run" "run" "out"
  dsimp only at worked
  rw [← planned, ← pure_bind settings (Command.plan here · command), madeBefore,
    summarize_infiniteRun] at worked
  have files :
      SummaryPaths.ofLabel "out" "regular" "run" =
        ⟨"out/regular-run", "out/regular-bulk-run", "out/regular-weighted-run"⟩ := by
    decide
  have cutShort (opening : String) (entries : List Entry) :
      ∃ later,
        performAll (statsDeeds settings.completion "out" "run" "run" opening (.ok (some before))
            (.error .unorderedValues)) ⟨mixedLogs, "", entries⟩ =
          (later, some (.crashed .unorderedValues)) ∧
            (later.store.item? ["out", "regular-run"]).isSome = true ∧
              later.printed = "" ++ opening ++ summaryText "regular" before := by
    simp only [settings, statsDeeds, summaryDeeds, Summary.files, files, List.map_cons,
      List.map_nil, List.cons_append, List.nil_append]
    exact ⟨_, rfl, rfl, rfl⟩
  rcases cutShort _ (pure settings >>= command.plan here).entries with
    ⟨later, performed, written, printed⟩
  have left :
      after =
        ⟨.crashed .unorderedValues, later.printed, later.entries, later.store⟩ := by
    simp only [after, carryOut, worked]
    rw [performed]
    rfl
  rw [left]
  refine ⟨⟨nofun, nofun, nofun⟩, rfl, rfl, written, ?_⟩
  rw [printed]
  simp

end NetRun.Program
