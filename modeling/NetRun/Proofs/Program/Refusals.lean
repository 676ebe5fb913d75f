import NetRun.Proofs.Completion.Counts
import NetRun.Proofs.Program.Outputs

/-!
# When a run fails

A failure is found either while a command works out its deeds or while it does
them.  What is found while deeds are worked out lies in the settings, in the
inputs or in what they describe; while deeds are done, only output fails.  To give
up for want of samples is neither, so no command ends with it.
-/

namespace NetRun.Program

open NetRun.Log
open NetRun.Table

/-- The failure lies in the settings, in the inputs or in what they describe. -/
def Failure.isEarly :
    Failure → Bool
  | noSamples _ => false
  | output _ _ => false
  | report _ _ => false
  | directory _ _ => false
  | _ => true

/-- If the computation is refused, the failure is an early one. -/
def RefusesEarly
    {α : Type}
    (plan : Planning α) :
    Prop :=
  ∀ failure, plan.outcome = .error (.refused failure) → failure.isEarly = true

section Parts

variable
    {α β : Type}

theorem refusesEarly_bind
    {first : Planning α}
    {next : α → Planning β}
    (early : RefusesEarly first)
    (rest : ∀ value, RefusesEarly (next value)) :
    RefusesEarly (first >>= next) := by
  intro failure fails
  rw [Logged.outcome_bind] at fails
  rcases bind_eq_error_iff.1 fails with fails | ⟨value, -, fails⟩
  · exact early failure fails
  · exact rest value failure fails

theorem refusesEarly_pure
    (value : α) :
    RefusesEarly (pure value : Planning α) := by
  rintro _ ⟨⟩

theorem refusesEarly_report
    (entries : List Entry) :
    RefusesEarly (Logged.report entries : Planning Unit) := by
  rintro _ ⟨⟩

theorem refusesEarly_refuse
    {failure : Failure}
    (early : failure.isEarly = true) :
    RefusesEarly (refuse failure : Planning α) := by
  rintro _ ⟨⟩
  exact early

/-- A computation whose causes are seen as early failures. -/
theorem refusesEarly_of_mapError
    {ε : Type}
    {outcome : Except ε α}
    {seen : ε → Stop Failure}
    {plan : Planning α}
    (same : plan.outcome = outcome.mapError seen)
    (early : ∀ cause failure, seen cause = .refused failure → failure.isEarly = true) :
    RefusesEarly plan := by
  intro failure fails
  rw [same] at fails
  cases outcome with
  | ok value => cases fails
  | error cause => exact early cause failure (Except.error.inj fails)

end Parts

section Plans

variable
    (here : Surroundings)

theorem refusesEarly_input
    {α : Type}
    (kind : InputKind)
    (path : String)
    (read : String → String → Logged (Stop ReadError) α) :
    RefusesEarly (here.input kind path read) := by
  refine refusesEarly_of_mapError rfl ?_
  rintro (cause | crash) failure ⟨⟩
  rfl

theorem refusesEarly_planPaths
    (settings : PathSettings)
    (topologyPath hostsPath : String)
    (delayOnly : Bool)
    (exclude : Option UInt32)
    (json : Option String) :
    RefusesEarly (planPaths here settings topologyPath hostsPath delayOnly exclude json) := by
  refine refusesEarly_bind (refusesEarly_input here _ _ _) fun topology => ?_
  refine refusesEarly_bind (refusesEarly_input here _ _ _) fun hosts => ?_
  refine refusesEarly_bind (refusesEarly_report _) fun _ => ?_
  refine refusesEarly_bind (refusesEarly_of_mapError rfl ?_) fun table => ?_
  · rintro cause failure ⟨⟩
    rfl
  refine refusesEarly_bind (refusesEarly_of_mapError rfl ?_) fun analysis => ?_
  · rintro cause failure ⟨⟩
  split
  case h_1 => exact refusesEarly_refuse rfl
  case h_2 =>
    cases json with
    | none => exact refusesEarly_pure _
    | some path => exact refusesEarly_pure _

theorem refusesEarly_planEndHosts
    (topologyPath output : String) :
    RefusesEarly (planEndHosts here topologyPath output) :=
  refusesEarly_bind (refusesEarly_input here _ _ _) fun _ =>
    refusesEarly_bind (refusesEarly_report _) fun _ => refusesEarly_pure _

theorem refusesEarly_planAssignDelay
    (settings : DelaySettings)
    (topologyPath hostsPath output : String)
    (access core : Option UInt64) :
    RefusesEarly (planAssignDelay here settings topologyPath hostsPath output access core) :=
  refusesEarly_bind (refusesEarly_input here _ _ _) fun _ =>
    refusesEarly_bind (refusesEarly_input here _ _ _) fun _ =>
      refusesEarly_bind (refusesEarly_report _) fun _ => refusesEarly_pure _

theorem refusesEarly_planFanoutTopology
    (topologyPath : String)
    (fanout : UInt32)
    (output : String) :
    RefusesEarly (planFanoutTopology here topologyPath fanout output) := by
  refine refusesEarly_bind (refusesEarly_input here _ _ _) fun topology => ?_
  refine refusesEarly_bind (refusesEarly_of_mapError rfl ?_) fun expanded => ?_
  · rintro (cause | crash) failure ⟨⟩
    rfl
  · exact refusesEarly_bind (refusesEarly_report _) fun _ => refusesEarly_pure _

theorem refusesEarly_planFanoutWorkload
    (settings : WorkloadSettings)
    (workloadPath : String)
    (fanout core : UInt32)
    (output : String)
    (seed : Option UInt64) :
    RefusesEarly (planFanoutWorkload here settings workloadPath fanout core output seed) := by
  refine refusesEarly_bind (refusesEarly_input here _ _ _) fun flows => ?_
  dsimp only
  split
  case h_1 => exact refusesEarly_refuse rfl
  case h_2 => exact refusesEarly_bind (refusesEarly_report _) fun _ => refusesEarly_pure _

theorem refusesEarly_planLinkUtil
    (settings : WorkloadSettings)
    (workloadPath : String)
    (duration : Float)
    (rate : Option UInt64) :
    RefusesEarly (planLinkUtil here settings workloadPath duration rate) := by
  refine refusesEarly_bind (refusesEarly_input here _ _ _) fun flows => ?_
  split
  case h_1 => exact refusesEarly_refuse rfl
  case h_2 => exact refusesEarly_pure _

theorem refusesEarly_planStats
    (settings : CompletionSettings)
    (regularPath alternativePath regularSuffix alternativeSuffix directory : String) :
    RefusesEarly
      (planStats here settings regularPath alternativePath regularSuffix alternativeSuffix
        directory) := by
  refine refusesEarly_bind (refusesEarly_report _) fun _ => ?_
  refine refusesEarly_bind (refusesEarly_input here _ _ _) fun regular => ?_
  refine refusesEarly_bind (refusesEarly_input here _ _ _) fun alternative => ?_
  refine refusesEarly_bind (refusesEarly_report _) fun _ => ?_
  split
  case isTrue => exact refusesEarly_refuse rfl
  case isFalse => exact refusesEarly_pure _

theorem refusesEarly_planImprovement
    (settings : CompletionSettings)
    (regularPath alternativePath pattern directory : String) :
    RefusesEarly
      (planImprovement here settings regularPath alternativePath pattern directory) := by
  refine refusesEarly_bind (refusesEarly_input here _ _ _) fun regular => ?_
  refine refusesEarly_bind (refusesEarly_input here _ _ _) fun alternative => ?_
  split
  case h_1 => exact refusesEarly_refuse rfl
  case h_2 => exact refusesEarly_pure _

/-- Whatever a command is refused for lies in its settings, its inputs or what they describe. -/
theorem Command.plan_refusesEarly
    (settings : Settings)
    (command : Command) :
    RefusesEarly (command.plan here settings) := by
  cases command with
  | paths => exact refusesEarly_planPaths here _ _ _ _ _ _
  | endHosts => exact refusesEarly_planEndHosts here _ _
  | assignDelay => exact refusesEarly_planAssignDelay here _ _ _ _ _ _
  | fanoutTopology => exact refusesEarly_planFanoutTopology here _ _ _
  | fanoutWorkload => exact refusesEarly_planFanoutWorkload here _ _ _ _ _ _
  | linkUtil => exact refusesEarly_planLinkUtil here _ _ _ _
  | stats =>
      rw [plan]
      split
      case h_1 => exact refusesEarly_refuse rfl
      case h_2 => exact refusesEarly_planStats here _ _ _ _ _ _
  | improvement => exact refusesEarly_planImprovement here _ _ _ _ _

end Plans

/-! ## Runs -/

/-- A run that fails does so early, or else for its output. -/
theorem carryOut_fails
    {plan : Planning (List Deed)}
    {files directories : List String}
    {mayLackOrder : Prop}
    (early : RefusesEarly plan)
    (within : Yields (StayWithin files directories mayLackOrder) plan)
    {store : Store}
    {failure : Failure}
    (fails : (carryOut store plan).ending = .failed failure) :
    failure.isEarly = true ∨ failure.isOutput = true := by
  rw [carryOut] at fails
  cases worked : plan.outcome with
  | error cause =>
      rw [worked] at fails
      cases cause with
      | crashed crash => cases fails
      | refused cause =>
          cases fails
          exact Or.inl (early failure worked)
  | ok deeds =>
      -- No deed of a plan gives up, so only output can make the deeds fail.
      have late := (performAll_spec (within deeds worked) ⟨store, "", plan.entries⟩).2
      rw [worked] at fails
      dsimp only at fails
      generalize (performAll deeds ⟨store, "", plan.entries⟩).2 = stop at fails late
      rcases stop with _ | failure | crash
      · cases fails
      · cases fails
        exact Or.inr (late _ rfl)
      · cases fails

/--
Two runs with a common flow are both summed up, whatever is taken for the bytes of
all flows: over the same sizes, in ascending order, with the same number of flows
in the rows of a size, and with the number of all common flows in each table.  The
exception is a run of many flows with a time that leaves the order open.  Without a
common flow neither is summed up.  So no command gives up for want of samples.
-/
theorem summaries_never_lack_samples
    (regular alternative : CompletionRun)
    (totalBytes : Float) :
    Comparison.SummedUp regular alternative totalBytes ∧
      ∀ here settings command store label,
        (carryOut store (Command.plan here settings command)).ending ≠
          .failed (.noSamples label) := by
  refine ⟨Comparison.summedUp regular alternative totalBytes, ?_⟩
  intro here settings command store label fails
  rcases carryOut_fails (command.plan_refusesEarly here settings)
    (command.plan_yields here settings) fails with early | output
  · cases early
  · cases output

/-- Three common flows of two sizes, and flows in one run only; the bytes are taken to be none. -/
theorem three_flows_never_lack_samples :
    ∃ (regular alternative : CompletionRun) (sizes : List UInt64) (before after : Summary),
      (Comparison.ofRuns regular alternative).regular.summarize 0 = .ok (some before) ∧
        (Comparison.ofRuns regular alternative).alternative.summarize 0 = .ok (some after) ∧
          (100 ∈ sizes ∧ 200 ∉ sizes) ∧
            before.bySize.map StatsRow.count = after.bySize.map StatsRow.count ∧
              before.AccountsFor sizes 3 ∧ after.AccountsFor sizes 3 := by
  let regular :=
    CompletionRun.ofRecords ⟨10, 0⟩
      [⟨1500, 3, 1, 7⟩, ⟨100, 0.5, 1, 1⟩, ⟨100, 2, 1, 2⟩, ⟨9000, 5, 1, 3⟩]
  let alternative :=
    CompletionRun.ofRecords ⟨10, 0⟩
      [⟨100, 0.25, 1, 2⟩, ⟨100, 0.1, 1, 1⟩, ⟨200, 1, 1, 4⟩, ⟨1500, 4, 2, 7⟩]
  have three : (Comparison.ofRuns regular alternative).count = 3 := by decide +kernel
  have common : (Comparison.ofRuns regular alternative).count ≠ 0 := by
    rw [three]
    decide
  have few : ¬ Sorting.insertedValues < (commonFlows regular alternative).length := by
    rw [← Comparison.count_ofRuns, three]
    decide
  have summedUp := (summaries_never_lack_samples regular alternative 0).1
  rcases summedUp.of_common common with ⟨sizes, -, isSize, beforeAccounted, afterAccounted⟩
  rw [three] at beforeAccounted afterAccounted
  have shared : 100 ∈ sizes := (isSize 100).2 ⟨1, by decide +kernel⟩
  have notShared : 200 ∉ sizes := by
    intro listed
    rcases (isSize 200).1 listed with ⟨flow, inRegular, -⟩
    have noTime : regular.time? 200 flow = none := by
      rw [CompletionRun.time?, show regular.get? 200 = none by decide +kernel]
      rfl
    rw [noTime] at inRegular
    cases inRegular
  cases beforeAccounted with
  | unordered stops lacks => exact absurd lacks.many few
  | summedUp madeBefore beforeAccounts =>
      cases afterAccounted with
      | unordered stops lacks => exact absurd lacks.many few
      | summedUp madeAfter afterAccounts =>
          exact ⟨regular, alternative, sizes, _, _, madeBefore, madeAfter, ⟨shared, notShared⟩,
            summedUp.same_counts _ _ madeBefore madeAfter, beforeAccounts, afterAccounts⟩

/-- Of the two runs that share 21 flows, the one with infinite times is not summed up. -/
theorem infinite_times_are_not_summed_up :
    ∃ regular alternative,
      CompletionRun.parse "regular.log" (mixedLog "1") ⟨10, 2⟩ = .ok regular ∧
        CompletionRun.parse "alternative.log" (mixedLog "-inf") ⟨5, 2⟩ = .ok alternative ∧
          (Comparison.ofRuns regular alternative).count = 21 ∧
            ¬ ∃ after,
              (Comparison.ofRuns regular alternative).alternative.summarize
                  (Comparison.ofRuns regular alternative).totalBytes =
                .ok (some after) := by
  refine ⟨finiteRun, infiniteRun, ?_, ?_, count_mixedRuns, ?_⟩
  · rw [CompletionRun.parse, readRecords_finiteLog]
    rfl
  · rw [CompletionRun.parse, readRecords_infiniteLog]
    rfl
  · rintro ⟨after, made⟩
    rw [summarize_infiniteRun] at made
    cases made

end NetRun.Program
