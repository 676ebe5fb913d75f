import NetRun.Completion.Comparison
import NetRun.Proofs.Ordered.Groups
import Mathlib.Data.List.Sort
import Mathlib.Data.Prod.Lex

/-!
# What a comparison compares

The flows compared are those that finished in both runs, each of them once, in
ascending order of size and number.  An ascending list is determined by its
members, so it does not matter which of the runs is walked.  Every list of a
comparison is the image of this one list, and so are the lists under the sizes,
put one behind the other.
-/

namespace NetRun

open NetRun.Ordered

/-- The completion time of a flow, if it finished. -/
def CompletionRun.time?
    (run : CompletionRun)
    (size flow : UInt64) :
    Option Float :=
  (run.get? size).bind fun flows => flows.get? flow

namespace CommonFlow

/-- The first flow comes before the second: it is smaller, or as large with a lower number. -/
def Before
    (first second : CommonFlow) :
    Prop :=
  Prod.Lex (· < ·) (· < ·) (first.size, first.flow) (second.size, second.flow)

/-- The flow with its two runs exchanged. -/
def exchange
    (flow : CommonFlow) :
    CommonFlow :=
  ⟨flow.size, flow.flow, flow.alternative, flow.regular⟩

instance :
    Std.Asymm Before where
  asymm first second before behind := by
    rcases Prod.lex_def.1 before with less | ⟨same, less⟩ <;>
      rcases Prod.lex_def.1 behind with greater | ⟨again, greater⟩
    · exact UInt64.lt_asymm less greater
    · exact UInt64.lt_irrefl _ (again ▸ less)
    · exact UInt64.lt_irrefl _ (same ▸ greater)
    · exact UInt64.lt_asymm less greater

end CommonFlow

section Flows

variable
    {regular alternative : CompletionRun}

theorem mem_commonOfSize_iff
    {size : UInt64}
    {regularFlows alternativeFlows : SortedMap UInt64 Float}
    {flow : CommonFlow} :
    flow ∈ commonOfSize size regularFlows alternativeFlows ↔
      flow.size = size ∧ regularFlows.get? flow.flow = some flow.regular ∧
        alternativeFlows.get? flow.flow = some flow.alternative := by
  rcases flow with ⟨flowSize, number, regularTime, alternativeTime⟩
  simp only [commonOfSize, List.mem_filterMap, Option.map_eq_some_iff, Prod.exists,
    SortedMap.mem_entries_iff, CommonFlow.mk.injEq]
  constructor
  · rintro ⟨_, _, inAlternative, _, inRegular, rfl, rfl, rfl, rfl⟩
    exact ⟨rfl, inRegular, inAlternative⟩
  · rintro ⟨rfl, inRegular, inAlternative⟩
    exact ⟨number, alternativeTime, inAlternative, regularTime, inRegular, rfl, rfl, rfl, rfl⟩

/-- The flows compared are those that have a time in both runs. -/
theorem mem_commonFlows_iff
    {flow : CommonFlow} :
    flow ∈ commonFlows regular alternative ↔
      regular.time? flow.size flow.flow = some flow.regular ∧
        alternative.time? flow.size flow.flow = some flow.alternative := by
  simp only [commonFlows, List.mem_flatMap, Prod.exists, SortedMap.mem_entries_iff,
    CompletionRun.time?, Option.bind_eq_some_iff]
  constructor
  · rintro ⟨size, alternativeFlows, inAlternative, listed⟩
    cases inRegular : regular.get? size with
    | none => simp [inRegular] at listed
    | some regularFlows =>
        simp only [inRegular, mem_commonOfSize_iff] at listed
        rcases listed with ⟨rfl, regularTime, alternativeTime⟩
        exact ⟨⟨regularFlows, inRegular, regularTime⟩,
          ⟨alternativeFlows, inAlternative, alternativeTime⟩⟩
  · rintro ⟨⟨regularFlows, inRegular, regularTime⟩, alternativeFlows, inAlternative,
      alternativeTime⟩
    refine ⟨flow.size, alternativeFlows, inAlternative, ?_⟩
    simp only [inRegular]
    exact mem_commonOfSize_iff.2 ⟨rfl, regularTime, alternativeTime⟩

theorem pairwise_commonOfSize
    (size : UInt64)
    (regularFlows alternativeFlows : SortedMap UInt64 Float) :
    (commonOfSize size regularFlows alternativeFlows).Pairwise CommonFlow.Before := by
  apply List.pairwise_filterMap.2
  apply alternativeFlows.ascending.imp
  intro first second before flow fromFirst other fromSecond
  rcases Option.map_eq_some_iff.1 fromFirst with ⟨_, -, rfl⟩
  rcases Option.map_eq_some_iff.1 fromSecond with ⟨_, -, rfl⟩
  exact Prod.Lex.right size before

/-- The flows compared ascend, so none is listed twice. -/
theorem pairwise_commonFlows :
    (commonFlows regular alternative).Pairwise CommonFlow.Before := by
  rw [commonFlows, List.pairwise_flatMap]
  dsimp only
  constructor
  · rintro ⟨size, flows⟩ _
    cases inRegular : regular.get? size with
    | none => exact List.Pairwise.nil
    | some regularFlows => exact pairwise_commonOfSize size regularFlows flows
  · apply alternative.ascending.imp
    rintro ⟨size, flows⟩ ⟨higher, others⟩ before flow fromFirst other fromSecond
    dsimp only at before fromFirst fromSecond
    split at fromFirst
    case h_2 => cases fromFirst
    case h_1 =>
      split at fromSecond
      case h_2 => cases fromSecond
      case h_1 =>
        rcases mem_commonOfSize_iff.1 fromFirst with ⟨rfl, -⟩
        rcases mem_commonOfSize_iff.1 fromSecond with ⟨rfl, -⟩
        exact Prod.Lex.left _ _ before

/-- It does not matter which of the runs is walked. -/
theorem commonFlows_exchange :
    commonFlows alternative regular =
      (commonFlows regular alternative).map CommonFlow.exchange := by
  have mapped :
      ((commonFlows regular alternative).map CommonFlow.exchange).Pairwise CommonFlow.Before :=
    List.pairwise_map.2 pairwise_commonFlows
  apply pairwise_commonFlows.eq_of_mem_iff mapped
  intro flow
  rw [mem_commonFlows_iff, List.mem_map]
  constructor
  · rintro ⟨alternativeTime, regularTime⟩
    exact ⟨flow.exchange, mem_commonFlows_iff.2 ⟨regularTime, alternativeTime⟩, rfl⟩
  · rintro ⟨other, listed, rfl⟩
    exact (mem_commonFlows_iff.1 listed).symm

end Flows

/-! ## The lists of a comparison -/

namespace Samples

/-- The samples of flows, each with its time in one of the runs. -/
def ofFlows
    (timeOf : CommonFlow → Float)
    (flows : List CommonFlow) :
    Samples :=
  flows.foldl (fun samples flow => samples.push flow.size (timeOf flow)) empty

theorem foldl_push
    (timeOf : CommonFlow → Float)
    (samples : Samples)
    (flows : List CommonFlow) :
    flows.foldl (fun samples flow => samples.push flow.size (timeOf flow)) samples =
      ⟨samples.bySize.appendAll CommonFlow.size timeOf flows,
        samples.times ++ flows.map timeOf,
        samples.weighted ++ flows.map fun flow => timeOf flow * flow.size.toFloat⟩ := by
  induction flows generalizing samples with
  | nil => simp [SortedMap.appendAll]
  | cons flow flows induction =>
      rw [List.foldl_cons, induction, push]
      simp [SortedMap.appendAll]

theorem ofFlows_eq
    (timeOf : CommonFlow → Float)
    (flows : List CommonFlow) :
    ofFlows timeOf flows =
      ⟨SortedMap.empty.appendAll CommonFlow.size timeOf flows, flows.map timeOf,
        flows.map fun flow => timeOf flow * flow.size.toFloat⟩ :=
  foldl_push timeOf empty flows

/--
The samples show one time for each of the flows, in their order, in every one of
their lists.
-/
structure Shows
    (samples : Samples)
    (timeOf : CommonFlow → Float)
    (flows : List CommonFlow) :
    Prop where
  times : samples.times = flows.map timeOf
  weighted : samples.weighted = flows.map fun flow => timeOf flow * flow.size.toFloat
  /-- The sizes are those of the flows. -/
  sizes : ∀ size, size ∈ samples.bySize.keys ↔ ∃ flow ∈ flows, flow.size = size
  /-- Under a size stand the times of its flows. -/
  ofSize :
    ∀ size times, samples.bySize.get? size = some times →
      times ≠ [] ∧ times = (flows.filter fun flow => flow.size = size).map timeOf
  /-- The lists under the sizes, one behind the other, are all times. -/
  joined : samples.bySize.entries.flatMap Prod.snd = samples.times

/-- Samples of ascending flows show them. -/
theorem shows_ofFlows
    (timeOf : CommonFlow → Float)
    {flows : List CommonFlow}
    (ascending : flows.Pairwise CommonFlow.Before) :
    (ofFlows timeOf flows).Shows timeOf flows := by
  rw [ofFlows_eq]
  constructor
  case times => rfl
  case weighted => rfl
  case sizes =>
    intro size
    refine SortedMap.mem_keys_appendAll_iff.trans ?_
    exact or_iff_right List.not_mem_nil
  case ofSize =>
    intro size times listed
    have all :
        ((SortedMap.empty.appendAll CommonFlow.size timeOf flows).get? size).getD [] = _ :=
      SortedMap.getD_get?_appendAll flows size
    rw [listed] at all
    exact ⟨SortedMap.ne_nil_of_get?_appendAll listed, all⟩
  case joined =>
    refine SortedMap.flatMap_appendAll ?_ fun entry impossible => absurd impossible List.not_mem_nil
    apply ascending.imp
    intro first second before smaller
    rcases Prod.lex_def.1 before with less | ⟨same, -⟩
    · exact UInt64.lt_asymm less smaller
    · have equal : first.size = second.size := same
      exact UInt64.lt_irrefl _ (equal ▸ smaller)

end Samples

namespace Comparison

/-- The comparison of flows, in their order. -/
theorem foldl_push
    (comparison : Comparison)
    (flows : List CommonFlow) :
    flows.foldl push comparison =
      ⟨flows.foldl (fun samples flow => samples.push flow.size flow.regular) comparison.regular,
        flows.foldl (fun samples flow => samples.push flow.size flow.alternative)
          comparison.alternative,
        comparison.sizes ++ flows.map fun flow => flow.size.toFloat⟩ := by
  induction flows generalizing comparison with
  | nil => simp
  | cons flow flows induction =>
      rw [List.foldl_cons, induction, push]
      simp

theorem ofRuns_eq
    (regular alternative : CompletionRun) :
    ofRuns regular alternative =
      ⟨Samples.ofFlows CommonFlow.regular (commonFlows regular alternative),
        Samples.ofFlows CommonFlow.alternative (commonFlows regular alternative),
        (commonFlows regular alternative).map fun flow => flow.size.toFloat⟩ :=
  foldl_push empty (commonFlows regular alternative)

/-- The comparison with its two runs exchanged. -/
def exchange
    (comparison : Comparison) :
    Comparison :=
  ⟨comparison.alternative, comparison.regular, comparison.sizes⟩

theorem ofRuns_exchange
    (regular alternative : CompletionRun) :
    ofRuns alternative regular = (ofRuns regular alternative).exchange := by
  rw [ofRuns_eq, ofRuns_eq, commonFlows_exchange, exchange]
  simp only [Samples.ofFlows, List.foldl_map, List.map_map]
  rfl

theorem regular_shows
    (regular alternative : CompletionRun) :
    (ofRuns regular alternative).regular.Shows CommonFlow.regular
      (commonFlows regular alternative) := by
  rw [ofRuns_eq]
  exact Samples.shows_ofFlows CommonFlow.regular pairwise_commonFlows

theorem alternative_shows
    (regular alternative : CompletionRun) :
    (ofRuns regular alternative).alternative.Shows CommonFlow.alternative
      (commonFlows regular alternative) := by
  rw [ofRuns_eq]
  exact Samples.shows_ofFlows CommonFlow.alternative pairwise_commonFlows

theorem count_ofRuns
    (regular alternative : CompletionRun) :
    (ofRuns regular alternative).count = (commonFlows regular alternative).length := by
  rw [ofRuns_eq, count, List.length_map]

/--
Two runs are compared on the flows that have a time in both, each of them once
and in ascending order of size and number.  At every place of the lists of the
comparison stand the times and the size of the flow at that place, and under
every size the times of its flows.  Exchanging the runs exchanges the samples.
-/
theorem ofRuns_shows_common_flows
    (regular alternative : CompletionRun) :
    (∃ flows : List CommonFlow,
      flows.Pairwise CommonFlow.Before ∧
        (∀ flow, flow ∈ flows ↔
          regular.time? flow.size flow.flow = some flow.regular ∧
            alternative.time? flow.size flow.flow = some flow.alternative) ∧
        (ofRuns regular alternative).regular.Shows CommonFlow.regular flows ∧
        (ofRuns regular alternative).alternative.Shows CommonFlow.alternative flows ∧
        (ofRuns regular alternative).sizes = flows.map fun flow => flow.size.toFloat) ∧
      ofRuns alternative regular = (ofRuns regular alternative).exchange := by
  refine ⟨⟨commonFlows regular alternative, pairwise_commonFlows, ?_,
    regular_shows regular alternative, alternative_shows regular alternative, ?_⟩,
    ofRuns_exchange regular alternative⟩
  · intro flow
    exact mem_commonFlows_iff
  · rw [ofRuns_eq]

end Comparison

end NetRun
