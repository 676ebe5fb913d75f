import NetRun.Proofs.Completion.Log
import NetRun.Proofs.Completion.Summary
import NetRun.Proofs.Statistics.Sums

/-!
# Bytes compared

The average over bytes divides by the bytes of all flows compared.  That there
are flows to compare does not yet mean that there are bytes: flows of size zero
are read like any others.  The divisor is zero exactly if no compared flow has
a byte, and then the average is no number.
-/

namespace NetRun

open NetRun.Doubles

/-! ## Logged times -/

namespace CompletionRun

/-- The run is read from a log. -/
def IsLogged
    (run : CompletionRun) :
    Prop :=
  ∃ origin text window, parse origin text window = .ok run

/-- No window admits a time that is no number. -/
theorem IsLogged.isNaN_eq_false
    {run : CompletionRun}
    (logged : run.IsLogged)
    {size flow : UInt64}
    {time : Float}
    (timed : run.time? size flow = some time) :
    time.isNaN = false := by
  rcases logged with ⟨origin, text, window, parsed⟩
  rcases parse_eq_ok_iff.1 parsed with ⟨records, -, keeps⟩
  rcases (keeps.times size flow time).1 timed with ⟨_, ⟨before, behind, counts, -⟩, rfl⟩
  have admitted := counts.isAdmitted
  rw [Completion.isAdmitted, Window.admits, Bool.and_eq_true, decide_eq_true_iff] at admitted
  rw [← Bool.not_eq_true]
  exact fun isNaN => not_add_le_of_isNaN isNaN _ _ admitted.1

end CompletionRun

/-! ## Weighing without bytes -/

theorem Samples.average_of_summarize
    {samples : Samples}
    {totalBytes : Float}
    {summary : Summary}
    (made : samples.summarize totalBytes = .ok (some summary)) :
    summary.bytes.average = total samples.weighted / totalBytes :=
  (StatsRow.values_of_withAverage? (sumsUpTo_of_summarize made).bytes).2.1

/-- Flows without a byte weigh nothing, whatever their times. -/
theorem Samples.Shows.isNought_total_weighted
    {samples : Samples}
    {timeOf : CommonFlow → Float}
    {flows : List CommonFlow}
    (shows : samples.Shows timeOf flows)
    (empty : ∀ flow ∈ flows, flow.size = 0) :
    IsNought (total samples.weighted) := by
  rw [shows.weighted]
  apply isNought_total
  intro value listed
  rcases List.mem_map.1 listed with ⟨flow, isFlow, rfl⟩
  rw [empty flow isFlow]
  exact isZero_toFloat_zero.isNought_mul (timeOf flow)

/-- Flows without a byte are summed up as long as their times are numbers. -/
theorem Samples.Shows.exists_summary_of_empty
    {samples : Samples}
    {timeOf : CommonFlow → Float}
    {flows : List CommonFlow}
    (shows : samples.Shows timeOf flows)
    (common : flows ≠ [])
    (empty : ∀ flow ∈ flows, flow.size = 0)
    (numbers : ∀ flow ∈ flows, (timeOf flow).isNaN = false)
    (totalBytes : Float) :
    ∃ summary, samples.summarize totalBytes = .ok (some summary) := by
  rcases shows.summarize_cases common totalBytes with made | ⟨-, lacks⟩
  · exact made
  · rcases lacks.odd with ⟨flow, listed, isNaN⟩ | ⟨-, flow, listed, sized⟩
    · rw [numbers flow listed] at isNaN
      cases isNaN
    · exact absurd (empty flow listed) sized

namespace Comparison

theorem totalBytes_ofRuns
    (regular alternative : CompletionRun) :
    (ofRuns regular alternative).totalBytes =
      total (((commonFlows regular alternative).map CommonFlow.size).map UInt64.toFloat) := by
  rw [ofRuns_eq, totalBytes, List.map_map]
  rfl

/--
The bytes of all flows compared are one or more as soon as one of the flows has
a byte.  If none has, they are zero, and the average over bytes of a summary is
no number.  If there are flows at all, runs that are read from logs both have
such a summary.
-/
theorem total_bytes_vanish_without_bytes
    (regular alternative : CompletionRun) :
    ((∃ flow ∈ commonFlows regular alternative, flow.size ≠ 0) →
      1.0 ≤ (ofRuns regular alternative).totalBytes ∧
        ((ofRuns regular alternative).totalBytes == 0.0) = false) ∧
      ((∀ flow ∈ commonFlows regular alternative, flow.size = 0) →
        ((ofRuns regular alternative).totalBytes == 0.0) = true ∧
          (∀ samples ∈
              [(ofRuns regular alternative).regular, (ofRuns regular alternative).alternative],
            ∀ summary,
              samples.summarize (ofRuns regular alternative).totalBytes = .ok (some summary) →
                summary.bytes.average.isNaN = true) ∧
            ((ofRuns regular alternative).count ≠ 0 →
              regular.IsLogged → alternative.IsLogged →
                ∃ before after,
                  (ofRuns regular alternative).regular.summarize
                      (ofRuns regular alternative).totalBytes = .ok (some before) ∧
                    (ofRuns regular alternative).alternative.summarize
                      (ofRuns regular alternative).totalBytes = .ok (some after))) := by
  rw [totalBytes_ofRuns]
  have before := regular_shows regular alternative
  have after := alternative_shows regular alternative
  constructor
  · rintro ⟨flow, isFlow, sized⟩
    have large := isAtLeastOne_total ⟨flow.size, List.mem_map_of_mem isFlow, sized⟩
    exact ⟨large.one_le, large.beq_zero⟩
  · intro empty
    have isZero :
        IsZero (total (((commonFlows regular alternative).map CommonFlow.size).map
          UInt64.toFloat)) := by
      apply isZero_total
      intro size listed
      rcases List.mem_map.1 listed with ⟨flow, isFlow, rfl⟩
      exact empty flow isFlow
    refine ⟨isZero.beq_zero, ?_, fun common isLogged otherIsLogged => ?_⟩
    · rw [List.forall_mem_cons, List.forall_mem_singleton]
      constructor
      · intro summary made
        rw [Samples.average_of_summarize made]
        exact (before.isNought_total_weighted empty).isNaN_div isZero
      · intro summary made
        rw [Samples.average_of_summarize made]
        exact (after.isNought_total_weighted empty).isNaN_div isZero
    · have some := commonFlows_ne_nil common
      rcases before.exists_summary_of_empty some empty (fun flow listed =>
        isLogged.isNaN_eq_false (mem_commonFlows_iff.1 listed).1) _ with ⟨summary, made⟩
      rcases after.exists_summary_of_empty some empty (fun flow listed =>
        otherIsLogged.isNaN_eq_false (mem_commonFlows_iff.1 listed).2) _ with ⟨other, madeOther⟩
      exact ⟨summary, other, made, madeOther⟩

/-- Two logs with one flow of size zero each: there is a flow to compare, and not a byte. -/
theorem empty_flow_has_no_bytes :
    ∃ regular alternative before,
      CompletionRun.parse "regular" "0\t1.0\t3.0\t1\n" ⟨10, 2⟩ = .ok regular ∧
        CompletionRun.parse "alternative" "0\t0.5\t3.0\t1\n" ⟨5, 2⟩ = .ok alternative ∧
          (ofRuns regular alternative).count = 1 ∧
            ((ofRuns regular alternative).totalBytes == 0.0) = true ∧
              (ofRuns regular alternative).regular.summarize
                  (ofRuns regular alternative).totalBytes = .ok (some before) ∧
                before.bytes.average.isNaN = true := by
  have isRegular :
      CompletionRun.readRecords "regular" "0\t1.0\t3.0\t1\n" = .ok [⟨0, 1, 3, 1⟩] := by
    decide +kernel
  have isAlternative :
      CompletionRun.readRecords "alternative" "0\t0.5\t3.0\t1\n" = .ok [⟨0, 0.5, 3, 1⟩] := by
    decide +kernel
  let regular := CompletionRun.ofRecords ⟨10, 2⟩ [⟨0, 1, 3, 1⟩]
  let alternative := CompletionRun.ofRecords ⟨5, 2⟩ [⟨0, 0.5, 3, 1⟩]
  have one : (ofRuns regular alternative).count = 1 := by decide +kernel
  have some : (ofRuns regular alternative).count ≠ 0 := one ▸ Nat.one_ne_zero
  rcases exists_summaries_of_few some (one ▸ Nat.one_le_ofNat)
    (ofRuns regular alternative).totalBytes with ⟨before, -, madeBefore, -⟩
  refine ⟨regular, alternative, before, ?_, ?_, one, by decide +kernel, madeBefore, ?_⟩
  · rw [CompletionRun.parse, isRegular]
    rfl
  · rw [CompletionRun.parse, isAlternative]
    rfl
  · rw [Samples.average_of_summarize madeBefore]
    decide +kernel

end Comparison

end NetRun
