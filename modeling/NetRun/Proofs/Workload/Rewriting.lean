import NetRun.Proofs.Table.Columns
import NetRun.Proofs.Workload.Spreading
import NetRun.Workload.Uniform
import Mathlib.Data.Prod.Basic

/-!
# Traces that are written again

A start time keeps the text that it was read from, so a written flow begins with
the same fields as the line that it came from.  A trace is written with its
number of flows, alone on the first line, and no line of a flow has a single
word.  So what is written is read back flow by flow, whether or not the trace was
counted before, and also after its flows have been moved to replicas.
-/

namespace NetRun

open NetRun.Log
open NetRun.Table

/-! ## Lines of flows -/

/-- The first four words of a line are the fields of a flow. -/
structure Flow.Begins
    (words : List String)
    (flow : Flow) :
    Prop where
  start : (words[0]?).bind StartTime.ofText? = some flow.start
  size : FieldIs words 1 flow.size.toNat
  source : FieldIs words 2 flow.source.toNat
  target : FieldIs words 3 flow.target.toNat

/-- The start time is what its own text, which is a field, is read as. -/
structure StartTime.KeepsText
    (start : StartTime) :
    Prop where
  isField : IsField start.text
  reads : StartTime.ofText? start.text = some start

theorem StartTime.text_of_ofText?
    {text : String}
    {start : StartTime}
    (reads : StartTime.ofText? text = some start) :
    start.text = text := by
  rcases Option.map_eq_some_iff.1 reads with ⟨_, -, rfl⟩
  rfl

/-- A line that begins with a flow begins with the text of its start time. -/
theorem Flow.Begins.keepsText
    {words : List String}
    {flow : Flow}
    (begins : flow.Begins words)
    (areFields : ∀ word ∈ words, IsField word) :
    flow.start.KeepsText := by
  rcases Option.bind_eq_some_iff.1 begins.start with ⟨word, stands, reads⟩
  have isField := areFields word (List.mem_of_getElem? stands)
  rw [← StartTime.text_of_ofText? reads] at isField reads
  exact ⟨isField, reads⟩

namespace Trace

theorem readFlow_eq_ok_iff
    {row : Row}
    {flow : Flow} :
    readFlow row = .ok flow ↔ flow.Begins row.words := by
  simp only [readFlow, bind_eq_ok_iff, Row.number_eq_ok_iff, word32_eq_ok_iff_fieldIs,
    word64_eq_ok_iff_fieldIs, pure_eq_ok_iff]
  constructor
  · rintro ⟨_, start, _, size, _, source, _, target, rfl⟩
    exact ⟨Option.bind_eq_some_iff.2 start, size, source, target⟩
  · rintro ⟨start, size, source, target⟩
    exact ⟨_, Option.bind_eq_some_iff.1 start, _, size, _, source, _, target, rfl⟩

/-- The flows of a table are those that its lines begin with, blank lines apart. -/
theorem readFlows_eq_ok_iff
    {origin : String}
    {above : Nat}
    {lines : List (List String)}
    {flows : List Flow} :
    readFlows (numbered origin above lines) = .ok flows ↔
      List.Forall₂ (fun words flow => flow.Begins words)
        (lines.filter fun words => !words.isEmpty) flows :=
  mapM_numbered_eq_ok_iff fun _ _ _ => readFlow_eq_ok_iff

/-- The flows of a trace that is read come from lines of its text. -/
theorem exists_lines_of_parse
    {origin text : String}
    {trace : Trace}
    (parses : parse origin text = .ok trace) :
    ∃ lines,
      lines.Sublist (wordLines text) ∧
        List.Forall₂ (fun words flow => flow.Begins words) lines trace.flows := by
  rw [parse, rows_eq_numbered] at parses
  cases split : wordLines text with
  | nil =>
      rw [split] at parses
      cases parses
      exact ⟨[], List.Sublist.refl [], .nil⟩
  | cons head below =>
      rw [split, numbered_cons] at parses
      dsimp only at parses
      -- A first line with one word is a count, and the flows begin below it.
      split at parses
      case isTrue =>
        simp only [bind_eq_ok_iff, readFlows_eq_ok_iff, pure_eq_ok_iff] at parses
        rcases parses with ⟨declared, -, flows, begin, rfl⟩
        exact ⟨_, List.filter_sublist.cons head, begin⟩
      case isFalse =>
        rw [← numbered_cons] at parses
        simp only [bind_eq_ok_iff, readFlows_eq_ok_iff, pure_eq_ok_iff] at parses
        rcases parses with ⟨flows, begin, rfl⟩
        exact ⟨_, List.filter_sublist, begin⟩

/-! ## Writing and reading back -/

/-- The fields that a flow is written in. -/
def flowFields
    (flow : Flow) :
    List String :=
  [flow.start.text, toString flow.size, toString flow.source, toString flow.target]

theorem begins_flowFields
    {flow : Flow}
    (keeps : flow.start.KeepsText) :
    flow.Begins (flowFields flow) where
  start := keeps.reads
  size := fieldIs_toString rfl
  source := fieldIs_toString rfl
  target := fieldIs_toString rfl

/-- The lines of a written trace: the number of flows, and the flows. -/
theorem wordLines_render
    {flows : List Flow}
    (keep : ∀ flow ∈ flows, flow.start.KeepsText) :
    wordLines (render flows) = [toString flows.length] :: flows.map flowFields := by
  refine Table.wordLines_render (List.forall_mem_cons.2 ⟨?_, ?_⟩)
  · exact List.forall_mem_singleton.2 (isField_toString _)
  · intro fields listed
    rcases List.mem_map.1 listed with ⟨flow, isFlow, rfl⟩
    rw [List.forall_mem_cons, List.forall_mem_cons, List.forall_mem_cons,
      List.forall_mem_singleton]
    exact ⟨(keep flow isFlow).isField, isField_toString _, isField_toString _, isField_toString _⟩

/-- What is written is read back, its count met. -/
theorem parse_render
    (origin : String)
    {flows : List Flow}
    (keep : ∀ flow ∈ flows, flow.start.KeepsText)
    (few : flows.length < UInt64.size) :
    parse origin (render flows) = .ok ⟨some (UInt64.ofNat flows.length), flows⟩ := by
  have begin : readFlows (numbered origin 1 (flows.map flowFields)) = .ok (flows.map id) := by
    refine mapM_numbered_map (fun _ _ => List.cons_ne_nil _ _) fun flow listed _ => ?_
    exact readFlow_eq_ok_iff.2 (begins_flowFields (keep flow listed))
  rw [parse, rows_eq_numbered, wordLines_render keep, numbered_cons]
  -- The count stands alone on the first line, so it is not taken for a flow.
  change (do
    let declared ← (⟨origin, 1, [toString flows.length]⟩ : Row).word64 0 "flow count"
    let flows ← readFlows (numbered origin 1 (flows.map flowFields))
    return (⟨some declared, flows⟩ : Trace)) = _
  rw [word64_count few, begin, List.map_id]
  rfl

/-- A trace that is written is read back flow by flow, with nothing to warn of. -/
def ReadsBack
    (origin : String)
    (flows : List Flow) :
    Prop :=
  (read origin (render flows)).outcome = .ok flows ∧
    (read origin (render flows)).entries.filter Entry.isWarning = []

theorem readsBack
    (origin : String)
    {flows : List Flow}
    (keep : ∀ flow ∈ flows, flow.start.KeepsText)
    (few : flows.length < UInt64.size) :
    ReadsBack origin flows := by
  have quiet :
      notices origin ⟨some (UInt64.ofNat flows.length), flows⟩ =
        [debug s!"Parsed {flows.length} flows from {origin}"] := by
    have met : flows.length = (UInt64.ofNat flows.length).toNat :=
      (UInt64.toNat_ofNat_of_lt' few).symm
    rw [notices]
    dsimp only
    rw [if_pos met]
    rfl
  rw [ReadsBack, read, Logged.reportOn_of_eq_ok (parse_render origin keep few), quiet]
  exact ⟨rfl, rfl⟩

/-- Flows that are read keep the texts of their start times, and the text has a character for each. -/
theorem keepsText_of_read
    {origin text : String}
    {flows : List Flow}
    (reads : (read origin text).outcome = .ok flows) :
    (∀ flow ∈ flows, flow.start.KeepsText) ∧ flows.length ≤ text.length := by
  have parses : ∃ trace, parse origin text = .ok trace ∧ trace.flows = flows := by
    simp only [read, Logged.outcome_bind, Logged.outcome_ofExcept, Logged.outcome_report,
      Logged.outcome_pure] at reads
    rcases bind_eq_ok_iff.1 reads with ⟨trace, parses, ends⟩
    cases ends
    exact ⟨trace, parses, rfl⟩
  rcases parses with ⟨trace, parses, rfl⟩
  rcases exists_lines_of_parse parses with ⟨lines, fromText, begin⟩
  constructor
  · intro flow listed
    rcases exists_related_of_mem begin listed with ⟨words, isLine, begins⟩
    exact begins.keepsText fun word => isField_of_mem_wordLines (fromText.subset isLine)
  · rw [← begin.length_eq, ← String.length_toList]
    have bound := fromText.length_le
    rw [wordLines, List.length_map] at bound
    exact Nat.le_trans bound (Text.length_lines_le _)

end Trace

/-! ## Flows that were moved -/

/-- Moving flows changes their ends only. -/
theorem spreadFlows_ensures
    {σ : Type}
    (draw : UInt32 → σ → UInt32 × σ)
    (flows : List Flow)
    (fanout core : UInt32) :
    (spreadFlows draw flows fanout core).Ensures
      (List.Forall₂
        (fun flow copy => copy = { flow with source := copy.source, target := copy.target })
        flows) :=
  (spreadFlows_keepsSites draw flows fanout core).imp fun _ copies =>
    copies.imp fun _ _ keeps => keeps.same

/--
A trace that is read, counted or not, and written again is read back flow by flow
with nothing to warn of: in the order and with the sizes and ends that it had,
and with the same texts for its start times.  So is one whose flows were moved to
replicas, whatever was drawn, and the trace without flows.  A text is no longer
than memory can hold, so its flows can be counted.
-/
theorem Trace.rewriting_keeps_flows
    (origin : String) :
    Trace.ReadsBack origin [] ∧
      ∀ source text flows,
        text.length ≤ addressable → (Trace.read source text).outcome = .ok flows →
          Trace.ReadsBack origin flows ∧
            ∀ (σ : Type) (draw : UInt32 → σ → UInt32 × σ) fanout core stream moved rest,
              (spreadFlows draw flows fanout core).run stream = (.ok moved, rest) →
                Trace.ReadsBack origin moved := by
  refine ⟨Trace.readsBack origin (fun _ listed => absurd listed List.not_mem_nil) (by decide), ?_⟩
  intro source text flows small reads
  rcases Trace.keepsText_of_read reads with ⟨keep, perLine⟩
  have few : flows.length < UInt64.size :=
    Nat.lt_of_le_of_lt (Nat.le_trans perLine small) (by decide)
  refine ⟨Trace.readsBack origin keep few, ?_⟩
  intro σ draw fanout core stream moved rest runs
  have copies := spreadFlows_ensures draw flows fanout core stream moved rest runs
  rw [copies.length_eq] at few
  refine Trace.readsBack origin ?_ few
  intro copy listed
  rcases exists_related_of_mem copies listed with ⟨flow, isFlow, same⟩
  rw [same]
  exact keep flow isFlow

/-- A raw trace with blank lines, a further field and texts that are no number's plain digits. -/
def unevenTrace :
    String :=
  " +1e-3 100 2 3 late\r\n \t\nNaN\t+007\t3 2\r\n\n0.100000 18446744073709551615 3 3"

theorem unevenTrace_keeps_flows :
    ∃ flows moved rest,
      (Trace.read Trace.unnamed unevenTrace).outcome = .ok flows ∧
        (flows.map fun flow => flow.start.text) = ["+1e-3", "NaN", "0.100000"] ∧
          Trace.ReadsBack Trace.unnamed flows ∧
            (spreadFlows Uniform.Supply.below flows 3 2).run ⟨0, [3000000000, 0, 1500000000]⟩ =
                (.ok moved, rest) ∧
              (moved.map fun flow => (flow.source, flow.target)) = [(6, 3), (5, 2), (3, 3)] ∧
                Trace.ReadsBack Trace.unnamed moved := by
  have parsed :
      ∃ first second third : StartTime,
        (Trace.read Trace.unnamed unevenTrace).outcome =
            .ok [⟨first, 100, 2, 3⟩, ⟨second, 7, 3, 2⟩, ⟨third, 18446744073709551615, 3, 3⟩] ∧
          [first.text, second.text, third.text] = ["+1e-3", "NaN", "0.100000"] :=
    ⟨_, _, _, rfl, rfl⟩
  -- The seconds play no part in moving the flows and are kept from being computed again.
  rcases parsed with ⟨first, second, third, reads, texts⟩
  have small : unevenTrace.length ≤ addressable := by decide +kernel
  rcases (Trace.rewriting_keeps_flows Trace.unnamed).2 _ _ _ small reads with ⟨unmoved, moved⟩
  have drawn :
      ((spreadFlows Uniform.Supply.below
            [⟨first, 100, 2, 3⟩, ⟨second, 7, 3, 2⟩, ⟨third, 18446744073709551615, 3, 3⟩] 3 2).run
          ⟨0, [3000000000, 0, 1500000000]⟩).1 =
        .ok [⟨first, 100, 6, 3⟩, ⟨second, 7, 5, 2⟩, ⟨third, 18446744073709551615, 3, 3⟩] := by
    rfl
  have spreads := Prod.fst_eq_iff.1 drawn
  exact ⟨_, _, _, reads, texts, unmoved, spreads, rfl, moved _ _ _ _ _ _ _ spreads⟩

end NetRun
