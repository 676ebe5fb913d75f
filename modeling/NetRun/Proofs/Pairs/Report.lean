import NetRun.Pairs.TextReport
import NetRun.Proofs.Decimal.Layout
import NetRun.Proofs.Pairs.Totals

/-!
# What a text report tells

A full report can be read back line by line, and each line field by field, so
equal reports agree in every number that they show.  A pair without a path
shows numbers too, and a reached pair may have just these: the line of such a
pair does not tell whether it is reached.  The histogram counts the reached
pairs only, and so tells how many of them there are.
-/

namespace NetRun

open NetRun.Ordered

namespace TextReport

/-! ## The line of a pair -/

theorem toList_pairLine_full
    (pair : PairRoute) :
    (pairLine .full pair).toList =
      (toString pair.source.toNat).toList ++ '-' :: '>' ::
        ((toString pair.target.toNat).toList ++ ':' :: '\t' ::
          ((toString (pair.delay.getD delayIfUnreached).toNat).toList ++ '\t' ::
            ((toString
              (pair.bottleneck.capacity?.getD Bottleneck.shownIfUnconstrained).toNat).toList ++
                []))) := by
  change (toString pair.source.toNat ++ "->" ++ toString pair.target.toNat ++ ":\t" ++
    toString (pair.delay.getD delayIfUnreached).toNat ++ "\t" ++
    toString (pair.bottleneck.capacity?.getD Bottleneck.shownIfUnconstrained).toNat :
      String).toList = _
  simp

/-- The line of a pair shows its ends, a delay and a capacity, and each can be read off. -/
theorem fields_eq_of_pairLine_eq
    {pair other : PairRoute}
    (same : pairLine .full pair = pairLine .full other) :
    pair.source = other.source ∧ pair.target = other.target ∧
      pair.delay.getD delayIfUnreached = other.delay.getD delayIfUnreached ∧
        pair.bottleneck.capacity?.getD Bottleneck.shownIfUnconstrained =
          other.bottleneck.capacity?.getD Bottleneck.shownIfUnconstrained := by
  have text := congrArg String.toList same
  rw [toList_pairLine_full, toList_pairLine_full] at text
  rcases Decimal.toString_append_inj rfl rfl text with ⟨source, text⟩
  simp only [List.cons.injEq, true_and] at text
  rcases Decimal.toString_append_inj rfl rfl text with ⟨target, text⟩
  simp only [List.cons.injEq, true_and] at text
  rcases Decimal.toString_append_inj rfl rfl text with ⟨delay, text⟩
  simp only [List.cons.injEq, true_and] at text
  rcases Decimal.toString_append_inj rfl rfl text with ⟨capacity, -⟩
  exact
    ⟨UInt32.toNat_inj.1 source, UInt32.toNat_inj.1 target, UInt64.toNat_inj.1 delay,
      UInt64.toNat_inj.1 capacity⟩

/-! ## The line of the histogram -/

/-- A capacity and the number of its pairs. -/
def countText
    (entry : UInt64 × Nat) :
    List Char :=
  (toString entry.1.toNat).toList ++ ':' :: ' ' :: (toString entry.2).toList

/-- What stands behind a count: further counts and the closing brace. -/
def behindCount
    (entries : List (UInt64 × Nat)) :
    List Char :=
  (entries.flatMap fun entry => ',' :: ' ' :: countText entry) ++ ['\x7d']

theorem takeWhile_behindCount
    (entries : List (UInt64 × Nat)) :
    (behindCount entries).takeWhile Char.isDigit = [] := by
  cases entries with
  | nil => rfl
  | cons entry entries => rfl

/-- The numbers of a count end at the colon and where the next count or the brace stands. -/
theorem countText_append_inj
    {entry other : UInt64 × Nat}
    {entries others : List (UInt64 × Nat)}
    (same :
      countText entry ++ behindCount entries = countText other ++ behindCount others) :
    entry = other ∧ behindCount entries = behindCount others := by
  simp only [countText, List.append_assoc, List.cons_append] at same
  rcases Decimal.toString_append_inj rfl rfl same with ⟨capacity, same⟩
  simp only [List.cons.injEq, true_and] at same
  rcases Decimal.toString_append_inj (takeWhile_behindCount _) (takeWhile_behindCount _) same with
    ⟨count, behind⟩
  exact ⟨Prod.ext (UInt64.toNat_inj.1 capacity) count, behind⟩

theorem behindCount_injective :
    Function.Injective behindCount := by
  intro entries
  induction entries with
  | nil =>
      intro others same
      cases others with
      | nil => rfl
      | cons other others => cases same
  | cons entry entries induction =>
      intro others same
      cases others with
      | nil => cases same
      | cons other others =>
          simp only [behindCount, List.flatMap_cons, List.append_assoc, List.cons_append,
            List.cons.injEq, true_and] at same
          rcases countText_append_inj same with ⟨first, behind⟩
          rw [first, induction behind]

/-- Texts with a separator between any two are the first text and then separated texts. -/
theorem intercalate_cons
    (separator first : List Char)
    (others : List (List Char)) :
    separator.intercalate (first :: others) =
      first ++ others.flatMap fun other => separator ++ other := by
  induction others generalizing first with
  | nil => simp
  | cons next others induction =>
      rw [List.intercalate_cons_cons, induction, List.flatMap_cons, List.append_assoc,
        List.append_assoc]

/-- The counts between the braces, with the closing one. -/
def closedCounts
    (entries : List (UInt64 × Nat)) :
    List Char :=
  [',', ' '].intercalate (entries.map countText) ++ ['\x7d']

theorem closedCounts_cons
    (entry : UInt64 × Nat)
    (entries : List (UInt64 × Nat)) :
    closedCounts (entry :: entries) = countText entry ++ behindCount entries := by
  rw [closedCounts, List.map_cons, intercalate_cons, List.flatMap_map, List.append_assoc]
  rfl

theorem closedCounts_cons_ne_nil
    (entry : UInt64 × Nat)
    (entries : List (UInt64 × Nat)) :
    closedCounts (entry :: entries) ≠ closedCounts [] := by
  intro same
  rw [closedCounts_cons] at same
  have lengths := congrArg List.length same
  simp only [countText, closedCounts, List.length_append, List.length_cons] at lengths
  simp at lengths
  omega

theorem closedCounts_injective :
    Function.Injective closedCounts := by
  intro entries others same
  cases entries with
  | nil =>
      cases others with
      | nil => rfl
      | cons other others => exact absurd same.symm (closedCounts_cons_ne_nil other others)
  | cons entry entries =>
      cases others with
      | nil => exact absurd same (closedCounts_cons_ne_nil entry entries)
      | cons other others =>
          rw [closedCounts_cons, closedCounts_cons] at same
          rcases countText_append_inj same with ⟨first, behind⟩
          rw [first, behindCount_injective behind]

theorem toList_histogramLine
    (histogram : SortedMap UInt64 Nat) :
    (histogramLine histogram).toList =
      '\x7b' :: closedCounts histogram.entries := by
  have entryText :
      (String.toList ∘ fun entry : UInt64 × Nat => s!"{entry.1}: {entry.2}") = countText := by
    funext entry
    change (toString entry.1.toNat ++ ": " ++ toString entry.2 : String).toList = _
    simp [countText]
  change ("\x7b" ++ ", ".intercalate
    (histogram.entries.map fun entry => s!"{entry.1}: {entry.2}") ++ "\x7d").toList = _
  rw [String.toList_append, String.toList_append, String.toList_intercalate, List.map_map,
    entryText]
  rfl

/-- The line of a histogram shows its entries, and each can be read off. -/
theorem entries_eq_of_histogramLine_eq
    {histogram other : SortedMap UInt64 Nat}
    (same : histogramLine histogram = histogramLine other) :
    histogram.entries = other.entries := by
  have text := congrArg String.toList same
  rw [toList_histogramLine, toList_histogramLine] at text
  exact closedCounts_injective (List.tail_eq_of_cons_eq text)

/-! ## The lines of a report -/

theorem newline_not_mem_toDigits
    (n : Nat) :
    '\n' ∉ Nat.toDigits 10 n := by
  intro listed
  rw [← Decimal.toList_toString] at listed
  exact absurd (Decimal.isDigit_of_mem_toString listed) (by decide)

theorem newline_not_mem_toString
    (n : Nat) :
    '\n' ∉ (toString n).toList := by
  rw [Decimal.toList_toString]
  exact newline_not_mem_toDigits n

theorem newline_not_mem_pairLine
    (pair : PairRoute) :
    '\n' ∉ (pairLine .full pair).toList := by
  simp [toList_pairLine_full, newline_not_mem_toDigits]

theorem newline_not_mem_histogramLine
    (histogram : SortedMap UInt64 Nat) :
    '\n' ∉ (histogramLine histogram).toList := by
  rw [toList_histogramLine]
  cases histogram.entries with
  | nil => decide
  | cons entry entries =>
      simp [closedCounts_cons, behindCount, countText, newline_not_mem_toDigits]

theorem newline_not_mem_line
    {analysis : PathAnalysis}
    {summary : DelaySummary}
    {line : String}
    (listed : line ∈ lines .full analysis summary) :
    '\n' ∉ line.toList := by
  simp only [lines, List.mem_append, List.mem_map, List.mem_cons, List.not_mem_nil,
    or_false] at listed
  rcases listed with (⟨pair, -, rfl⟩ | rfl | rfl | rfl) | rfl
  · exact newline_not_mem_pairLine pair
  · exact newline_not_mem_toString summary.max.toNat
  · exact newline_not_mem_toString summary.min.toNat
  · intro listed
    have numeral := (Decimal.isNumeric_write_of_unmarked rfl summary.mean).numerals '\n' listed
    exact Bool.noConfusion (Decimal.isBlank_of_isNumeral numeral)
  · exact newline_not_mem_histogramLine _

/-- Equal reports have the same lines. -/
theorem lines_eq_of_render_eq
    {analysis other : PathAnalysis}
    {summary otherSummary : DelaySummary}
    (same : render .full analysis summary = render .full other otherSummary) :
    lines .full analysis summary = lines .full other otherSummary := by
  have split (analysis : PathAnalysis) (summary : DelaySummary) :
      Text.lines (render .full analysis summary).toList =
        (lines .full analysis summary).map String.toList := by
    rw [render, String.toList_ofList, ← List.flatMap_map String.toList fun line => line ++ ['\n']]
    apply Text.lines_flatMap_newline
    intro line listed
    rcases List.mem_map.1 listed with ⟨text, isLine, rfl⟩
    exact newline_not_mem_line isLine
  have texts := congrArg (fun text => Text.lines text.toList) same
  rw [split, split] at texts
  exact List.map_injective_iff.2 (fun _ _ => String.toList_inj.1) texts

/-- Equal reports list pairs of the same lines, and the same histogram. -/
theorem agree_of_render_eq
    {analysis other : PathAnalysis}
    {summary otherSummary : DelaySummary}
    (same : render .full analysis summary = render .full other otherSummary) :
    analysis.pairs.map (pairLine .full) = other.pairs.map (pairLine .full) ∧
      analysis.histogram.entries = other.histogram.entries := by
  have allLines := lines_eq_of_render_eq same
  rw [lines, lines, List.append_assoc, List.append_assoc] at allLines
  rcases List.append_inj' allLines rfl with ⟨pairLines, others⟩
  simp only [List.cons_append, List.nil_append, List.cons.injEq, and_true] at others
  rcases others with ⟨-, -, -, histograms⟩
  exact ⟨pairLines, entries_eq_of_histogramLine_eq histograms⟩

theorem render_eq_of_agree
    {analysis other : PathAnalysis}
    (summary : DelaySummary)
    (pairLines : analysis.pairs.map (pairLine .full) = other.pairs.map (pairLine .full))
    (histograms : analysis.histogram.entries = other.histogram.entries) :
    render .full analysis summary = render .full other summary := by
  rw [render, render, lines, lines, pairLines, histogramLine, histogramLine, histograms]

end TextReport

namespace PairRoute

/-! ## Pairs of the same line -/

/-- The pair is reached, over a route that a full report shows as it shows no route. -/
def LooksUnreached
    (pair : PairRoute) :
    Prop :=
  pair.delay = some TextReport.delayIfUnreached ∧
    pair.bottleneck = .limited Bottleneck.shownIfUnconstrained

instance : DecidablePred LooksUnreached :=
  fun _ => inferInstanceAs (Decidable (_ ∧ _))

/-- The pairs have the same ends, delay and bottleneck. -/
structure SameRoute
    (pair other : PairRoute) :
    Prop where
  source_eq : pair.source = other.source
  target_eq : pair.target = other.target
  delay_eq : pair.delay = other.delay
  bottleneck_eq : pair.bottleneck = other.bottleneck

theorem SameRoute.symm
    {pair other : PairRoute}
    (same : pair.SameRoute other) :
    other.SameRoute pair :=
  ⟨same.source_eq.symm, same.target_eq.symm, same.delay_eq.symm, same.bottleneck_eq.symm⟩

/-- The same pair, but unreached in one place and in the other reached over a look-alike. -/
structure Confusable
    (pair other : PairRoute) :
    Prop where
  source_eq : pair.source = other.source
  target_eq : pair.target = other.target
  unreached : pair.delay = none
  looksUnreached : other.LooksUnreached

/-- Two pairs that cannot be told apart by their lines: of one route, or confusable. -/
def ShownAlike
    (pair other : PairRoute) :
    Prop :=
  pair.SameRoute other ∨ pair.Confusable other ∨ other.Confusable pair

theorem ShownAlike.symm
    {pair other : PairRoute}
    (alike : pair.ShownAlike other) :
    other.ShownAlike pair := by
  rcases alike with same | confusable | confusable
  · exact Or.inl same.symm
  · exact Or.inr (Or.inr confusable)
  · exact Or.inr (Or.inl confusable)

/-- A pair has neither a delay nor a capacity, or both. -/
theorem CapacityIffReached.unreached_or_reached
    {pair : PairRoute}
    (alike : pair.CapacityIffReached) :
    (pair.delay = none ∧ pair.bottleneck = .unconstrained) ∨
      ∃ delay capacity, pair.delay = some delay ∧ pair.bottleneck = .limited capacity := by
  rw [CapacityIffReached] at alike
  cases delay : pair.delay with
  | none =>
      cases bottleneck : pair.bottleneck with
      | unconstrained => exact Or.inl ⟨rfl, rfl⟩
      | limited capacity => simp [delay, bottleneck, Bottleneck.capacity?] at alike
  | some value =>
      cases bottleneck : pair.bottleneck with
      | unconstrained => simp [delay, bottleneck, Bottleneck.capacity?] at alike
      | limited capacity => exact Or.inr ⟨value, capacity, rfl, rfl⟩

/-- An unreached and a reached pair that show the same fields are confusable. -/
theorem confusable_of_fields_eq
    {pair other : PairRoute}
    {delay capacity : UInt64}
    (sources : pair.source = other.source)
    (targets : pair.target = other.target)
    (delays :
      pair.delay.getD TextReport.delayIfUnreached = other.delay.getD TextReport.delayIfUnreached)
    (capacities :
      pair.bottleneck.capacity?.getD Bottleneck.shownIfUnconstrained =
        other.bottleneck.capacity?.getD Bottleneck.shownIfUnconstrained)
    (unreached : pair.delay = none ∧ pair.bottleneck = .unconstrained)
    (reached : other.delay = some delay ∧ other.bottleneck = .limited capacity) :
    pair.Confusable other := by
  rw [unreached.1, reached.1] at delays
  rw [unreached.2, reached.2] at capacities
  refine ⟨sources, targets, unreached.1, ?_, ?_⟩
  · rw [reached.1]
    exact congrArg some delays.symm
  · rw [reached.2]
    exact congrArg Bottleneck.limited capacities.symm

theorem shownAlike_of_pairLine_eq
    {pair other : PairRoute}
    (alike : pair.CapacityIffReached)
    (otherAlike : other.CapacityIffReached)
    (same : TextReport.pairLine .full pair = TextReport.pairLine .full other) :
    pair.ShownAlike other := by
  rcases TextReport.fields_eq_of_pairLine_eq same with ⟨sources, targets, delays, capacities⟩
  rcases alike.unreached_or_reached with missing | ⟨delay, capacity, reached⟩
  · rcases otherAlike.unreached_or_reached with otherMissing | ⟨delay, capacity, otherReached⟩
    · left
      exact
        ⟨sources, targets, missing.1.trans otherMissing.1.symm,
          missing.2.trans otherMissing.2.symm⟩
    · right
      left
      exact confusable_of_fields_eq sources targets delays capacities missing otherReached
  · rcases otherAlike.unreached_or_reached with
      otherMissing | ⟨otherDelay, otherCapacity, otherReached⟩
    · right
      right
      exact
        confusable_of_fields_eq sources.symm targets.symm delays.symm capacities.symm
          otherMissing reached
    · left
      rw [reached.1, otherReached.1] at delays
      rw [reached.2, otherReached.2] at capacities
      refine ⟨sources, targets, ?_, ?_⟩
      · rw [reached.1, otherReached.1]
        exact congrArg some delays
      · rw [reached.2, otherReached.2]
        exact congrArg Bottleneck.limited capacities

theorem Confusable.pairLine_eq
    {pair other : PairRoute}
    (confusable : pair.Confusable other)
    (alike : pair.CapacityIffReached) :
    TextReport.pairLine .full pair = TextReport.pairLine .full other := by
  have noCapacity : pair.bottleneck = .unconstrained := by
    rcases alike.unreached_or_reached with missing | ⟨delay, capacity, reached⟩
    · exact missing.2
    · rw [confusable.unreached] at reached
      cases reached.1
  rw [TextReport.pairLine, TextReport.pairLine, confusable.source_eq, confusable.target_eq,
    confusable.unreached, confusable.looksUnreached.1, noCapacity, confusable.looksUnreached.2]
  rfl

/-- Where exactly the reached pairs have a capacity, only look-alikes share a line. -/
theorem pairLine_eq_iff_shownAlike
    {pair other : PairRoute}
    (alike : pair.CapacityIffReached)
    (otherAlike : other.CapacityIffReached) :
    TextReport.pairLine .full pair = TextReport.pairLine .full other ↔ pair.ShownAlike other := by
  constructor
  · exact shownAlike_of_pairLine_eq alike otherAlike
  · rintro (same | confusable | confusable)
    · rw [TextReport.pairLine, TextReport.pairLine, same.source_eq, same.target_eq,
        same.delay_eq, same.bottleneck_eq]
    · exact confusable.pairLine_eq alike
    · exact (confusable.pairLine_eq otherAlike).symm

end PairRoute

/-! ## Reports of two networks -/

section Related

variable
    {α β : Type}
    {related : α → β → Prop}
    {chosen : α → Bool}
    {taken : β → Bool}
    {first : List α}
    {second : List β}
    (pairs : List.Forall₂ related first second)
    (carries : ∀ a b, related a b → chosen a = true → taken b = true)

include pairs carries

theorem countP_le_of_forall₂ :
    first.countP chosen ≤ second.countP taken := by
  induction pairs with
  | nil => exact Nat.le_refl 0
  | @cons a b first second isRelated pairs induction =>
      rw [List.countP_cons, List.countP_cons]
      cases isChosen : chosen a with
      | true =>
          rw [carries a b isRelated isChosen]
          exact Nat.succ_le_succ induction
      | false => exact induction.trans (Nat.le_add_right _ _)

/-- If no more are taken than chosen, each is taken exactly if its fellow is chosen. -/
theorem forall₂_and_of_countP_eq
    (same : first.countP chosen = second.countP taken) :
    List.Forall₂ (fun a b => related a b ∧ chosen a = taken b) first second := by
  induction pairs with
  | nil => exact List.Forall₂.nil
  | @cons a b first second isRelated pairs induction =>
      have fewer := countP_le_of_forall₂ pairs carries
      rw [List.countP_cons, List.countP_cons] at same
      cases isChosen : chosen a with
      | true =>
          have isTaken := carries a b isRelated isChosen
          rw [isChosen, isTaken] at same
          exact List.Forall₂.cons ⟨isRelated, isChosen.trans isTaken.symm⟩
            (induction (Nat.succ.inj same))
      | false =>
          cases isTaken : taken b with
          | true =>
              rw [isChosen, isTaken] at same
              have more : first.countP chosen = second.countP taken + 1 := same
              rw [more] at fewer
              exact absurd fewer (Nat.not_succ_le_self _)
          | false =>
              rw [isChosen, isTaken] at same
              exact List.Forall₂.cons ⟨isRelated, isChosen.trans isTaken.symm⟩ (induction same)

end Related

namespace TextReport

/-- Pairs that a report shows by the same lines: the same routes, or confusable ones. -/
theorem forall₂_of_pairLines_eq
    {pairs others : List PairRoute}
    (alike : ∀ pair ∈ pairs, pair.CapacityIffReached)
    (othersAlike : ∀ pair ∈ others, pair.CapacityIffReached)
    (same : pairs.map (pairLine .full) = others.map (pairLine .full)) :
    List.Forall₂ PairRoute.ShownAlike pairs others := by
  induction pairs generalizing others with
  | nil =>
      rw [List.map_nil, eq_comm, List.map_eq_nil_iff] at same
      rw [same]
      exact List.Forall₂.nil
  | cons pair pairs induction =>
      cases others with
      | nil => cases same
      | cons other others =>
          rw [List.map_cons, List.map_cons, List.cons.injEq] at same
          rcases List.forall_mem_cons.1 alike with ⟨first, alike⟩
          rcases List.forall_mem_cons.1 othersAlike with ⟨second, othersAlike⟩
          exact List.Forall₂.cons ((PairRoute.pairLine_eq_iff_shownAlike first second).1 same.1)
            (induction alike othersAlike same.2)

/-- If no pair looks unreached and as many pairs are reached, none is confused. -/
theorem forall₂_sameRoute
    {pairs others : List PairRoute}
    (shown : List.Forall₂ PairRoute.ShownAlike pairs others)
    (plain : ∀ pair ∈ pairs, ¬ pair.LooksUnreached)
    (asMany :
      (pairs.countP fun pair => pair.delay.isSome) =
        others.countP fun pair => pair.delay.isSome) :
    List.Forall₂ PairRoute.SameRoute pairs others := by
  have carries :
      ∀ pair other : PairRoute,
        ¬ pair.LooksUnreached ∧ pair.ShownAlike other →
          pair.delay.isSome = true → other.delay.isSome = true := by
    rintro pair other ⟨isPlain, same | confusable | confusable⟩ reached
    · rwa [← same.delay_eq]
    · rw [confusable.unreached] at reached
      cases reached
    · exact absurd confusable.looksUnreached isPlain
  have alike :=
    forall₂_and_of_countP_eq ((List.forall₂_and_left _ _).2 ⟨plain, shown⟩) carries asMany
  apply alike.imp
  rintro pair other ⟨⟨isPlain, same | confusable | confusable⟩, sameReach⟩
  · exact same
  · rw [confusable.unreached, confusable.looksUnreached.1] at sameReach
    cases sameReach
  · exact absurd confusable.looksUnreached isPlain

/--
If two networks have the same full report on the same hosts, the same pairs are
listed, and as many of them are reached.  Each has one delay and bottleneck in
both networks, unless it has no path in the one and looks unreached in the
other.  If no pair of one of the networks looks so, the same pairs are reached.
-/
theorem equal_reports_reach_the_same_pairs
    {topology otherTopology : Topology}
    {table otherTable : RouteTable}
    (computed : (RouteTable.compute topology).outcome = .ok table)
    (otherComputed : (RouteTable.compute otherTopology).outcome = .ok otherTable)
    {hosts : HostSet}
    {filter : PairFilter}
    {analysis other : PathAnalysis}
    (analysed : (PathAnalysis.ofHosts table hosts filter).outcome = .ok analysis)
    (otherAnalysed : (PathAnalysis.ofHosts otherTable hosts filter).outcome = .ok other)
    {summary otherSummary : DelaySummary}
    (same : render .full analysis summary = render .full other otherSummary) :
    List.Forall₂ PairRoute.ShownAlike analysis.pairs other.pairs ∧
      analysis.reached = other.reached ∧
        ((∀ pair ∈ analysis.pairs, ¬ pair.LooksUnreached) ∨
            (∀ pair ∈ other.pairs, ¬ pair.LooksUnreached) →
          List.Forall₂ PairRoute.SameRoute analysis.pairs other.pairs) := by
  have capacitated := RouteTable.capacitated_of_compute computed
  have otherCapacitated := RouteTable.capacitated_of_compute otherComputed
  have accounted :=
    PathAnalysis.accounted_of_ofHosts capacitated analysed
      (RouteTable.size_of_compute computed ▸ topology.nodes.toNat_lt)
  have otherAccounted :=
    PathAnalysis.accounted_of_ofHosts otherCapacitated otherAnalysed
      (RouteTable.size_of_compute otherComputed ▸ otherTopology.nodes.toNat_lt)
  rcases agree_of_render_eq same with ⟨pairLines, histograms⟩
  have shown :=
    forall₂_of_pairLines_eq
      (PathAnalysis.capacityIffReached_of_ofHosts capacitated analysed)
      (PathAnalysis.capacityIffReached_of_ofHosts otherCapacitated otherAnalysed) pairLines
  -- The histograms are equal, and each counts the reached pairs of its own network.
  have asMany : analysis.reached = other.reached := by
    rw [← accounted.sum_histogram, ← otherAccounted.sum_histogram, histograms]
  refine ⟨shown, asMany, ?_⟩
  rintro (plain | plain)
  · exact forall₂_sameRoute shown plain asMany
  · have shownBack : List.Forall₂ PairRoute.ShownAlike other.pairs analysis.pairs :=
      shown.flip.imp fun _ _ => PairRoute.ShownAlike.symm
    exact (forall₂_sameRoute shownBack plain asMany.symm).flip.imp
      fun _ _ => PairRoute.SameRoute.symm

/-- A link that a later one replaces leaves no trace in the report. -/
theorem replaced_link_reports_the_same_pairs :
    ∃ table otherTable analysis other summary,
      (RouteTable.compute (.ofLinks 3 [⟨0, 1, 10, 4⟩])).outcome = .ok table ∧
        (RouteTable.compute (.ofLinks 3 [⟨1, 0, 80, 9⟩, ⟨0, 1, 10, 4⟩])).outcome =
            .ok otherTable ∧
          (PathAnalysis.ofHosts table (.ofList [0, 1, 2]) ⟨none⟩).outcome = .ok analysis ∧
            (PathAnalysis.ofHosts otherTable (.ofList [0, 1, 2]) ⟨none⟩).outcome = .ok other ∧
              analysis.summary = some summary ∧ other.summary = some summary ∧
                render .full analysis summary = render .full other summary ∧
                  analysis.reached = 2 ∧ other.reached = 2 ∧
                    List.Forall₂ PairRoute.SameRoute analysis.pairs other.pairs := by
  have computed :=
    show (RouteTable.compute (.ofLinks 3 [⟨0, 1, 10, 4⟩])).outcome = .ok _ from rfl
  have otherComputed :=
    show (RouteTable.compute (.ofLinks 3 [⟨1, 0, 80, 9⟩, ⟨0, 1, 10, 4⟩])).outcome = .ok _ from rfl
  have analysed (table : RouteTable) :=
    PathAnalysis.outcome_ofHosts_eq_ok table (.ofList [0, 1, 2]) ⟨none⟩
  refine
    ⟨_, _, _, _, ⟨4, 4, Float.ofNat 8 / Float.ofNat 2, 2⟩, computed, otherComputed, analysed _,
      analysed _, by decide +kernel, by decide +kernel, ?_⟩
  suffices same : _ from
    ⟨same, by decide +kernel, by decide +kernel,
      (equal_reports_reach_the_same_pairs computed otherComputed (analysed _) (analysed _)
        same).2.2 (Or.inl (by decide +kernel))⟩
  apply render_eq_of_agree
  · decide +kernel
  · decide +kernel

/--
Two networks, each with a single link of the delay and the capacity that are
shown where there is no path: the reports are equal, and the reached pairs are
not the same.
-/
theorem equal_reports_may_reach_different_pairs :
    ∃ table otherTable analysis other summary,
      (RouteTable.compute (.ofLinks 4 [⟨0, 1, 1000000000, 100000⟩])).outcome = .ok table ∧
        (RouteTable.compute (.ofLinks 4 [⟨2, 3, 1000000000, 100000⟩])).outcome = .ok otherTable ∧
          (PathAnalysis.ofHosts table (.ofList [0, 1, 2, 3]) ⟨none⟩).outcome = .ok analysis ∧
            (PathAnalysis.ofHosts otherTable (.ofList [0, 1, 2, 3]) ⟨none⟩).outcome = .ok other ∧
              analysis.summary = some summary ∧ other.summary = some summary ∧
                render .full analysis summary = render .full other summary ∧
                  ⟨0, 1, some 1, some 100000, .limited 1000000000⟩ ∈ analysis.pairs ∧
                    ⟨0, 1, none, none, .unconstrained⟩ ∈ other.pairs := by
  refine
    ⟨_, _, _, _, ⟨100000, 100000, Float.ofNat 200000 / Float.ofNat 2, 2⟩, rfl, rfl, rfl, rfl,
      ?_, ?_, render_eq_of_agree _ ?_ ?_, ?_, ?_⟩
  all_goals decide +kernel

end TextReport

end NetRun
