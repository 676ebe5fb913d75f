import NetRun.Pairs.Analysis
import NetRun.Proofs.Ordered.Accumulate
import NetRun.Proofs.Pairs.Collect
import Mathlib.Algebra.Ring.Nat

/-!
# Counts of pairs

An analysis counts pairs in two places: those without a path, and those with
each capacity as their bottleneck.  Both counts are read as counts over the
list of pairs.
-/

namespace NetRun

open NetRun.Log
open NetRun.Ordered

/-- Under a capacity stands the number of pairs with this bottleneck. -/
theorem getD_get?_bottleneckHistogram
    (pairs : List PairRoute)
    (capacity : UInt64) :
    ((bottleneckHistogram pairs).get? capacity).getD 0 =
      pairs.countP fun pair => pair.bottleneck.capacity? = some capacity := by
  change
    (((pairs.filterMap fun pair => pair.bottleneck.capacity?).foldl
      (SortedMap.accumulate id (fun count _ => count + 1) 0) SortedMap.empty).get?
        capacity).getD 0 = _
  rw [SortedMap.getD_get?_foldl_accumulate, List.foldl_add_const, Nat.one_mul,
    ← List.countP_eq_length_filter, List.countP_filterMap]
  apply (Nat.zero_add _).trans
  apply List.countP_congr
  intro pair _
  cases pair.bottleneck.capacity? with
  | none => simp
  | some own => simp

theorem count_eq_countP_of_mem_entries
    {pairs : List PairRoute}
    {capacity : UInt64}
    {count : Nat}
    (listed : (capacity, count) ∈ (bottleneckHistogram pairs).entries) :
    count = pairs.countP fun pair => pair.bottleneck.capacity? = some capacity := by
  rw [← getD_get?_bottleneckHistogram, SortedMap.mem_entries_iff.1 listed, Option.getD_some]

/-- One more under a capacity is one more in all. -/
theorem sum_upsertEntry_succ
    (capacity : UInt64)
    (entries : List (UInt64 × Nat)) :
    ((upsertEntry capacity (fun count => count.getD 0 + 1) entries).map Prod.snd).sum =
      (entries.map Prod.snd).sum + 1 := by
  induction entries with
  | nil => rfl
  | cons entry rest induction =>
      rcases entry with ⟨other, count⟩
      rw [upsertEntry]
      split
      case isTrue => simp [Nat.add_comm]
      case isFalse =>
        split
        case isTrue => simp [induction, Nat.add_assoc]
        case isFalse => simp [Nat.add_right_comm]

/-- The histogram counts every pair with a capacity once. -/
theorem sum_bottleneckHistogram
    (pairs : List PairRoute) :
    ((bottleneckHistogram pairs).entries.map Prod.snd).sum =
      pairs.countP fun pair => pair.bottleneck.capacity?.isSome := by
  have counted (capacities : List UInt64) (counts : SortedMap UInt64 Nat) :
      ((capacities.foldl
          (fun counts capacity => counts.upsert capacity fun count => count.getD 0 + 1)
          counts).entries.map Prod.snd).sum =
        (counts.entries.map Prod.snd).sum + capacities.length := by
    induction capacities generalizing counts with
    | nil => rfl
    | cons capacity capacities induction =>
        rw [List.foldl_cons, induction, SortedMap.upsert, sum_upsertEntry_succ,
          List.length_cons, Nat.add_assoc, Nat.add_comm 1]
  rw [bottleneckHistogram, counted, List.length_filterMap_eq_countP]
  exact Nat.zero_add _

/-- Only capacities that some pair has are listed. -/
theorem pos_of_mem_entries
    {pairs : List PairRoute}
    {entry : UInt64 × Nat}
    (listed : entry ∈ (bottleneckHistogram pairs).entries) :
    0 < entry.2 := by
  revert entry
  apply List.foldlRecOn
    (motive := fun counts : SortedMap UInt64 Nat => ∀ {entry}, entry ∈ counts.entries → 0 < entry.2)
  · rintro entry ⟨⟩
  · intro counts before capacity _ entry listed
    exact forall_mem_upsertEntry (fun _ => before) (fun count => Nat.succ_pos _) entry listed

namespace PathAnalysis

theorem unreached_ofPairs
    (pairs : List PairRoute) :
    (ofPairs pairs).unreached = pairs.countP fun pair => pair.delay.isNone := by
  change pairs.length - (pairs.filterMap PairRoute.delay).length = _
  rw [List.length_filterMap_eq_countP,
    List.length_eq_countP_add_countP fun pair => pair.delay.isSome, Nat.add_sub_cancel_left]
  apply List.countP_congr
  intro pair _
  rw [decide_eq_true_eq, Bool.not_eq_true, Option.isSome_eq_false_iff]

/-- Analysing a set of hosts analyses the pairs that are collected from it. -/
theorem outcome_ofHosts
    (table : RouteTable)
    (hosts : HostSet)
    (filter : PairFilter) :
    (ofHosts table hosts filter).outcome =
      (PairRoute.collect table hosts filter).outcome.map ofPairs := by
  simp only [ofHosts, Logged.outcome_bind, Logged.outcome_report, Logged.outcome_pure]
  rfl

end PathAnalysis

end NetRun
