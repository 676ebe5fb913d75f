import NetRun.Proofs.Ordered.Accumulate
import NetRun.Proofs.Ordered.Last
import NetRun.Proofs.Workload.Spreading
import NetRun.Workload.Load
import Mathlib.Algebra.BigOperators.Group.Finset.Basic
import Mathlib.Algebra.BigOperators.Group.Finset.Piecewise
import Mathlib.Algebra.Order.BigOperators.Group.List
import Mathlib.Algebra.Order.Group.Nat
import Mathlib.Algebra.Ring.Nat

/-!
# Load is conserved

The load of a node is the exact sum of the sizes of the flows that it sends, as
long as this sum can be counted in 64 bits.  So no byte is lost or counted twice,
the order of the flows does not count, and flows that are moved to replicas leave
the bytes of every site as they are.
-/

namespace NetRun

open NetRun.Ordered

/-! ## Bytes of a node -/

/-- The bytes of some flows, counted exactly. -/
def totalSize
    (flows : List Flow) :
    Nat :=
  (flows.map fun flow => flow.size.toNat).sum

/-- The bytes that a node sends. -/
def sentBytes
    (flows : List Flow)
    (node : NodeId) :
    Nat :=
  totalSize (flows.filter fun flow => flow.source = node)

/-- The bytes that a node sends can be counted in 64 bits, for every node. -/
def CountsFit
    (flows : List Flow) :
    Prop :=
  ∀ node, sentBytes flows node < UInt64.size

theorem sentBytes_cons
    (flow : Flow)
    (flows : List Flow)
    (node : NodeId) :
    sentBytes (flow :: flows) node =
      (if flow.source = node then flow.size.toNat else 0) + sentBytes flows node := by
  rw [sentBytes, sentBytes, List.filter_cons]
  by_cases sends : flow.source = node
  · rw [if_pos (decide_eq_true sends), if_pos sends]
    exact List.sum_cons
  · rw [if_neg (by simpa using sends), if_neg sends, Nat.zero_add]

theorem sentBytes_perm
    {flows other : List Flow}
    (same : flows.Perm other)
    (node : NodeId) :
    sentBytes flows node = sentBytes other node :=
  ((same.filter _).map _).sum_eq

theorem totalSize_filter_le
    (passes : Flow → Bool)
    (flows : List Flow) :
    totalSize (flows.filter passes) ≤ totalSize flows :=
  (List.filter_sublist.map _).sum_le_sum fun _ _ => Nat.zero_le _

/-- If all bytes can be counted together, so can those of each node. -/
theorem countsFit_of_totalSize_lt
    {flows : List Flow}
    (small : totalSize flows < UInt64.size) :
    CountsFit flows :=
  fun _ => Nat.lt_of_le_of_lt (totalSize_filter_le _ flows) small

/-- Sizes are added in words, which may wrap. -/
theorem foldl_add_size
    (flows : List Flow)
    (start : UInt64) :
    flows.foldl (fun bytes flow => bytes + flow.size) start =
      start + UInt64.ofNat (totalSize flows) := by
  induction flows generalizing start with
  | nil => exact (UInt64.add_zero start).symm
  | cons flow flows induction =>
      have total : totalSize (flow :: flows) = flow.size.toNat + totalSize flows := List.sum_cons
      rw [List.foldl_cons, induction, total, UInt64.ofNat_add, UInt64.ofNat_toNat,
        UInt64.add_assoc]

/-! ## Bytes by source -/

theorem bytesBySource_eq
    (flows : List Flow) :
    bytesBySource flows =
      flows.foldl (SortedMap.accumulate Flow.source (fun bytes flow => bytes + flow.size) 0)
        SortedMap.empty :=
  rfl

theorem mem_keys_bytesBySource_iff
    {flows : List Flow}
    {node : NodeId} :
    node ∈ (bytesBySource flows).keys ↔ ∃ flow ∈ flows, flow.source = node := by
  rw [bytesBySource_eq, SortedMap.mem_keys_foldl_accumulate_iff]
  exact or_iff_right List.not_mem_nil

theorem getD_get?_bytesBySource
    (flows : List Flow)
    (node : NodeId) :
    ((bytesBySource flows).get? node).getD 0 = UInt64.ofNat (sentBytes flows node) := by
  rw [bytesBySource_eq, SortedMap.getD_get?_foldl_accumulate, foldl_add_size]
  exact UInt64.zero_add _

theorem eq_ofNat_of_get?_bytesBySource
    {flows : List Flow}
    {node : NodeId}
    {bytes : UInt64}
    (counted : (bytesBySource flows).get? node = some bytes) :
    bytes = UInt64.ofNat (sentBytes flows node) := by
  rw [← getD_get?_bytesBySource, counted, Option.getD_some]

/-- The order of the flows does not count. -/
theorem bytesBySource_perm
    {flows other : List Flow}
    (same : flows.Perm other) :
    bytesBySource flows = bytesBySource other := by
  apply SortedMap.eq_of_get?_eq
  intro node
  have isKey : node ∈ (bytesBySource flows).keys ↔ node ∈ (bytesBySource other).keys := by
    simp only [mem_keys_bytesBySource_iff, same.mem_iff]
  rw [SortedMap.mem_keys_iff, SortedMap.mem_keys_iff] at isKey
  cases counted : (bytesBySource flows).get? node with
  | none =>
      rw [counted] at isKey
      exact (Option.eq_none_iff_forall_ne_some.2 fun bytes isBytes =>
        nomatch isKey.2 ⟨bytes, isBytes⟩).symm
  | some bytes =>
      rcases isKey.1 ⟨bytes, counted⟩ with ⟨others, countedOther⟩
      rw [countedOther, eq_ofNat_of_get?_bytesBySource counted,
        eq_ofNat_of_get?_bytesBySource countedOther, sentBytes_perm same]

/-! ## Loads -/

/-- The loads tell of every source, in ascending order, the bytes that it sends. -/
structure TellsLoads
    (flows : List Flow)
    (loads : List NodeLoad) :
    Prop where
  ascending : (loads.map NodeLoad.node).Pairwise (· < ·)
  mem_iff : ∀ node, node ∈ loads.map NodeLoad.node ↔ ∃ flow ∈ flows, flow.source = node
  bytes_eq : ∀ load ∈ loads, load.bytes.toNat = sentBytes flows load.node

/-- The bytes that the loads tell of. -/
def loadedBytes
    (loads : List NodeLoad) :
    Nat :=
  (loads.map fun load => load.bytes.toNat).sum

/-- The bytes that some nodes send are those of the flows from them. -/
theorem sum_sentBytes
    (flows : List Flow)
    (nodes : Finset NodeId) :
    ∑ node ∈ nodes, sentBytes flows node =
      totalSize (flows.filter fun flow => flow.source ∈ nodes) := by
  induction flows with
  | nil => exact Finset.sum_const_zero
  | cons flow flows induction =>
      simp only [sentBytes_cons, Finset.sum_add_distrib, Finset.sum_ite_eq, induction,
        List.filter_cons]
      by_cases sends : flow.source ∈ nodes
      · rw [if_pos sends, if_pos (decide_eq_true sends)]
        exact List.sum_cons.symm
      · rw [if_neg sends, if_neg (by simpa using sends), Nat.zero_add]

/-- The bytes of the loads of some nodes are those of the flows from them. -/
theorem TellsLoads.loadedBytes_filter
    {flows : List Flow}
    {loads : List NodeLoad}
    (tells : TellsLoads flows loads)
    (chosen : NodeId → Bool) :
    loadedBytes (loads.filter fun load => chosen load.node) =
      totalSize (flows.filter fun flow => chosen flow.source) := by
  have distinct : ((loads.filter fun load => chosen load.node).map NodeLoad.node).Nodup :=
    ((tells.ascending.imp UInt32.ne_of_lt).sublist (List.filter_sublist.map _))
  have bytes :
      ((loads.filter fun load => chosen load.node).map fun load => load.bytes.toNat) =
        ((loads.filter fun load => chosen load.node).map NodeLoad.node).map (sentBytes flows) := by
    rw [List.map_map]
    apply List.map_congr_left
    intro load listed
    exact tells.bytes_eq load (List.mem_of_mem_filter listed)
  rw [loadedBytes, bytes, ← List.sum_toFinset _ distinct, sum_sentBytes]
  apply congrArg totalSize
  apply List.filter_congr
  intro flow listed
  have isNode := (tells.mem_iff flow.source).2 ⟨flow, listed, rfl⟩
  rcases List.mem_map.1 isNode with ⟨load, isLoad, same⟩
  rw [Bool.eq_iff_iff, decide_eq_true_iff, List.mem_toFinset, List.mem_map]
  constructor
  · rintro ⟨other, otherListed, otherSame⟩
    rw [← otherSame]
    exact (List.mem_filter.1 otherListed).2
  · intro isChosen
    exact ⟨load, List.mem_filter.2 ⟨isLoad, same ▸ isChosen⟩, same⟩

theorem TellsLoads.loadedBytes_eq
    {flows : List Flow}
    {loads : List NodeLoad}
    (tells : TellsLoads flows loads) :
    loadedBytes loads = totalSize flows := by
  have all := tells.loadedBytes_filter fun _ => true
  rwa [List.filter_true, List.filter_true] at all

/-! ## The rule -/

section Offered

variable
    {flows : List Flow}
    {seconds : Float}
    {bitsPerSecond : UInt64}
    (lasts : 0.0 < seconds)
    (positive : 0 < bitsPerSecond)

include lasts positive

theorem offeredLoad_eq_ok
    (flows : List Flow) :
    offeredLoad flows seconds bitsPerSecond =
      .ok ((bytesBySource flows).entries.map fun entry =>
        ⟨entry.1, entry.2, bytePercent entry.2 (bitsPerSecond.toFloat * seconds)⟩) := by
  rw [offeredLoad, if_neg (not_not.2 lasts), if_neg (UInt64.ne_of_lt positive).symm]

theorem exists_offeredLoad_tells
    (fit : CountsFit flows) :
    ∃ loads, offeredLoad flows seconds bitsPerSecond = .ok loads ∧ TellsLoads flows loads := by
  refine ⟨_, offeredLoad_eq_ok lasts positive flows, ?_⟩
  have nodes :
      ((bytesBySource flows).entries.map fun entry : NodeId × UInt64 =>
        (⟨entry.1, entry.2, bytePercent entry.2 (bitsPerSecond.toFloat * seconds)⟩ :
          NodeLoad)).map NodeLoad.node = (bytesBySource flows).keys :=
    List.map_map
  constructor
  case ascending =>
    rw [nodes]
    exact (bytesBySource flows).pairwise_keys
  case mem_iff =>
    intro node
    rw [nodes, mem_keys_bytesBySource_iff]
  case bytes_eq =>
    intro load listed
    rcases List.mem_map.1 listed with ⟨⟨node, bytes⟩, isEntry, rfl⟩
    rw [eq_ofNat_of_get?_bytesBySource (SortedMap.mem_entries_iff.1 isEntry)]
    exact UInt64.toNat_ofNat_of_lt' (fit node)

end Offered

/-- The loads of one site: of the nodes with a residue modulo the core. -/
def siteLoads
    (core : UInt32)
    (residue : Nat)
    (loads : List NodeLoad) :
    List NodeLoad :=
  loads.filter fun load => load.node.toNat % core.toNat = residue

/-- Flows that keep their sites send the same bytes from each of them. -/
theorem totalSize_site_eq
    {core : UInt32}
    {flows moved : List Flow}
    (keep : List.Forall₂ (Flow.KeepsSites core) flows moved)
    (residue : Nat) :
    totalSize (moved.filter fun flow => flow.source.toNat % core.toNat = residue) =
      totalSize (flows.filter fun flow => flow.source.toNat % core.toNat = residue) := by
  induction keep with
  | nil => rfl
  | @cons flow copy flows moved keeps _ induction =>
      have sameSize : copy.size = flow.size := by rw [keeps.same]
      rw [List.filter_cons, List.filter_cons, keeps.source_mod]
      split
      · exact congrArg₂ (· + ·) (congrArg UInt64.toNat sameSize) induction
      · exact induction

/--
As long as the bytes of every source can be counted in 64 bits, the loads tell of
each source, in ascending order, exactly the bytes that it sends.  Together they
are the bytes of all flows, and the order of the flows does not count.  Moving the
flows to replicas, whatever is drawn, leaves the bytes of each site as they are.
-/
theorem offeredLoad_conserves_bytes
    {flows : List Flow}
    (fit : CountsFit flows)
    {seconds : Float}
    (lasts : 0.0 < seconds)
    {bitsPerSecond : UInt64}
    (positive : 0 < bitsPerSecond) :
    ∃ loads,
      offeredLoad flows seconds bitsPerSecond = .ok loads ∧
        TellsLoads flows loads ∧
          loadedBytes loads = totalSize flows ∧
            (∀ other,
              flows.Perm other → offeredLoad other seconds bitsPerSecond = .ok loads) ∧
              ∀ (σ : Type) (draw : UInt32 → σ → UInt32 × σ) fanout core stream moved rest,
                (spreadFlows draw flows fanout core).run stream = (.ok moved, rest) →
                  CountsFit moved →
                    ∃ movedLoads,
                      offeredLoad moved seconds bitsPerSecond = .ok movedLoads ∧
                        TellsLoads moved movedLoads ∧
                          ∀ residue,
                            loadedBytes (siteLoads core residue movedLoads) =
                              loadedBytes (siteLoads core residue loads) := by
  rcases exists_offeredLoad_tells lasts positive fit with ⟨loads, offered, tells⟩
  refine ⟨loads, offered, tells, tells.loadedBytes_eq, ?_, ?_⟩
  · intro other same
    rw [← offered, offeredLoad_eq_ok lasts positive, offeredLoad_eq_ok lasts positive,
      bytesBySource_perm same]
  · intro σ draw fanout core stream moved rest runs movedFit
    rcases exists_offeredLoad_tells lasts positive movedFit with
      ⟨movedLoads, movedOffered, movedTells⟩
    refine ⟨movedLoads, movedOffered, movedTells, fun residue => ?_⟩
    have keep := spreadFlows_keepsSites draw flows fanout core stream moved rest runs
    rw [siteLoads, siteLoads,
      tells.loadedBytes_filter fun node => node.toNat % core.toNat = residue,
      movedTells.loadedBytes_filter fun node => node.toNat % core.toNat = residue]
    exact totalSize_site_eq keep residue

/-- Two flows from one node and one from another. -/
def unevenFlows :
    List Flow :=
  [⟨⟨"0", 0.0⟩, 100, 3, 1⟩, ⟨⟨"1", 1.0⟩, 50, 2, 3⟩, ⟨⟨"2", 2.0⟩, 25, 3, 2⟩]

theorem unevenFlows_conserves_bytes :
    ∃ loads moved rest movedLoads,
      offeredLoad unevenFlows 1.0 1000 = .ok loads ∧
        (loads.map fun load => (load.node, load.bytes)) = [(2, 50), (3, 125)] ∧
          offeredLoad unevenFlows.reverse 1.0 1000 = .ok loads ∧
            (spreadFlows Uniform.Supply.below unevenFlows 2 2).run
                ⟨0, [3000000000, 0, 0, 0, 0, 0]⟩ = (.ok moved, rest) ∧
              offeredLoad moved 1.0 1000 = .ok movedLoads ∧
                (movedLoads.map fun load => (load.node, load.bytes)) =
                    [(2, 50), (3, 25), (5, 100)] ∧
                  loadedBytes (siteLoads 2 1 movedLoads) = loadedBytes (siteLoads 2 1 loads) := by
  have small : totalSize unevenFlows < UInt64.size := by decide
  rcases @offeredLoad_conserves_bytes unevenFlows (countsFit_of_totalSize_lt small) 1.0
    (by decide +kernel) 1000 (by decide) with ⟨loads, offered, -, -, reordered, moves⟩
  have shown : (offeredLoad unevenFlows 1.0 1000).map
      (List.map fun load => (load.node, load.bytes)) = .ok [(2, 50), (3, 125)] := by
    decide +kernel
  have spreads :
      (spreadFlows Uniform.Supply.below unevenFlows 2 2).run ⟨0, [3000000000, 0, 0, 0, 0, 0]⟩ =
        (.ok [⟨⟨"0", 0.0⟩, 100, 5, 1⟩, ⟨⟨"1", 1.0⟩, 50, 2, 3⟩, ⟨⟨"2", 2.0⟩, 25, 3, 2⟩],
          ⟨6, []⟩) := by
    rfl
  have movedSmall :
      totalSize [⟨⟨"0", 0.0⟩, 100, 5, 1⟩, ⟨⟨"1", 1.0⟩, 50, 2, 3⟩, ⟨⟨"2", 2.0⟩, 25, 3, 2⟩] <
        UInt64.size := by
    decide
  rcases moves _ _ _ _ _ _ _ spreads (countsFit_of_totalSize_lt movedSmall) with
    ⟨movedLoads, movedOffered, -, kept⟩
  have movedShown : (offeredLoad
      [⟨⟨"0", 0.0⟩, 100, 5, 1⟩, ⟨⟨"1", 1.0⟩, 50, 2, 3⟩, ⟨⟨"2", 2.0⟩, 25, 3, 2⟩] 1.0 1000).map
      (List.map fun load => (load.node, load.bytes)) = .ok [(2, 50), (3, 25), (5, 100)] := by
    decide +kernel
  rw [offered] at shown
  rw [movedOffered] at movedShown
  exact ⟨loads, _, _, movedLoads, offered, Except.ok.inj shown,
    reordered _ (List.reverse_perm _).symm, spreads, movedOffered, Except.ok.inj movedShown,
    kept 1⟩

end NetRun
