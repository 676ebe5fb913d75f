import NetRun.Proofs.Topology.Replicas
import NetRun.Proofs.Workload.Spreading

/-!
# Flows between replicas

A workload and its topology are fanned out apart from each other.  The ends of
the flows nevertheless arrive at replicas that the topology has: whatever is
drawn, every host becomes one of its own replicas, with the links of one.
-/

namespace NetRun

namespace Topology

/--
The node that a host becomes is one of its replicas after fanout: it has the
number of the host up to multiples of the core, and every link to the host has
a copy to it with a share of the bandwidth.
-/
structure Follows
    (topology expanded : Topology)
    (fanout : UInt32)
    (host node : NodeId) :
    Prop where
  core_le : topology.core ≤ node
  node_lt : node < expanded.nodes
  toNat_mod : node.toNat % topology.core.toNat = host.toNat % topology.core.toNat
  linked :
    ∀ link ∈ topology.links, link.second = host →
      { link with second := node, bandwidth := link.bandwidth / fanout.toUInt64 } ∈
        expanded.links

section Expanded

variable
    {topology expanded : Topology}
    {fanout : UInt32}
    (expands : topology.expandFanout fanout = .ok expanded)
    (halves : topology.nodes.toNat = 2 * topology.core.toNat)

include expands halves

/-- Every replica of a host has a number below the number of nodes after fanout. -/
theorem replica_lt_nodes
    {host : NodeId}
    (below : host < topology.nodes)
    {index : Nat}
    (indexLt : index < fanout.toNat) :
    host.toNat + index * topology.core.toNat < expanded.nodes.toNat := by
  have nodes := nodes_of_expandFanout expands
  have hostLt := UInt32.lt_iff_toNat_lt.1 below
  have moved : (index + 1) * topology.core.toNat ≤ fanout.toNat * topology.core.toNat :=
    Nat.mul_le_mul_right _ indexLt
  rw [Nat.succ_mul, Nat.mul_comm fanout.toNat] at moved
  omega

theorem follows_of_toNat_eq
    {host node : NodeId}
    (isHost : topology.core ≤ host)
    (below : host < topology.nodes)
    {index : Nat}
    (indexLt : index < fanout.toNat)
    (moved : node.toNat = host.toNat + index * topology.core.toNat) :
    topology.Follows expanded fanout host node := by
  have nodeLt := replica_lt_nodes expands halves below indexLt
  have hostLe := UInt32.le_iff_toNat_le.1 isHost
  refine ⟨UInt32.le_iff_toNat_le.2 (by omega), UInt32.lt_iff_toNat_lt.2 (by omega), ?_, ?_⟩
  · rw [moved, Nat.add_mul_mod_self_right]
  · rintro link listed rfl
    have copied := moved_mem_links expands listed isHost indexLt
    have second : UInt32.ofNat (link.second.toNat + index * topology.core.toNat) = node := by
      rw [← moved, UInt32.ofNat_toNat]
    rwa [Link.moved, second] at copied

/-- Whatever is drawn below the fanout, a host becomes one of its replicas. -/
theorem drawReplica_gives
    {σ : Type}
    {draw : σ → UInt32 × σ}
    (draws : ∀ stream, (draw stream).1 < fanout)
    {host : NodeId}
    (isHost : topology.core ≤ host)
    (below : host < topology.nodes) :
    (drawReplica draw topology.core host).Gives (topology.Follows expanded fanout host) := by
  intro stream
  have indexLt := UInt32.lt_iff_toNat_lt.1 (draws stream)
  have moveLt := replica_lt_nodes expands halves below indexLt
  have fits : MoveFits draw topology.core stream 0 host :=
    Nat.lt_trans moveLt expanded.nodes.toNat_lt_size
  rcases run_drawReplica_of_moveFits fits with ⟨node, runs, moved⟩
  exact ⟨node, _, runs, follows_of_toNat_eq expands halves isHost below indexLt moved⟩

end Expanded

/--
If every flow runs between hosts of a topology that is fanned out, moving the
flows to replicas is never refused, whatever is drawn below the fanout.  The
ends of every flow become replicas that the fanned out topology has, and the
flow is otherwise as it was.
-/
theorem spreadFlows_follows_expandFanout
    {topology expanded : Topology}
    {fanout : UInt32}
    (halves : topology.nodes.toNat = 2 * topology.core.toNat)
    (expands : topology.expandFanout fanout = .ok expanded)
    {flows : List Flow}
    (betweenHosts :
      ∀ flow ∈ flows, ∀ node ∈ [flow.source, flow.target],
        topology.core ≤ node ∧ node < topology.nodes)
    {σ : Type}
    {draw : UInt32 → σ → UInt32 × σ}
    (draws : ∀ stream, (draw fanout stream).1 < fanout)
    (stream : σ) :
    ∃ moved rest,
      (spreadFlows draw flows fanout topology.core).run stream = (.ok moved, rest) ∧
        List.Forall₂
          (fun flow copy =>
            topology.Follows expanded fanout flow.source copy.source ∧
              topology.Follows expanded fanout flow.target copy.target ∧
                copy = { flow with source := copy.source, target := copy.target })
          flows moved := by
  have some : fanout ≠ 0 := (expandFanout_eq_ok_iff.1 expands).1
  rw [spreadFlows, if_neg some]
  refine Drawing.Gives.mapM ?_ stream
  intro flow listed
  have hosts := betweenHosts flow listed
  rw [List.forall_mem_cons, List.forall_mem_singleton] at hosts
  rcases hosts with ⟨⟨sourceIsHost, sourceLt⟩, targetIsHost, targetLt⟩
  apply (drawReplica_gives expands halves draws sourceIsHost sourceLt).bind
  intro source followsSource
  apply (drawReplica_gives expands halves draws targetIsHost targetLt).bind
  intro target followsTarget
  exact Drawing.Gives.pure ⟨followsSource, followsTarget, rfl⟩

/-- Two routers with one host each. -/
def twoHosts :
    Topology :=
  .ofLinks 4 [⟨0, 1, 100, 10⟩, ⟨0, 2, 90, 1⟩, ⟨1, 3, 60, 2⟩]

/-- A flow each way between the two hosts. -/
def bothWays :
    List Flow :=
  [⟨⟨"0", 0.0⟩, 100, 2, 3⟩, ⟨⟨"1", 1.0⟩, 200, 3, 2⟩]

theorem bothWays_follow_expandFanout :
    ∃ expanded,
      twoHosts.expandFanout 3 = .ok expanded ∧
        ∃ moved rest,
          (spreadFlows Uniform.Supply.below bothWays 3 twoHosts.core).run
              ⟨0, [3000000000, 0, 1500000000]⟩ = (.ok moved, rest) ∧
            (moved.map fun flow => (flow.source, flow.target)) = [(6, 3), (5, 2)] ∧
              List.Forall₂
                (fun flow copy =>
                  twoHosts.Follows expanded 3 flow.source copy.source ∧
                    twoHosts.Follows expanded 3 flow.target copy.target ∧
                      copy = { flow with source := copy.source, target := copy.target })
                bothWays moved := by
  have expands : twoHosts.expandFanout 3 = .ok _ := rfl
  have betweenHosts :
      ∀ flow ∈ bothWays, ∀ node ∈ [flow.source, flow.target],
        twoHosts.core ≤ node ∧ node < twoHosts.nodes := by
    simp only [bothWays, List.forall_mem_cons, List.not_mem_nil, IsEmpty.forall_iff,
      implies_true, and_true]
    decide
  rcases spreadFlows_follows_expandFanout rfl expands betweenHosts
    (Uniform.Supply.below_lt (by decide)) ⟨0, [3000000000, 0, 1500000000]⟩ with
    ⟨moved, rest, runs, follow⟩
  refine ⟨_, expands, moved, rest, runs, ?_, follow⟩
  have computed := congrArg Prod.fst runs
  change Except.ok [⟨⟨"0", 0.0⟩, 100, 6, 3⟩, ⟨⟨"1", 1.0⟩, 200, 5, 2⟩] = Except.ok moved at computed
  cases computed
  rfl

end Topology

end NetRun
