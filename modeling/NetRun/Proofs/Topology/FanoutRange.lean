import NetRun.Proofs.Route.Links
import NetRun.Proofs.Topology.EdgeList
import NetRun.Proofs.Topology.Fanout
import Mathlib.Algebra.Group.Nat.Even

/-!
# Where fanned out links end

Fanout counts the nodes of its result from the halves of the topology.  With an
odd number of nodes, the halves leave one node over, the last one, and it is
still a node that links may end at.  A link whose second end it is leaves the
result, and so does one whose first end it is if there are no replicas to make
up for it.  All other links stay in the result, so that it is written, read
back and made a table of like any topology.
-/

namespace NetRun.Topology

variable
    {topology expanded : Topology}
    {fanout : UInt32}

/--
The node that the halves leave over is no link's second end, and where it is a
first end, there are replicas enough for one of them to have its number.
-/
def SparesLeftover
    (topology : Topology)
    (fanout : UInt32) :
    Prop :=
  ∀ link ∈ topology.links,
    link.second.toNat ≠ 2 * topology.core.toNat ∧
      (link.first.toNat = 2 * topology.core.toNat →
        1 ≤ topology.core.toNat ∧ 2 ≤ fanout.toNat)

theorem toNat_core
    (topology : Topology) :
    topology.core.toNat = topology.nodes.toNat / 2 :=
  UInt32.toNat_div ..

/-- An even number of nodes leaves none over. -/
theorem InRange.sparesLeftover_of_even
    (inRange : topology.InRange)
    (even : Even topology.nodes.toNat)
    (fanout : UInt32) :
    topology.SparesLeftover fanout := by
  have halves := Nat.two_mul_div_two_of_even even
  rw [← toNat_core] at halves
  intro link listed
  rcases inRange link listed with ⟨firstIn, secondIn⟩
  have firstLt := UInt32.lt_iff_toNat_lt.1 firstIn
  have secondLt := UInt32.lt_iff_toNat_lt.1 secondIn
  rw [halves]
  refine ⟨Nat.ne_of_lt secondLt, ?_⟩
  intro leftover
  exact absurd leftover (Nat.ne_of_lt firstLt)

section Expanded

variable
    (expands : topology.expandFanout fanout = .ok expanded)

include expands

/-- The nodes after fanout, one group of replicas taken apart from the others. -/
theorem exists_nodes_eq :
    ∃ more,
      fanout.toNat = more + 1 ∧
        expanded.nodes.toNat = 2 * topology.core.toNat + more * topology.core.toNat := by
  rcases Nat.exists_eq_succ_of_ne_zero (toNat_fanout_pos expands).ne' with ⟨more, isMore⟩
  refine ⟨more, isMore, ?_⟩
  rw [nodes_of_expandFanout expands, isMore, Nat.mul_succ, Nat.mul_comm]
  omega

/-- Every link has a copy in the result that begins where it begins. -/
theorem exists_copy
    {link : Link}
    (listed : link ∈ topology.links) :
    ∃ copy ∈ expanded.links, copy.first = link.first := by
  rcases UInt32.lt_or_le link.second topology.core with below | access
  · exact ⟨link, (mem_links_of_expandFanout_iff expands).2
      ⟨link, listed, Or.inl ⟨below, rfl⟩⟩, rfl⟩
  · exact ⟨_, moved_mem_links expands listed access (toNat_fanout_pos expands), rfl⟩

/-- Fanout keeps the links in range exactly if they spare the node left over. -/
theorem inRange_of_expandFanout_iff
    (inRange : topology.InRange) :
    expanded.InRange ↔ topology.SparesLeftover fanout := by
  rcases exists_nodes_eq expands with ⟨more, isMore, nodes⟩
  have halves := toNat_core topology
  rw [inRange_iff, nodes]
  constructor
  · intro stays link listed
    constructor
    · -- The last replica of the node left over comes right behind the last node.
      intro leftover
      have access : topology.core ≤ link.second := by
        rw [UInt32.le_iff_toNat_le]
        omega
      have last : more < fanout.toNat := by
        rw [isMore]
        exact Nat.lt_succ_self more
      have secondLt := (stays _ (moved_mem_links expands listed access last)).2
      rw [toNat_second_moved expands listed access last, leftover] at secondLt
      exact Nat.lt_irrefl _ secondLt
    · intro leftover
      rcases exists_copy expands listed with ⟨copy, copyListed, sameFirst⟩
      have firstLt := (stays copy copyListed).1
      rw [sameFirst, leftover] at firstLt
      have replicas : 0 < more * topology.core.toNat := Nat.lt_of_add_lt_add_left firstLt
      rw [isMore]
      exact ⟨Nat.pos_of_mul_pos_left replicas, Nat.succ_le_succ (Nat.pos_of_mul_pos_right replicas)⟩
  · intro spares copy copyListed
    rcases (mem_links_of_expandFanout_iff expands).1 copyListed with ⟨link, listed, origin⟩
    rcases inRange_iff.1 inRange link listed with ⟨firstIn, secondIn⟩
    rcases spares link listed with ⟨notSecond, enough⟩
    have firstLt :
        link.first.toNat < 2 * topology.core.toNat + more * topology.core.toNat := by
      rcases Nat.lt_or_ge link.first.toNat (2 * topology.core.toNat) with below | above
      · exact Nat.lt_add_right _ below
      · have leftover : link.first.toNat = 2 * topology.core.toNat := by omega
        rcases enough leftover with ⟨coreSome, fanoutSome⟩
        rw [isMore] at fanoutSome
        rw [leftover]
        exact Nat.lt_add_of_pos_right (Nat.mul_pos (Nat.le_of_succ_le_succ fanoutSome) coreSome)
    rcases origin with ⟨below, rfl⟩ | ⟨access, index, indexLt, rfl⟩
    · refine ⟨firstLt, ?_⟩
      have secondLt := UInt32.lt_iff_toNat_lt.1 below
      omega
    · refine ⟨firstLt, ?_⟩
      have replicas : index * topology.core.toNat ≤ more * topology.core.toNat :=
        Nat.mul_le_mul_right _ (by omega)
      rw [toNat_second_moved expands listed access indexLt]
      omega

end Expanded

/--
A topology that was read is fanned out into one whose links stay in range,
exactly if they spare the node left over; an even number of nodes leaves none
over.  If they stay in range, the result is written and read back as it is, and
no table is refused for a node outside.  If one leaves the range, reading back
and making a table are both refused for a node outside.
-/
theorem fanout_stays_in_range_iff
    {origin text : String}
    (parses : EdgeList.parse origin text = .ok topology)
    (expands : topology.expandFanout fanout = .ok expanded) :
    (Even topology.nodes.toNat → expanded.InRange) ∧
      (expanded.InRange ↔ topology.SparesLeftover fanout) ∧
      (expanded.InRange →
        (∀ name, EdgeList.parse name (EdgeList.render expanded) = .ok expanded) ∧
          ∀ index node,
            (RouteTable.ofTopology expanded).outcome ≠
              .error (.nodeOutOfRange index node expanded.nodes)) ∧
      (¬ expanded.InRange →
        (∀ name, ∃ line node,
          EdgeList.parse name (EdgeList.render expanded) =
            .error (.refused (.nodeOutOfRange name line node expanded.nodes))) ∧
          (RouteTable.Fits expanded.nodes →
            ∃ index node,
              (RouteTable.ofTopology expanded).outcome =
                .error (.nodeOutOfRange index node expanded.nodes))) := by
  have inRange := (EdgeList.inRange_of_parse parses).1
  have exact_iff := inRange_of_expandFanout_iff expands inRange
  have room := room_of_expandFanout expands
  refine ⟨?_, exact_iff, ?_, ?_⟩
  · intro even
    exact exact_iff.2 (inRange.sparesLeftover_of_even even fanout)
  · intro stays
    constructor
    · intro name
      exact (EdgeList.parse_render_eq_ok_iff name room).2 ⟨stays, rfl⟩
    · exact RouteTable.outcome_ofTopology_ne_nodeOutOfRange stays
  · intro leaves
    constructor
    · intro name
      exact EdgeList.parse_render_of_not_inRange name room leaves
    · intro fits
      exact RouteTable.outcome_ofTopology_of_not_inRange fits leaves

/-- The first end of a link may be left over, if there are replicas enough. -/
theorem leftover_among_replicas_stays_in_range :
    ∃ topology expanded,
      EdgeList.parse EdgeList.unnamed "3\n2\n2\t0\t10\t1\n0\t1\t10\t1\n" = .ok topology ∧
        topology.expandFanout 2 = .ok expanded ∧
          expanded = .ofLinks 3 [⟨2, 0, 10, 1⟩, ⟨0, 1, 5, 1⟩, ⟨0, 2, 5, 1⟩] ∧
            expanded.InRange ∧
              EdgeList.parse EdgeList.unnamed (EdgeList.render expanded) = .ok expanded := by
  rcases fanout_stays_in_range_iff
    (show EdgeList.parse EdgeList.unnamed "3\n2\n2\t0\t10\t1\n0\t1\t10\t1\n" =
      .ok (.ofLinks 3 [⟨2, 0, 10, 1⟩, ⟨0, 1, 10, 1⟩]) from rfl)
    (show (Topology.ofLinks 3 [⟨2, 0, 10, 1⟩, ⟨0, 1, 10, 1⟩]).expandFanout 2 =
      .ok (.ofLinks 3 [⟨2, 0, 10, 1⟩, ⟨0, 1, 5, 1⟩, ⟨0, 2, 5, 1⟩]) from rfl) with
    ⟨-, spares, back, -⟩
  have stays := spares.2 (by unfold SparesLeftover; decide)
  exact ⟨_, _, rfl, rfl, rfl, stays, (back stays).1 EdgeList.unnamed⟩

/-- A link that ends at the node left over leaves the result. -/
theorem leftover_leaves_range :
    ∃ topology expanded,
      EdgeList.parse EdgeList.unnamed "3\n1\n0\t2\t10\t1\n" = .ok topology ∧
        topology.InRange ∧
          topology.expandFanout 1 = .ok expanded ∧
            ¬ expanded.InRange ∧
              EdgeList.render expanded = "2\n1\n0\t2\t10\t1\n" ∧
                EdgeList.parse "out.txt" (EdgeList.render expanded) =
                  .error (.refused (.nodeOutOfRange "out.txt" 3 2 2)) ∧
                  (RouteTable.ofTopology expanded).outcome =
                    .error (.nodeOutOfRange 0 2 2) := by
  refine ⟨.ofLinks 3 [⟨0, 2, 10, 1⟩], .ofLinks 2 [⟨0, 2, 10, 1⟩], rfl, ?_, rfl, ?_, rfl, rfl, rfl⟩
  · unfold InRange
    decide
  · unfold InRange
    decide

end NetRun.Topology
