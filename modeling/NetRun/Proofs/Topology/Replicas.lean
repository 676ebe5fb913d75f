import NetRun.Proofs.Route.Homed
import NetRun.Proofs.Topology.EndHosts
import NetRun.Proofs.Topology.Fanout

/-!
# Replicas of single-homed hosts

If the upper half of the nodes are hosts on at most one link each, then so are
the nodes above the core after fanout.  The replicas of a host are the nodes
that have its number up to multiples of the core, and each hangs off the
router of the host, over a link of its own with the same delay and its share of
the bandwidth.  The links between routers stay as they were.
-/

namespace NetRun

namespace Topology

variable
    {topology expanded : Topology}
    {fanout : UInt32}

/--
The nodes of the lower half are routers.  The others are hosts, each at no more
than one end of one link, always the second end of a link from a router.
-/
structure SingleHomed
    (topology : Topology) :
    Prop where
  nodes_eq : topology.nodes.toNat = 2 * topology.core.toNat
  core_pos : 1 ≤ topology.core.toNat
  inRange : topology.InRange
  once :
    ∀ host, topology.core ≤ host → host < topology.nodes →
      ∀ place other, (host, place) ∈ endpoints topology.links →
        (host, other) ∈ endpoints topology.links → place = other
  first_lt : ∀ link ∈ topology.links, link.first < topology.core

/-- The node is a replica of the host, the one with the index. -/
structure IsReplica
    (topology : Topology)
    (fanout : UInt32)
    (host : NodeId)
    (index : Nat)
    (node : NodeId) :
    Prop where
  core_le : topology.core.toNat ≤ host.toNat
  host_lt : host.toNat < topology.nodes.toNat
  index_lt : index < fanout.toNat
  toNat_eq : node.toNat = host.toNat + index * topology.core.toNat

/-! ## Numbers of replicas -/

section Numbers

variable
    (halves : topology.nodes.toNat = 2 * topology.core.toNat)

include halves

/-- Modulo the core, a replica has the number of its host. -/
theorem IsReplica.toNat_mod
    {host node : NodeId}
    {index : Nat}
    (replica : topology.IsReplica fanout host index node) :
    node.toNat % topology.core.toNat = host.toNat - topology.core.toNat := by
  have hostLt := replica.host_lt
  rw [replica.toNat_eq, Nat.add_mul_mod_self_right, Nat.mod_eq_sub_mod replica.core_le,
    Nat.mod_eq_of_lt (by omega)]

/-- A node is a replica of one host only. -/
theorem IsReplica.unique
    {a b node : NodeId}
    {i j : Nat}
    (first : topology.IsReplica fanout a i node)
    (second : topology.IsReplica fanout b j node) :
    a = b ∧ i = j := by
  have aboveA := first.core_le
  have aboveB := second.core_le
  have residues := (first.toNat_mod halves).symm.trans (second.toNat_mod halves)
  have sameHost : a.toNat = b.toNat := by omega
  have moves := first.toNat_eq.symm.trans second.toNat_eq
  rw [sameHost, Nat.add_left_cancel_iff] at moves
  have belowA := first.host_lt
  exact ⟨UInt32.toNat_inj.1 sameHost, Nat.eq_of_mul_eq_mul_right (by omega) moves⟩

/-- The only node of the topology itself among the replicas of a host is the host. -/
theorem IsReplica.eq_of_lt_nodes
    {host node : NodeId}
    {index : Nat}
    (replica : topology.IsReplica fanout host index node)
    (below : node < topology.nodes) :
    node = host ∧ index = 0 := by
  have isHost : topology.core.toNat ≤ node.toNat := by
    rw [replica.toNat_eq]
    exact Nat.le_add_right_of_le replica.core_le
  have itself : topology.IsReplica fanout node 0 node :=
    ⟨isHost, UInt32.lt_iff_toNat_lt.1 below, Nat.zero_lt_of_lt replica.index_lt, by
      rw [Nat.zero_mul, Nat.add_zero]⟩
  rcases itself.unique halves replica with ⟨same, noMove⟩
  exact ⟨same, noMove.symm⟩

theorem IsReplica.bounds
    {host node : NodeId}
    {index : Nat}
    (replica : topology.IsReplica fanout host index node) :
    topology.core.toNat ≤ node.toNat ∧
      node.toNat < topology.core.toNat + topology.core.toNat * fanout.toNat := by
  have number := replica.toNat_eq
  have aboveCore := replica.core_le
  have belowNodes := replica.host_lt
  have moved : (index + 1) * topology.core.toNat ≤ fanout.toNat * topology.core.toNat :=
    Nat.mul_le_mul_right _ replica.index_lt
  rw [Nat.succ_mul, Nat.mul_comm fanout.toNat] at moved
  omega

end Numbers

/-- The replicas are the nodes above the core. -/
theorem exists_isReplica_iff
    (singleHomed : topology.SingleHomed)
    {node : NodeId} :
    (∃ host index, topology.IsReplica fanout host index node) ↔
      topology.core.toNat ≤ node.toNat ∧
        node.toNat < topology.core.toNat + topology.core.toNat * fanout.toNat := by
  have nodes := singleHomed.nodes_eq
  have positive := singleHomed.core_pos
  constructor
  · rintro ⟨host, index, replica⟩
    exact replica.bounds nodes
  · rintro ⟨aboveCore, below⟩
    have parts := Nat.div_add_mod node.toNat topology.core.toNat
    have residueLt := Nat.mod_lt node.toNat positive
    have moves : 1 ≤ node.toNat / topology.core.toNat :=
      (Nat.one_le_div_iff positive).2 aboveCore
    have movesLt : node.toNat / topology.core.toNat < 1 + fanout.toNat := by
      apply Nat.div_lt_of_lt_mul
      rw [Nat.mul_add, Nat.mul_one]
      exact below
    have hostLt :
        topology.core.toNat + node.toNat % topology.core.toNat < topology.nodes.toNat := by
      omega
    have numbered :
        ∃ host : NodeId,
          host.toNat = topology.core.toNat + node.toNat % topology.core.toNat :=
      ⟨UInt32.ofNat _,
        UInt32.toNat_ofNat_of_lt' (Nat.lt_trans hostLt topology.nodes.toNat_lt_size)⟩
    rcases numbered with ⟨host, number⟩
    refine ⟨host, node.toNat / topology.core.toNat - 1, ?_, by rwa [number], by omega, ?_⟩
    · rw [number]
      exact Nat.le_add_right _ _
    · have whole :
          topology.core.toNat ≤ topology.core.toNat * (node.toNat / topology.core.toNat) :=
        Nat.le_mul_of_pos_right _ moves
      rw [number, Nat.sub_mul, Nat.one_mul, Nat.mul_comm (node.toNat / _)]
      omega

/-! ## Links of replicas -/

theorem SingleHomed.homed
    (singleHomed : topology.SingleHomed) :
    topology.Homed topology.core.toNat := by
  have nodes := singleHomed.nodes_eq
  refine ⟨singleHomed.inRange, by omega, ?_, ?_⟩
  · intro link listed
    exact UInt32.lt_iff_toNat_lt.1 (singleHomed.first_lt link listed)
  · intro link listed other otherListed isHost same
    rcases List.mem_iff_getElem?.1 listed with ⟨index, place⟩
    rcases List.mem_iff_getElem?.1 otherListed with ⟨otherIndex, otherPlace⟩
    have once :=
      singleHomed.once link.second (UInt32.le_iff_toNat_le.2 isHost)
        (singleHomed.inRange link listed).2 ⟨index, .second⟩ ⟨otherIndex, .second⟩
        (mem_endpoints_iff.2 ⟨link, place, rfl⟩) (mem_endpoints_iff.2 ⟨other, otherPlace, same⟩)
    cases once
    rw [place] at otherPlace
    exact (Option.some.inj otherPlace).symm

section Expanded

variable
    (expands : topology.expandFanout fanout = .ok expanded)

include expands

theorem isReplica_moved
    (inRange : topology.InRange)
    {link : Link}
    (listed : link ∈ topology.links)
    (access : topology.core ≤ link.second)
    {index : Nat}
    (indexLt : index < fanout.toNat) :
    topology.IsReplica fanout link.second index
      (link.moved topology.core fanout index).second :=
  ⟨UInt32.le_iff_toNat_le.1 access, UInt32.lt_iff_toNat_lt.1 (inRange link listed).2,
    indexLt, toNat_second_moved expands listed access indexLt⟩

/-- A link that ends at a replica is a replica of the host's link. -/
theorem exists_eq_moved
    (singleHomed : topology.SingleHomed)
    {copy : Link}
    (listed : copy ∈ expanded.links)
    {host : NodeId}
    {index : Nat}
    (replica : topology.IsReplica fanout host index copy.second) :
    ∃ link ∈ topology.links,
      link.second = host ∧ copy = link.moved topology.core fanout index := by
  rcases (mem_links_of_expandFanout_iff expands).1 listed with
    ⟨link, original, ⟨below, rfl⟩ | ⟨access, otherIndex, indexLt, rfl⟩⟩
  · have aboveCore := UInt32.le_iff_toNat_le.2 (replica.bounds singleHomed.nodes_eq).1
    exact absurd below (UInt32.not_lt.2 aboveCore)
  · have moved := isReplica_moved expands singleHomed.inRange original access indexLt
    rcases moved.unique singleHomed.nodes_eq replica with ⟨same, rfl⟩
    exact ⟨link, original, same, rfl⟩

/-- After fanout the nodes above the core are still hosts on at most one link each. -/
theorem SingleHomed.homed_of_expandFanout
    (singleHomed : topology.SingleHomed) :
    expanded.Homed topology.core.toNat := by
  have homed := singleHomed.homed
  have nodes := nodes_of_expandFanout expands
  have first_lt :
      ∀ copy ∈ expanded.links, copy.first.toNat < topology.core.toNat := by
    intro copy listed
    rcases (mem_links_of_expandFanout_iff expands).1 listed with
      ⟨link, original, ⟨-, rfl⟩ | ⟨-, index, -, rfl⟩⟩
    · exact homed.first_lt copy original
    · exact homed.first_lt link original
  have second_lt :
      ∀ copy ∈ expanded.links, copy.second.toNat < expanded.nodes.toNat := by
    intro copy listed
    rcases (mem_links_of_expandFanout_iff expands).1 listed with
      ⟨link, original, ⟨below, rfl⟩ | ⟨access, index, indexLt, rfl⟩⟩
    · have secondLt := UInt32.lt_iff_toNat_lt.1 below
      omega
    · have replica := isReplica_moved expands singleHomed.inRange original access indexLt
      rw [nodes]
      exact (replica.bounds singleHomed.nodes_eq).2
  refine ⟨inRange_iff.2 ?_, by omega, first_lt, ?_⟩
  · intro copy listed
    have firstLt := first_lt copy listed
    exact ⟨by omega, second_lt copy listed⟩
  · intro copy listed other otherListed isHost same
    have below := second_lt copy listed
    rw [nodes] at below
    rcases (exists_isReplica_iff singleHomed).2 ⟨isHost, below⟩ with ⟨host, index, replica⟩
    have otherReplica := replica
    rw [← same] at otherReplica
    rcases exists_eq_moved expands singleHomed listed replica with ⟨link, original, rfl, rfl⟩
    rcases exists_eq_moved expands singleHomed otherListed otherReplica with
      ⟨twin, twinOriginal, sameHost, rfl⟩
    rw [homed.unique link original twin twinOriginal replica.core_le sameHost]

/-- Fanout leaves the links between routers as they were. -/
theorem lastLink_of_expandFanout
    {i j : Nat}
    (iLt : i < topology.core.toNat)
    (jLt : j < topology.core.toNat) :
    expanded.lastLink i j = topology.lastLink i j := by
  have moved {link} (listed : link ∈ topology.links) (access : topology.core ≤ link.second)
      {index} := @toNat_second_moved _ _ _ expands link listed access index
  rcases expandFanout_eq_ok_iff.1 expands with ⟨-, -, -, -, -, rfl⟩
  have apart {link : Link} (isHost : topology.core.toNat ≤ link.second.toNat) :
      link.joins i j = false := by
    apply Bool.eq_false_iff.2
    intro joins
    rcases Link.joins_iff.1 joins with ⟨-, second⟩ | ⟨-, second⟩
    · omega
    · omega
  rw [lastLink, lastLink]
  congr 1
  apply Link.filter_flatMap_fanned
  intro link listed access
  have isHost := UInt32.le_iff_toNat_le.1 access
  refine ⟨apart isHost, ?_⟩
  intro index indexLt
  apply apart
  rw [moved listed access indexLt]
  exact Nat.le_add_right_of_le isHost

end Expanded

end Topology

end NetRun
