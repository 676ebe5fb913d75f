import NetRun.Topology.Fanout
import NetRun.Proofs.Traversal

/-!
# Fanned out topologies

Fanout succeeds exactly under conditions on its input that can be read off
beforehand.  The links of the result are those of the topology, each access
link replaced by its replicas.
-/

namespace NetRun

namespace Link

variable
    {link : Link}
    {core fanout : UInt32}

/-- An access link moved to one of the replicas of its host. -/
def moved
    (link : Link)
    (core fanout : UInt32)
    (index : Nat) :
    Link :=
  { link with
    second := UInt32.ofNat (link.second.toNat + index * core.toNat)
    bandwidth := link.bandwidth / fanout.toUInt64 }

/-- The links that stand for a link after fanout, if their nodes have numbers. -/
def fanned
    (link : Link)
    (core fanout : UInt32) :
    List Link :=
  if core ≤ link.second then (List.range fanout.toNat).map (link.moved core fanout)
  else [link]

/-- Every replica of the link's host, if it is an access link, has a number. -/
def ReplicasFit
    (link : Link)
    (core fanout : UInt32) :
    Prop :=
  core ≤ link.second →
    ∀ index < fanout.toNat, link.second.toNat + index * core.toNat < 4294967296

instance :
    DecidablePred fun link : Link => link.ReplicasFit core fanout :=
  fun link =>
    inferInstanceAs (Decidable (core ≤ link.second →
      ∀ index < fanout.toNat, link.second.toNat + index * core.toNat < 4294967296))

theorem replica_eq
    (link : Link)
    (core fanout : UInt32)
    (index : Nat) :
    link.replica core fanout index =
      if link.second.toNat + index * core.toNat < 4294967296 then
        .ok (link.moved core fanout index)
      else .error .overflow := by
  rw [replica, nodeId?]
  by_cases fits : link.second.toNat + index * core.toNat < 4294967296
  · rw [if_pos fits, if_pos fits]
    rfl
  · rw [if_neg fits, if_neg fits]

theorem fan_eq
    (link : Link)
    (core fanout : UInt32) :
    link.fan core fanout =
      if link.ReplicasFit core fanout then .ok (link.fanned core fanout)
      else .error .overflow := by
  rw [fan, fanned]
  by_cases access : core ≤ link.second
  · rw [if_pos access, if_pos access, mapM_eq_ite (link.replica_eq core fanout)]
    simp only [ReplicasFit, access, forall_const, List.mem_range]
  · have fits : link.ReplicasFit core fanout := fun above => absurd above access
    rw [if_neg access, if_neg access, if_pos fits]

theorem mem_fanned_iff
    {copy : Link} :
    copy ∈ link.fanned core fanout ↔
      (link.second < core ∧ copy = link) ∨
        (core ≤ link.second ∧ ∃ index < fanout.toNat, copy = link.moved core fanout index) := by
  rw [fanned]
  split
  case isTrue access =>
    have above : ¬ link.second < core := UInt32.not_lt.2 access
    simp only [List.mem_map, List.mem_range, access, above, false_and, false_or, true_and]
    constructor
    · rintro ⟨index, indexLt, rfl⟩
      exact ⟨index, indexLt, rfl⟩
    · rintro ⟨index, indexLt, rfl⟩
      exact ⟨index, indexLt, rfl⟩
  case isFalse below =>
    simp only [List.mem_singleton, below, UInt32.not_le.1 below, true_and, false_and, or_false]

/-- A choice without access links and their replicas chooses the same after fanout. -/
theorem filter_flatMap_fanned
    {chosen : Link → Bool}
    {links : List Link}
    (without :
      ∀ link ∈ links, core ≤ link.second →
        chosen link = false ∧
          ∀ index < fanout.toNat, chosen (link.moved core fanout index) = false) :
    (links.flatMap fun link => link.fanned core fanout).filter chosen = links.filter chosen := by
  induction links with
  | nil => rfl
  | cons link links induction =>
      have rest := induction fun other listed => without other (List.mem_cons_of_mem link listed)
      rw [List.flatMap_cons, List.filter_append, rest, fanned]
      split
      case isTrue access =>
        rcases without link List.mem_cons_self access with ⟨dropped, copiesDropped⟩
        have copies :
            ((List.range fanout.toNat).map (link.moved core fanout)).filter chosen = [] := by
          apply List.filter_eq_nil_iff.2
          intro copy listed
          rcases List.mem_map.1 listed with ⟨index, inRange, rfl⟩
          rw [copiesDropped index (List.mem_range.1 inRange)]
          exact Bool.false_ne_true
        rw [copies, List.nil_append, List.filter_cons_of_neg (by rw [dropped]; decide)]
      case isFalse =>
        rw [← List.filter_append, List.singleton_append]

end Link

namespace Topology

variable
    {topology expanded : Topology}
    {fanout : UInt32}

/-- The number of links that a fanned out topology declares. -/
def expandedLinks
    (topology : Topology)
    (fanout : UInt32) :
    Nat :=
  topology.declaredLinks.toNat - topology.core.toNat +
    topology.core.toNat * fanout.toNat

/--
What is looked at before a topology is fanned out, in this order: the fanout,
the nodes of the result, the links declared, the room for the links of the
result, and the numbers of the replicas.
-/
theorem expandFanout_eq
    (topology : Topology)
    (fanout : UInt32) :
    topology.expandFanout fanout =
      if fanout = 0 then .error (.refused .zeroFanout)
      else if
          4294967296 ≤ topology.core.toNat + topology.core.toNat * fanout.toNat then
        .error (.refused .overflow)
      else if topology.declaredLinks.toNat < topology.core.toNat then
        .error (.refused (.tooFewLinks topology.declaredLinks topology.core))
      else if addressable < topology.expandedLinks fanout * EdgeList.linkBytes then
        .error (.crashed .capacityOverflow)
      else if ∀ link ∈ topology.links, link.ReplicasFit topology.core fanout then
        .ok
          ⟨UInt32.ofNat (topology.core.toNat + topology.core.toNat * fanout.toNat),
            UInt64.ofNat (topology.expandedLinks fanout),
            topology.links.flatMap fun link => link.fanned topology.core fanout⟩
      else .error (.refused .overflow) := by
  unfold expandFanout expandedLinks
  by_cases zero : fanout = 0
  · rw [if_pos zero, if_pos zero]
    rfl
  rw [if_neg zero, if_neg zero]
  dsimp only [pure_bind]
  by_cases numbered : topology.core.toNat + topology.core.toNat * fanout.toNat < 4294967296
  case neg =>
    rw [show nodeId? _ = none from if_neg numbered, if_pos (Nat.le_of_not_lt numbered)]
    rfl
  rw [show nodeId? _ = some _ from if_pos numbered, if_neg (Nat.not_le_of_lt numbered)]
  dsimp only
  by_cases few : topology.declaredLinks.toNat < topology.core.toNat
  · rw [if_pos few, if_pos few]
    rfl
  rw [if_neg few, if_neg few, reserve, mapM_eq_ite fun link => link.fan_eq topology.core fanout]
  by_cases large :
      addressable <
        (topology.declaredLinks.toNat - topology.core.toNat +
          topology.core.toNat * fanout.toNat) * EdgeList.linkBytes
  · rw [if_pos large, if_pos large]
    rfl
  rw [if_neg large, if_neg large]
  split
  · rw [List.flatMap_def]
    rfl
  · rfl

/-- A topology is fanned out exactly if its header and its replicas have room. -/
theorem expandFanout_eq_ok_iff :
    topology.expandFanout fanout = .ok expanded ↔
      fanout ≠ 0 ∧
        topology.core.toNat + topology.core.toNat * fanout.toNat < 4294967296 ∧
          topology.core.toNat ≤ topology.declaredLinks.toNat ∧
            topology.expandedLinks fanout * EdgeList.linkBytes ≤ addressable ∧
              (∀ link ∈ topology.links, link.ReplicasFit topology.core fanout) ∧
                expanded =
                  ⟨UInt32.ofNat (topology.core.toNat + topology.core.toNat * fanout.toNat),
                    UInt64.ofNat (topology.expandedLinks fanout),
                    topology.links.flatMap fun link => link.fanned topology.core fanout⟩ := by
  rw [expandFanout_eq]
  split
  case isTrue zero => simp [zero]
  case isFalse positive =>
    split
    case isTrue overflows => simp [Nat.not_lt_of_le overflows]
    case isFalse numbered =>
      split
      case isTrue few => simp [Nat.not_le_of_gt few]
      case isFalse enough =>
        split
        case isTrue large => simp [Nat.not_le_of_gt large]
        case isFalse room =>
          split
          case isTrue fit =>
            rw [Except.ok.injEq, eq_comm]
            exact ⟨fun equal => ⟨positive, Nat.lt_of_not_le numbered, Nat.le_of_not_lt enough,
              Nat.le_of_not_lt room, fit, equal⟩, fun all => all.2.2.2.2.2⟩
          case isFalse unfit => simp [unfit]

section Expanded

variable
    (expands : topology.expandFanout fanout = .ok expanded)

include expands

theorem toNat_fanout_pos :
    0 < fanout.toNat :=
  UInt32.lt_iff_toNat_lt.1 (UInt32.pos_iff_ne_zero.2 (expandFanout_eq_ok_iff.1 expands).1)

theorem nodes_of_expandFanout :
    expanded.nodes.toNat =
      topology.core.toNat + topology.core.toNat * fanout.toNat := by
  rcases expandFanout_eq_ok_iff.1 expands with ⟨-, numbered, -, -, -, rfl⟩
  exact UInt32.toNat_ofNat_of_lt' numbered

theorem declaredLinks_of_expandFanout :
    expanded.declaredLinks.toNat = topology.expandedLinks fanout := by
  rcases expandFanout_eq_ok_iff.1 expands with ⟨-, -, -, room, -, rfl⟩
  have small : topology.expandedLinks fanout < UInt64.size := by
    rw [EdgeList.linkBytes, addressable] at room
    rw [UInt64.size]
    omega
  exact UInt64.toNat_ofNat_of_lt' small

theorem links_of_expandFanout :
    expanded.links = topology.links.flatMap fun link => link.fanned topology.core fanout := by
  rcases expandFanout_eq_ok_iff.1 expands with ⟨-, -, -, -, -, rfl⟩
  rfl

/-- The links after fanout are those of routers, and the replicas of those of hosts. -/
theorem mem_links_of_expandFanout_iff
    {copy : Link} :
    copy ∈ expanded.links ↔
      ∃ link ∈ topology.links,
        (link.second < topology.core ∧ copy = link) ∨
          (topology.core ≤ link.second ∧
            ∃ index < fanout.toNat, copy = link.moved topology.core fanout index) := by
  simp only [links_of_expandFanout expands, List.mem_flatMap, Link.mem_fanned_iff]

theorem moved_mem_links
    {link : Link}
    (listed : link ∈ topology.links)
    (access : topology.core ≤ link.second)
    {index : Nat}
    (indexLt : index < fanout.toNat) :
    link.moved topology.core fanout index ∈ expanded.links :=
  (mem_links_of_expandFanout_iff expands).2
    ⟨link, listed, Or.inr ⟨access, index, indexLt, rfl⟩⟩

/-- A replica of a link ends at the replica of its host. -/
theorem toNat_second_moved
    {link : Link}
    (listed : link ∈ topology.links)
    (access : topology.core ≤ link.second)
    {index : Nat}
    (indexLt : index < fanout.toNat) :
    (link.moved topology.core fanout index).second.toNat =
      link.second.toNat + index * topology.core.toNat := by
  rcases expandFanout_eq_ok_iff.1 expands with ⟨-, -, -, -, fits, -⟩
  exact UInt32.toNat_ofNat_of_lt' (fits link listed access index indexLt)

/-- The links that a fanned out topology declares can be laid out. -/
theorem room_of_expandFanout :
    expanded.declaredLinks.toNat * EdgeList.linkBytes ≤ addressable := by
  rw [declaredLinks_of_expandFanout expands]
  exact (expandFanout_eq_ok_iff.1 expands).2.2.2.1

end Expanded

end Topology

end NetRun
