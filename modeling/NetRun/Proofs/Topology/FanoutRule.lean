import NetRun.Proofs.Topology.FanoutRange

/-!
# The rule of fanout

Fanout is refused for the first of four reasons that holds: there are no
replicas, the result has too many nodes, too few links are declared, or the
last replica of some host has no number.  If none of them holds, the topology is
fanned out.  In a topology whose links stay in range the fourth reason never
holds, because no host has a higher number than the node that the halves may
leave over.

The header of the result counts one access link for each core node.  It matches
the links of the result exactly if there are as many, or if there is only one
replica.
-/

namespace NetRun

variable
    {core fanout : UInt32}

/-- All replicas of a host have numbers if the last one has. -/
theorem Link.replicasFit_iff
    {link : Link}
    (positive : fanout ≠ 0) :
    link.ReplicasFit core fanout ↔
      (core ≤ link.second →
        link.second.toNat + (fanout.toNat - 1) * core.toNat < 4294967296) := by
  have some : 0 < fanout.toNat := UInt32.lt_iff_toNat_lt.1 (UInt32.pos_iff_ne_zero.2 positive)
  constructor
  · intro fit access
    exact fit access (fanout.toNat - 1) (Nat.sub_lt some Nat.one_pos)
  · intro lastFits access index indexLt
    have upToLast : index * core.toNat ≤ (fanout.toNat - 1) * core.toNat :=
      Nat.mul_le_mul_right _ (Nat.le_sub_one_of_lt indexLt)
    exact Nat.lt_of_le_of_lt (Nat.add_le_add_left upToLast _) (lastFits access)

/-- Every access link counts once per replica after fanout, and every other link once. -/
theorem Link.length_flatMap_fanned
    (links : List Link)
    (core fanout : UInt32) :
    (links.flatMap fun link => link.fanned core fanout).length +
        links.countP (fun link => core ≤ link.second) =
      links.length + links.countP (fun link => core ≤ link.second) * fanout.toNat := by
  induction links with
  | nil => simp
  | cons link links induction =>
      rw [List.flatMap_cons, List.length_append, fanned]
      by_cases access : core ≤ link.second
      · rw [if_pos access, List.countP_cons_of_pos (by simpa using access), List.length_cons,
          List.length_map, List.length_range, Nat.add_one_mul]
        omega
      · rw [if_neg access, List.countP_cons_of_neg (by simpa using access),
          List.length_singleton, List.length_cons]
        omega

namespace Topology

variable
    {topology expanded : Topology}

/-! ## Reasons against fanout -/

/-- The links that the result declares can be laid out. -/
def RoomForFanout
    (topology : Topology)
    (fanout : UInt32) :
    Prop :=
  topology.expandedLinks fanout * EdgeList.linkBytes ≤ addressable

/--
A reason not to fan a topology out.  It is one only if those before it do not
hold.
-/
inductive FanoutFault
    (topology : Topology)
    (fanout : UInt32) :
    FanoutError → Prop where
  | noReplica :
      fanout = 0 → FanoutFault topology fanout .zeroFanout
  | nodes :
      fanout ≠ 0 → 4294967296 ≤ topology.core.toNat * (fanout.toNat + 1) →
        FanoutFault topology fanout .overflow
  | links :
      fanout ≠ 0 → topology.core.toNat * (fanout.toNat + 1) < 4294967296 →
        topology.declaredLinks.toNat < topology.core.toNat →
          FanoutFault topology fanout (.tooFewLinks topology.declaredLinks topology.core)
  | replica {link : Link} :
      fanout ≠ 0 → topology.core.toNat * (fanout.toNat + 1) < 4294967296 →
        topology.core.toNat ≤ topology.declaredLinks.toNat → topology.RoomForFanout fanout →
          link ∈ topology.links → topology.core ≤ link.second →
            4294967296 ≤ link.second.toNat + (fanout.toNat - 1) * topology.core.toNat →
              FanoutFault topology fanout .overflow

/-- There is no reason against fanout, and what it gives. -/
structure FansOut
    (topology : Topology)
    (fanout : UInt32)
    (expanded : Topology) :
    Prop where
  positive : fanout ≠ 0
  nodes_lt : topology.core.toNat * (fanout.toNat + 1) < 4294967296
  core_le : topology.core.toNat ≤ topology.declaredLinks.toNat
  room : topology.RoomForFanout fanout
  last_lt :
    ∀ link ∈ topology.links, topology.core ≤ link.second →
      link.second.toNat + (fanout.toNat - 1) * topology.core.toNat < 4294967296
  nodes_eq : expanded.nodes.toNat = topology.core.toNat * (fanout.toNat + 1)
  declared_eq :
    expanded.declaredLinks.toNat =
      topology.declaredLinks.toNat - topology.core.toNat + topology.core.toNat * fanout.toNat
  links_eq :
    expanded.links = topology.links.flatMap fun link => link.fanned topology.core fanout
  second_eq :
    ∀ link ∈ topology.links, topology.core ≤ link.second → ∀ index < fanout.toNat,
      (link.moved topology.core fanout index).second.toNat =
        link.second.toNat + index * topology.core.toNat

theorem nodesAfterFanout_eq
    (topology : Topology)
    (fanout : UInt32) :
    topology.core.toNat + topology.core.toNat * fanout.toNat =
      topology.core.toNat * (fanout.toNat + 1) := by
  rw [Nat.mul_succ, Nat.add_comm]

/-- Fanout is refused exactly for the first reason against it. -/
theorem expandFanout_eq_refused_iff
    {cause : FanoutError} :
    topology.expandFanout fanout = .error (.refused cause) ↔
      topology.FanoutFault fanout cause := by
  rw [expandFanout_eq, nodesAfterFanout_eq]
  constructor
  · intro refused
    split at refused
    case isTrue zero =>
      cases refused
      exact .noReplica zero
    case isFalse positive =>
      split at refused
      case isTrue many =>
        cases refused
        exact .nodes positive many
      case isFalse numbered =>
        split at refused
        case isTrue few =>
          cases refused
          exact .links positive (Nat.lt_of_not_le numbered) few
        case isFalse enough =>
          split at refused
          case isTrue => cases refused
          case isFalse room =>
            split at refused
            case isTrue => cases refused
            case isFalse unfit =>
              cases refused
              simp only [Link.replicasFit_iff positive, not_forall, Nat.not_lt] at unfit
              rcases unfit with ⟨link, listed, access, large⟩
              exact .replica positive (Nat.lt_of_not_le numbered) (Nat.le_of_not_lt enough)
                (Nat.le_of_not_lt room) listed access large
  · intro fault
    cases fault with
    | noReplica zero => rw [if_pos zero]
    | nodes positive many => rw [if_neg positive, if_pos many]
    | links positive numbered few =>
        rw [if_neg positive, if_neg (Nat.not_le_of_lt numbered), if_pos few]
    | replica positive numbered enough room listed access large =>
        rw [if_neg positive, if_neg (Nat.not_le_of_lt numbered), if_neg (Nat.not_lt_of_le enough),
          if_neg (Nat.not_lt_of_le room), if_neg]
        intro fit
        have lastFits := (Link.replicasFit_iff positive).1 (fit _ listed) access
        exact Nat.not_lt_of_le large lastFits

/-- Fanout succeeds exactly if there is no reason against it, and gives what it should. -/
theorem expandFanout_eq_ok_iff_fansOut :
    topology.expandFanout fanout = .ok expanded ↔ topology.FansOut fanout expanded := by
  constructor
  · intro expands
    rcases expandFanout_eq_ok_iff.1 expands with ⟨positive, numbered, enough, room, fit, -⟩
    refine ⟨positive, ?_, enough, room, ?_, ?_, ?_, ?_, ?_⟩
    · rwa [← nodesAfterFanout_eq]
    · intro link listed
      exact (Link.replicasFit_iff positive).1 (fit link listed)
    · rw [nodes_of_expandFanout expands, nodesAfterFanout_eq]
    · exact declaredLinks_of_expandFanout expands
    · exact links_of_expandFanout expands
    · intro link listed access index indexLt
      exact toNat_second_moved expands listed access indexLt
  · intro fansOut
    have numbered := fansOut.nodes_lt
    rw [← nodesAfterFanout_eq] at numbered
    have fit : ∀ link ∈ topology.links, link.ReplicasFit topology.core fanout :=
      fun link listed => (Link.replicasFit_iff fansOut.positive).2 (fansOut.last_lt link listed)
    refine expandFanout_eq_ok_iff.2
      ⟨fansOut.positive, numbered, fansOut.core_le, fansOut.room, fit, ?_⟩
    rcases expanded with ⟨nodes, declared, links⟩
    congr
    · rw [nodesAfterFanout_eq, ← fansOut.nodes_eq, UInt32.ofNat_toNat]
    · rw [expandedLinks, ← fansOut.declared_eq, UInt64.ofNat_toNat]
    · exact fansOut.links_eq

/-- Fanout does not crash if the links that the result declares can be laid out. -/
theorem expandFanout_ne_crashed
    (room : topology.RoomForFanout fanout)
    (crash : Crash) :
    topology.expandFanout fanout ≠ .error (.crashed crash) := by
  rw [expandFanout_eq, if_neg (Nat.not_lt_of_le room)]
  intro crashes
  repeat' split at crashes
  all_goals cases crashes

/-- In a topology whose links stay in range, a replica has a number if the nodes have. -/
theorem InRange.nodes_of_overflow
    (inRange : topology.InRange)
    (overflows : topology.expandFanout fanout = .error (.refused .overflow)) :
    4294967296 ≤ topology.core.toNat * (fanout.toNat + 1) := by
  cases expandFanout_eq_refused_iff.1 overflows with
  | nodes _ many => exact many
  | @replica link positive _ _ _ listed _ large =>
      have halves := toNat_core topology
      have secondLt := (inRange_iff.1 inRange link listed).2
      have some : 0 < fanout.toNat :=
        UInt32.lt_iff_toNat_lt.1 (UInt32.pos_iff_ne_zero.2 positive)
      rcases Nat.exists_eq_add_one_of_ne_zero some.ne' with ⟨more, isMore⟩
      rw [isMore, Nat.add_sub_cancel, Nat.mul_comm more] at large
      rw [isMore, Nat.mul_add_one, Nat.mul_add_one]
      omega

/--
Out of a header that matches its links, fanout makes one that does exactly if
there is only one replica or as many access links as core nodes.
-/
theorem declaredLinks_eq_length_iff
    (expands : topology.expandFanout fanout = .ok expanded)
    (declared : topology.declaredLinks.toNat = topology.links.length) :
    expanded.declaredLinks.toNat = expanded.links.length ↔
      fanout = 1 ∨
        topology.links.countP (fun link => topology.core ≤ link.second) =
          topology.core.toNat := by
  have fansOut := expandFanout_eq_ok_iff_fansOut.1 expands
  have lengths := Link.length_flatMap_fanned topology.links topology.core fanout
  have enough := fansOut.core_le
  rw [fansOut.declared_eq, fansOut.links_eq]
  rcases exists_nodes_eq expands with ⟨more, isMore, -⟩
  generalize topology.links.countP (fun link => topology.core ≤ link.second) = access at lengths ⊢
  have single : fanout = 1 ↔ more = 0 := by
    rw [← UInt32.toNat_inj, isMore]
    exact Nat.succ_inj
  rw [isMore, Nat.mul_add_one] at lengths ⊢
  have sameShare :
      access * more = topology.core.toNat * more ↔
        more = 0 ∨ access = topology.core.toNat := by
    rw [mul_eq_mul_right_iff, or_comm]
  rw [single, ← sameShare]
  omega

/-! ## The rule -/

/--
Fanout is refused exactly for the first reason against it, and gives exactly
the topology that it should if there is none; given room for the declared
links, it ends in no other way.  If the links stay in range, only the number of
nodes makes it overflow.  A header that matches its links stays one that does
exactly if there is one replica or one access link for each core node.
-/
theorem expandFanout_follows_rule
    (topology : Topology)
    (fanout : UInt32) :
    (∀ cause,
        topology.expandFanout fanout = .error (.refused cause) ↔
          topology.FanoutFault fanout cause) ∧
      (∀ expanded,
        topology.expandFanout fanout = .ok expanded ↔ topology.FansOut fanout expanded) ∧
      (topology.RoomForFanout fanout →
        ∀ crash, topology.expandFanout fanout ≠ .error (.crashed crash)) ∧
      (topology.InRange → topology.expandFanout fanout = .error (.refused .overflow) →
        4294967296 ≤ topology.core.toNat * (fanout.toNat + 1)) ∧
      (topology.declaredLinks.toNat = topology.links.length →
        ∀ expanded, topology.expandFanout fanout = .ok expanded →
          (expanded.declaredLinks.toNat = expanded.links.length ↔
            fanout = 1 ∨
              topology.links.countP (fun link => topology.core ≤ link.second) =
                topology.core.toNat)) := by
  refine ⟨?_, ?_, ?_, ?_, ?_⟩
  · intro cause
    exact expandFanout_eq_refused_iff
  · intro expanded
    exact expandFanout_eq_ok_iff_fansOut
  · exact expandFanout_ne_crashed
  · exact InRange.nodes_of_overflow
  · intro declared expanded expands
    exact declaredLinks_eq_length_iff expands declared

/-- Two routers with three hosts, the last of them the node that the halves leave over. -/
def threeHosts :
    Topology :=
  .ofLinks 5 [⟨0, 1, 100, 10⟩, ⟨0, 2, 90, 1⟩, ⟨1, 3, 60, 2⟩, ⟨1, 4, 30, 3⟩]

theorem threeHosts_expandFanout_follows_rule :
    ∃ expanded,
      threeHosts.InRange ∧
        threeHosts.declaredLinks.toNat = threeHosts.links.length ∧
          threeHosts.FansOut 2 expanded ∧
            expanded =
              ⟨6, 6,
                [⟨0, 1, 100, 10⟩, ⟨0, 2, 45, 1⟩, ⟨0, 4, 45, 1⟩, ⟨1, 3, 30, 2⟩, ⟨1, 5, 30, 2⟩,
                  ⟨1, 4, 15, 3⟩, ⟨1, 6, 15, 3⟩]⟩ ∧
              expanded.declaredLinks.toNat ≠ expanded.links.length ∧
                threeHosts.FanoutFault 2147483647 .overflow := by
  have expands : threeHosts.expandFanout 2 = .ok _ := rfl
  rcases expandFanout_follows_rule threeHosts 2 with ⟨-, succeeds, -, -, header⟩
  refine ⟨_, ?_, rfl, (succeeds _).1 expands, rfl, ?_, ?_⟩
  · unfold InRange
    decide
  · intro matching
    exact absurd ((header rfl _ expands).1 matching) (by decide)
  · exact ((expandFanout_follows_rule threeHosts 2147483647).1 _).1 rfl

end Topology

end NetRun
