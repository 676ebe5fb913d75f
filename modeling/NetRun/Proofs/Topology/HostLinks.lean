import NetRun.Proofs.Topology.Replicas
import NetRun.Topology.EdgeList

/-!
# The two ways to write the link of a host

A link stands between its nodes in either order, so a host may be written as
the first or as the second end of its only link.  Fanout makes a link for every
replica of a host that is written second.  The link of a host that is written
first stays as it is, with its whole bandwidth, and the other replicas of that
host have no link at all.  So all hosts have replicas with links exactly if all
are written second, or if there is one replica only.
-/

namespace NetRun

/-- Of the values of a function below a bound, the only one chosen. -/
theorem filter_map_range_eq_singleton
    {α : Type}
    {f : Nat → α}
    {chosen : α → Bool}
    {bound index : Nat}
    (indexLt : index < bound)
    (only : ∀ i < bound, chosen (f i) = true ↔ i = index) :
    ((List.range bound).map f).filter chosen = [f index] := by
  have same : ∀ i ∈ List.range bound, (chosen ∘ f) i = (i == index) := by
    intro i listed
    rw [Bool.eq_iff_iff, beq_iff_eq]
    exact only i (List.mem_range.1 listed)
  have once : (List.range bound).count index = 1 :=
    List.count_eq_one_of_mem List.nodup_range (List.mem_range.2 indexLt)
  rw [List.filter_map, List.filter_congr same, List.filter_beq, once]
  rfl

namespace Topology

variable
    {topology expanded : Topology}
    {fanout : UInt32}
    {host : NodeId}
    {link : Link}
    {side : Side}

/-! ## Hosts and their links -/

/-- The host stands at a side of the link and at no other place, opposite to a router. -/
structure Attaches
    (topology : Topology)
    (host : NodeId)
    (link : Link)
    (side : Side) :
    Prop where
  core_le : topology.core ≤ host
  host_lt : host < topology.nodes
  only : ∃ index, topology.links[index]? = some link ∧
    placesOf topology.links host = [⟨index, side⟩]
  router_lt : link.node side.opposite < topology.core

/-- Every node of the upper half is a host with one link, to a router of the lower half. -/
structure Hosted
    (topology : Topology) :
    Prop where
  nodes_eq : topology.nodes.toNat = 2 * topology.core.toNat
  inRange : topology.InRange
  attached :
    ∀ host, topology.core ≤ host → host < topology.nodes →
      ∃ link side, topology.Attaches host link side

/--
Each replica of the host has exactly one link to the router that the host's
link leads to, with the same delay and a share of the bandwidth.
-/
def ReplicatesLink
    (topology expanded : Topology)
    (fanout : UInt32)
    (host : NodeId)
    (link : Link)
    (side : Side) :
    Prop :=
  ∀ index < fanout.toNat,
    ∃ copy,
      expanded.links.filter
          (fun other =>
            other.joins (link.node side.opposite).toNat
              (host.toNat + index * topology.core.toNat)) = [copy] ∧
        copy.delay = link.delay ∧ copy.bandwidth = link.bandwidth / fanout.toUInt64

/-- The link of a host stands at the host. -/
theorem Attaches.node_eq
    (attaches : topology.Attaches host link side) :
    link.node side = host := by
  rcases attaches.only with ⟨index, listed, only⟩
  have isPlace : ⟨index, side⟩ ∈ placesOf topology.links host := by
    rw [only]
    exact List.mem_singleton_self _
  rcases mem_placesOf_iff.1 isPlace with ⟨_, same, stands⟩
  rw [listed] at same
  cases same
  exact stands

theorem Attaches.mem_links
    (attaches : topology.Attaches host link side) :
    link ∈ topology.links := by
  rcases attaches.only with ⟨index, listed, -⟩
  exact List.mem_of_getElem? listed

/-- A host is written on one side only. -/
theorem Attaches.side_eq
    (attaches : topology.Attaches host link side)
    {other : Link}
    {otherSide : Side}
    (listed : other ∈ topology.links)
    (stands : other.node otherSide = host) :
    side = otherSide := by
  rcases attaches.only with ⟨index, -, only⟩
  rcases List.mem_iff_getElem?.1 listed with ⟨place, atPlace⟩
  have isPlace : ⟨place, otherSide⟩ ∈ placesOf topology.links host :=
    mem_placesOf_iff.2 ⟨other, atPlace, stands⟩
  rw [only, List.mem_singleton] at isPlace
  exact (congrArg Place.side isPlace).symm

/-- A host stands nowhere else, so no other link of the list is at it. -/
theorem Attaches.exists_split
    (attaches : topology.Attaches host link side) :
    ∃ before behind,
      topology.links = before ++ link :: behind ∧
        ∀ other ∈ before ++ behind, ∀ otherSide, other.node otherSide ≠ host := by
  rcases attaches.only with ⟨index, listed, only⟩
  have apart {place other otherSide} (otherListed : topology.links[place]? = some other)
      (stands : other.node otherSide = host) : place = index := by
    have isPlace : ⟨place, otherSide⟩ ∈ placesOf topology.links host :=
      mem_placesOf_iff.2 ⟨other, otherListed, stands⟩
    rw [only, List.mem_singleton] at isPlace
    exact congrArg Place.link isPlace
  rcases List.getElem?_eq_some_iff.1 listed with ⟨indexLt, rfl⟩
  refine ⟨topology.links.take index, topology.links.drop (index + 1), ?_, ?_⟩
  · rw [List.getElem_cons_drop, List.take_append_drop]
  · intro other isOther otherSide stands
    rcases List.mem_append.1 isOther with inFront | inBack
    · rcases List.mem_iff_getElem?.1 inFront with ⟨place, atPlace⟩
      rw [List.getElem?_take] at atPlace
      split at atPlace
      case isTrue placeLt => exact Nat.ne_of_lt placeLt (apart atPlace stands)
      case isFalse => cases atPlace
    · rcases List.mem_iff_getElem?.1 inBack with ⟨place, atPlace⟩
      rw [List.getElem?_drop] at atPlace
      have here := apart atPlace stands
      omega

/-! ## What fanout makes of the links -/

section Expanded

variable
    (expands : topology.expandFanout fanout = .ok expanded)
    (halves : topology.nodes.toNat = 2 * topology.core.toNat)
    (inRange : topology.InRange)

include expands halves inRange

/-- What stands for a link that is not at a host is not at a replica of the host. -/
theorem node_ne_of_mem_fanned
    (isHost : topology.core ≤ host)
    (hostLt : host < topology.nodes)
    {other copy : Link}
    (listed : other ∈ topology.links)
    (apart : ∀ otherSide, other.node otherSide ≠ host)
    (copies : copy ∈ other.fanned topology.core fanout)
    {index : Nat}
    (indexLt : index < fanout.toNat)
    (copySide : Side) :
    (copy.node copySide).toNat ≠ host.toNat + index * topology.core.toNat := by
  intro same
  have replica : topology.IsReplica fanout host index (copy.node copySide) :=
    ⟨UInt32.le_iff_toNat_le.1 isHost, UInt32.lt_iff_toNat_lt.1 hostLt, indexLt, same⟩
  have kept (keptSide : Side) (keeps : copy.node copySide = other.node keptSide) : False := by
    have below : other.node keptSide < topology.nodes := by
      cases keptSide with
      | first => exact (inRange other listed).1
      | second => exact (inRange other listed).2
    rw [keeps] at replica
    exact apart keptSide (replica.eq_of_lt_nodes halves below).1
  rcases Link.mem_fanned_iff.1 copies with ⟨-, rfl⟩ | ⟨access, copyIndex, copyLt, rfl⟩
  · exact kept copySide rfl
  · cases copySide with
    | first => exact kept .first rfl
    | second =>
        have moved := isReplica_moved expands inRange listed access copyLt
        exact apart .second (moved.unique halves replica).1

/-- All links at the replicas of a host come from the link of the host. -/
theorem Attaches.filter_links_eq
    (attaches : topology.Attaches host link side)
    (router : Nat)
    {index : Nat}
    (indexLt : index < fanout.toNat) :
    expanded.links.filter
        (fun other => other.joins router (host.toNat + index * topology.core.toNat)) =
      (link.fanned topology.core fanout).filter
        fun other => other.joins router (host.toNat + index * topology.core.toNat) := by
  rcases attaches.exists_split with ⟨before, behind, split, apart⟩
  have none_of {others : List Link} (part : ∀ other ∈ others, other ∈ before ++ behind) :
      (others.flatMap fun other => other.fanned topology.core fanout).filter
        (fun other => other.joins router (host.toNat + index * topology.core.toNat)) = [] := by
    apply List.filter_eq_nil_iff.2
    intro copy isCopy joins
    rcases List.mem_flatMap.1 isCopy with ⟨other, isOther, copies⟩
    have listed : other ∈ topology.links := by
      rw [split]
      rcases List.mem_append.1 (part other isOther) with inFront | inBack
      · exact List.mem_append_left _ inFront
      · exact List.mem_append_right _ (List.mem_cons_of_mem _ inBack)
    have ends := node_ne_of_mem_fanned expands halves inRange attaches.core_le attaches.host_lt
      listed (apart other (part other isOther)) copies indexLt
    rcases joins_iff_exists_side.1 joins with ⟨copySide, -, atReplica⟩
    exact ends copySide.opposite atReplica
  rw [links_of_expandFanout expands, split, List.flatMap_append, List.flatMap_cons,
    List.filter_append, List.filter_append,
    none_of fun other listed => List.mem_append_left _ listed,
    none_of fun other listed => List.mem_append_right _ listed, List.nil_append,
    List.append_nil]

/-- A host that is written second has a link for each of its replicas. -/
theorem Attaches.replicatesLink
    (attaches : topology.Attaches host link .second) :
    topology.ReplicatesLink expanded fanout host link .second := by
  intro index indexLt
  have isHost := UInt32.le_iff_toNat_le.1 attaches.core_le
  have hostLt := UInt32.lt_iff_toNat_lt.1 attaches.host_lt
  have routerLt : link.first.toNat < topology.core.toNat :=
    UInt32.lt_iff_toNat_lt.1 attaches.router_lt
  have atHost : link.second = host := attaches.node_eq
  have listed := attaches.mem_links
  have access : topology.core ≤ link.second := by
    rw [atHost]
    exact attaches.core_le
  refine ⟨link.moved topology.core fanout index, ?_, rfl, rfl⟩
  rw [attaches.filter_links_eq expands halves inRange _ indexLt, Link.fanned, if_pos access]
  apply filter_map_range_eq_singleton indexLt
  intro copyIndex copyLt
  have second := toNat_second_moved expands listed access copyLt
  rw [atHost] at second
  rw [Link.joins_iff, second]
  constructor
  · rintro (⟨-, same⟩ | ⟨same, -⟩)
    · exact Nat.eq_of_mul_eq_mul_right (by omega) (Nat.add_left_cancel same)
    · have atRouter : link.first.toNat = host.toNat + index * topology.core.toNat := same
      omega
  · rintro rfl
    exact Or.inl ⟨rfl, rfl⟩

/-- The link of a host that is written first stays as it is. -/
theorem Attaches.filter_links_of_first
    (attaches : topology.Attaches host link .first) :
    expanded.links.filter
      (fun other => other.joins (link.node .second).toNat host.toNat) = [link] := by
  have below : ¬ topology.core ≤ link.second := UInt32.not_le.2 attaches.router_lt
  have atReplica :=
    attaches.filter_links_eq expands halves inRange (link.node .second).toNat
      (toNat_fanout_pos expands)
  rw [Nat.zero_mul, Nat.add_zero, Link.fanned, if_neg below] at atReplica
  have joins : link.joins (link.node .second).toNat host.toNat = true :=
    joins_iff_exists_side.2 ⟨.second, rfl, congrArg UInt32.toNat attaches.node_eq⟩
  exact atReplica.trans (List.filter_eq_self.2 (List.forall_mem_singleton.2 joins))

/-- The other replicas of a host that is written first have no link. -/
theorem Attaches.node_ne_of_first
    (attaches : topology.Attaches host link .first)
    {index : Nat}
    (indexLt : index < fanout.toNat)
    (isOther : 0 < index)
    {copy : Link}
    (listed : copy ∈ expanded.links)
    (copySide : Side) :
    (copy.node copySide).toNat ≠ host.toNat + index * topology.core.toNat := by
  have isHost := UInt32.le_iff_toNat_le.1 attaches.core_le
  have hostLt := UInt32.lt_iff_toNat_lt.1 attaches.host_lt
  have atHost : link.first = host := attaches.node_eq
  have routerLt : link.second.toNat < topology.core.toNat :=
    UInt32.lt_iff_toNat_lt.1 attaches.router_lt
  have below : ¬ topology.core ≤ link.second := UInt32.not_le.2 attaches.router_lt
  rcases attaches.exists_split with ⟨before, behind, split, apart⟩
  rw [links_of_expandFanout expands] at listed
  rcases List.mem_flatMap.1 listed with ⟨other, otherListed, copies⟩
  by_cases itself : other = link
  · rw [itself, Link.fanned, if_neg below, List.mem_singleton] at copies
    subst copies
    have moves : topology.core.toNat ≤ index * topology.core.toNat :=
      Nat.le_mul_of_pos_left _ isOther
    cases copySide with
    | first =>
        change copy.first.toNat ≠ _
        rw [atHost]
        omega
    | second =>
        change copy.second.toNat ≠ _
        omega
  · have elsewhere : other ∈ before ++ behind := by
      have inSplit := otherListed
      rw [split] at inSplit
      simpa [itself] using inSplit
    exact node_ne_of_mem_fanned expands halves inRange attaches.core_le attaches.host_lt
      otherListed (apart other elsewhere) copies indexLt copySide

end Expanded

/-! ## When all hosts are replicated -/

/--
A host that is written as the second end of its link has a link for each of its
replicas.  A host that is written first keeps its link as it is, and the other
replicas have none.  So all hosts are replicated exactly if there is only one
replica, or no link is written with its host first.
-/
theorem hosts_are_replicated_iff
    (hosted : topology.Hosted)
    (expands : topology.expandFanout fanout = .ok expanded) :
    (∀ host link, topology.Attaches host link .second →
        topology.ReplicatesLink expanded fanout host link .second) ∧
      (∀ host link, topology.Attaches host link .first →
        expanded.links.filter
            (fun other => other.joins (link.node .second).toNat host.toNat) = [link] ∧
          ∀ index < fanout.toNat, 0 < index → ∀ copy ∈ expanded.links, ∀ side,
            (copy.node side).toNat ≠ host.toNat + index * topology.core.toNat) ∧
      ((∀ host link side, topology.Attaches host link side →
          topology.ReplicatesLink expanded fanout host link side) ↔
        fanout = 1 ∨ ∀ link ∈ topology.links, link.first < topology.core) := by
  rcases hosted with ⟨halves, inRange, attached⟩
  refine ⟨?_, ?_, ?_, ?_⟩
  · intro host link attaches
    exact attaches.replicatesLink expands halves inRange
  · intro host link attaches
    refine ⟨attaches.filter_links_of_first expands halves inRange, ?_⟩
    intro index indexLt isOther copy listed side
    exact attaches.node_ne_of_first expands halves inRange indexLt isOther listed side
  · intro replicated
    by_contra! exceptions
    rcases exceptions with ⟨several, link, listed, isHost⟩
    rcases attached link.first (UInt32.not_lt.1 isHost) (inRange link listed).1 with
      ⟨own, side, attaches⟩
    have isFirst : side = .first := attaches.side_eq listed (show link.node .first = link.first from rfl)
    subst isFirst
    have more : 1 < fanout.toNat := by
      have some := toNat_fanout_pos expands
      have notOne : fanout.toNat ≠ 1 := fun one => several (UInt32.toNat_inj.1 one)
      omega
    rcases replicated _ _ _ attaches 1 more with ⟨copy, copies, -⟩
    have isCopy : copy ∈ [copy] := List.mem_singleton_self copy
    rw [← copies, List.mem_filter] at isCopy
    rcases joins_iff_exists_side.1 isCopy.2 with ⟨copySide, -, atReplica⟩
    exact attaches.node_ne_of_first expands halves inRange more Nat.one_pos isCopy.1 _ atReplica
  · intro spared host link side attaches
    cases side with
    | second => exact attaches.replicatesLink expands halves inRange
    | first =>
        rcases spared with rfl | routersFirst
        · intro index indexLt
          rcases Nat.lt_one_iff.1 indexLt with rfl
          refine ⟨link, ?_, rfl, UInt64.div_one.symm⟩
          rw [Nat.zero_mul, Nat.add_zero]
          exact attaches.filter_links_of_first expands halves inRange
        · have routerFirst := routersFirst link attaches.mem_links
          rw [show link.first = host from attaches.node_eq] at routerFirst
          exact absurd routerFirst (UInt32.not_lt.2 attaches.core_le)

/-- Two routers with one host each; the link of the second host is written host first. -/
def turnedHost :
    Topology :=
  .ofLinks 4 [⟨0, 1, 100, 10⟩, ⟨0, 2, 90, 1⟩, ⟨3, 1, 60, 2⟩]

theorem turnedHost_hosted :
    turnedHost.Hosted where
  nodes_eq := rfl
  inRange := by
    rw [InRange]
    decide
  attached := by
    intro host isHost below
    have two_or_three : host = 2 ∨ host = 3 := by
      have above := UInt32.le_iff_toNat_le.1 isHost
      have least : 2 ≤ host.toNat := above
      have most : host.toNat < 4 := UInt32.lt_iff_toNat_lt.1 below
      rw [← UInt32.toNat_inj, ← UInt32.toNat_inj]
      change host.toNat = 2 ∨ host.toNat = 3
      omega
    rcases two_or_three with rfl | rfl
    · exact ⟨⟨0, 2, 90, 1⟩, .second, by decide, by decide, ⟨1, rfl, rfl⟩, by decide⟩
    · exact ⟨⟨3, 1, 60, 2⟩, .first, by decide, by decide, ⟨2, rfl, rfl⟩, by decide⟩

theorem turnedHost_hosts_are_replicated_iff :
    ∃ expanded,
      turnedHost.expandFanout 2 = .ok expanded ∧
        expanded.links =
          [⟨0, 1, 100, 10⟩, ⟨0, 2, 45, 1⟩, ⟨0, 4, 45, 1⟩, ⟨3, 1, 60, 2⟩] ∧
          turnedHost.ReplicatesLink expanded 2 2 ⟨0, 2, 90, 1⟩ .second ∧
            (∀ copy ∈ expanded.links, ∀ side, (copy.node side).toNat ≠ 5) ∧
              ¬ ∀ host link side, turnedHost.Attaches host link side →
                turnedHost.ReplicatesLink expanded 2 host link side := by
  have expands : turnedHost.expandFanout 2 = .ok _ := rfl
  rcases hosts_are_replicated_iff turnedHost_hosted expands with ⟨seconds, firsts, allIff⟩
  have secondHost : turnedHost.Attaches 2 ⟨0, 2, 90, 1⟩ .second :=
    ⟨by decide, by decide, ⟨1, rfl, rfl⟩, by decide⟩
  have firstHost : turnedHost.Attaches 3 ⟨3, 1, 60, 2⟩ .first :=
    ⟨by decide, by decide, ⟨2, rfl, rfl⟩, by decide⟩
  refine ⟨_, expands, rfl, seconds _ _ secondHost, ?_, ?_⟩
  · exact (firsts _ _ firstHost).2 1 (by decide) Nat.one_pos
  · intro replicated
    rcases allIff.1 replicated with one | routersFirst
    · cases one
    · exact absurd (routersFirst ⟨3, 1, 60, 2⟩ (by decide)) (by decide)

/-- The second replica of a host that is written first has no link, although it is declared. -/
theorem host_written_first_lacks_links :
    ∃ topology expanded,
      EdgeList.parse EdgeList.unnamed "2\n1\n1\t0\t10\t1\n" = .ok topology ∧
        topology.Hosted ∧
          topology.Attaches 1 ⟨1, 0, 10, 1⟩ .first ∧
            topology.expandFanout 2 = .ok expanded ∧
              expanded = ⟨3, 2, [⟨1, 0, 10, 1⟩]⟩ ∧
                ¬ topology.ReplicatesLink expanded 2 1 ⟨1, 0, 10, 1⟩ .first := by
  have attaches : (Topology.ofLinks 2 [⟨1, 0, 10, 1⟩]).Attaches 1 ⟨1, 0, 10, 1⟩ .first :=
    ⟨by decide, by decide, ⟨0, rfl, rfl⟩, by decide⟩
  refine ⟨.ofLinks 2 [⟨1, 0, 10, 1⟩], ⟨3, 2, [⟨1, 0, 10, 1⟩]⟩, rfl, ?_, attaches, rfl, rfl, ?_⟩
  · refine ⟨rfl, ?_, ?_⟩
    · rw [InRange]
      decide
    · intro host isHost below
      have least : 1 ≤ host.toNat := UInt32.le_iff_toNat_le.1 isHost
      have most : host.toNat < 2 := UInt32.lt_iff_toNat_lt.1 below
      have isOne : host = 1 := by
        rw [← UInt32.toNat_inj]
        change host.toNat = 1
        omega
      subst isOne
      exact ⟨_, _, attaches⟩
  · intro replicated
    rcases replicated 1 (by decide) with ⟨copy, copies, -⟩
    cases copies

end Topology

end NetRun
