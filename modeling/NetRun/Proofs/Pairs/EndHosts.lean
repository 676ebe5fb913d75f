import NetRun.Proofs.Pairs.Collect
import NetRun.Proofs.Route.Shortest
import NetRun.Proofs.Topology.HostList

/-!
# Pairs of end hosts

An end host stands at a link, so a table of its topology has it, and each end
host is one node.  A list of the end hosts that is written and read thus loses
no host on the way to the report, and every ordered pair of two of them is
there once.
-/

namespace NetRun

open NetRun.Log

namespace PairRoute

variable
    {source target : NodeId}

/-- Without a site filter, a pair is admitted if its nodes differ. -/
theorem admits_none_eq :
    (⟨none⟩ : PairFilter).admits source target = (target != source) := by
  rw [PairFilter.admits, bne, BEq.comm]
  cases target == source
  · rfl
  · rfl

/-- Different hosts make a pair with each other host. -/
theorem length_admitted_of_nodup
    {hosts : List NodeId}
    (distinct : hosts.Nodup) :
    (admitted ⟨none⟩ hosts).length = hosts.length * (hosts.length - 1) := by
  have perSource :
      ∀ source ∈ hosts,
        ((hosts.filter ((⟨none⟩ : PairFilter).admits source)).map
            fun target => (source, target)).length =
          hosts.length - 1 := by
    intro source listed
    have others : (⟨none⟩ : PairFilter).admits source = (· != source) :=
      funext fun _ => admits_none_eq
    rw [List.length_map, others, ← distinct.erase_eq_filter, List.length_erase_of_mem listed]
  rw [admitted, List.length_flatMap, List.map_congr_left perSource, List.map_const',
    List.sum_replicate, smul_eq_mul]

/--
If a table has all hosts, nothing is warned of, and the pairs are all the ordered
pairs of two different hosts, each listed once.
-/
theorem collect_of_known
    {table : RouteTable}
    {hosts : HostSet}
    (known : ∀ host ∈ hosts.members, table.contains host = true) :
    (collect table hosts ⟨none⟩).entries.filter Entry.isWarning = [] ∧
      ∃ pairs,
        (collect table hosts ⟨none⟩).outcome = .ok pairs ∧
          pairs.length = hosts.size * (hosts.size - 1) ∧
            (pairs.map fun pair => (pair.source, pair.target)).Nodup ∧
              ∀ source target,
                (source, target) ∈ (pairs.map fun pair => (pair.source, pair.target)) ↔
                  source ∈ hosts ∧ target ∈ hosts ∧ source ≠ target := by
  have noneUnknown : (hosts.members.filter fun host => !table.contains host) = [] := by
    apply List.filter_eq_nil_iff.2
    intro host listed
    rw [known host listed]
    exact Bool.false_ne_true
  have ends :
      (((admitted ⟨none⟩ hosts.members).map (inTable table)).map
          fun pair => (pair.source, pair.target)) =
        admitted ⟨none⟩ hosts.members := by
    rw [List.map_map]
    exact List.map_id _
  rw [warnings_collect, noneUnknown, outcome_collect, List.filter_eq_self.2 known]
  refine ⟨rfl, _, rfl, ?_, ?_, ?_⟩
  · rw [List.length_map, length_admitted_of_nodup hosts.ascending.nodup, Ordered.SortedSet.size]
  · rw [ends]
    exact nodup_admitted hosts.ascending
  · intro source target
    rw [ends, mem_admitted_iff, admits_none_eq, bne_iff_ne, ne_comm]
    exact Iff.rfl

end PairRoute

namespace Topology

variable
    {topology : Topology}
    {table : RouteTable}

/-- A table has the end hosts of its topology. -/
theorem contains_of_mem_endHosts
    (computed : (RouteTable.compute topology).outcome = .ok table)
    {host : EndHost}
    (isHost : host ∈ topology.endHosts) :
    table.contains host.node = true := by
  rcases exists_link_of_mem_endHosts isHost with ⟨link, listed, stands⟩
  have ends := RouteTable.inRange_of_compute computed link (List.mem_of_getElem? listed)
  rw [RouteTable.contains_iff, RouteTable.size_of_compute computed, ← stands]
  cases host.place.side with
  | first => exact UInt32.lt_iff_toNat_lt.1 ends.1
  | second => exact UInt32.lt_iff_toNat_lt.1 ends.2

/--
The end hosts of any topology, written to a file and read again, are their set of
nodes, with nothing to warn of.  A route table of the topology has all of them:
no host is left out of the pairs, which without a site filter are all the ordered
pairs of two different ones, each listed once.
-/
theorem endHosts_are_written_and_paired
    (origin : String)
    (topology : Topology) :
    ∃ hosts,
      ((HostList.read origin (HostList.render topology.endHosts)).outcome = .ok hosts ∧
          (HostList.read origin (HostList.render topology.endHosts)).entries.filter
              Entry.isWarning = [] ∧
            hosts.members = topology.endHosts.map EndHost.node) ∧
        ∀ table,
          (RouteTable.compute topology).outcome = .ok table →
            (∀ host ∈ hosts.members, table.contains host = true) ∧
              (PairRoute.collect table hosts ⟨none⟩).entries.filter Entry.isWarning = [] ∧
                ∃ pairs,
                  (PairRoute.collect table hosts ⟨none⟩).outcome = .ok pairs ∧
                    pairs.length =
                        topology.endHosts.length * (topology.endHosts.length - 1) ∧
                      (pairs.map fun pair => (pair.source, pair.target)).Nodup ∧
                        ∀ source target,
                          (source, target) ∈ (pairs.map fun pair => (pair.source, pair.target)) ↔
                            source ∈ hosts ∧ target ∈ hosts ∧ source ≠ target := by
  rcases HostList.read_render_endHosts origin topology with ⟨reads, quiet⟩
  have members := HostSet.members_ofEndHosts topology
  refine ⟨_, ⟨reads, quiet, members⟩, ?_⟩
  intro table computed
  have known :
      ∀ host ∈ (HostSet.ofEndHosts topology.endHosts).members, table.contains host = true := by
    rw [members]
    intro node listed
    rcases List.mem_map.1 listed with ⟨host, isHost, rfl⟩
    exact contains_of_mem_endHosts computed isHost
  have size : (HostSet.ofEndHosts topology.endHosts).size = topology.endHosts.length := by
    rw [Ordered.SortedSet.size, members, List.length_map]
  have collected := PairRoute.collect_of_known known
  rw [size] at collected
  exact ⟨known, collected⟩

/-- Two routers with two links between them, three hosts, and a node linked to itself only. -/
def loopedStar :
    Topology :=
  .ofLinks 6
    [⟨0, 1, 100, 10⟩, ⟨4, 4, 10, 1⟩, ⟨2, 0, 90, 1⟩, ⟨1, 0, 80, 9⟩, ⟨1, 3, 60, 2⟩, ⟨1, 5, 50, 3⟩]

theorem loopedStar_endHosts_are_written_and_paired :
    ∃ table hosts pairs,
      (RouteTable.compute loopedStar).outcome = .ok table ∧
        (HostList.read HostList.unnamed "3\n2\t2\t0\n3\t4\t1\n5\t5\t1\n").outcome = .ok hosts ∧
          hosts.members = [2, 3, 5] ∧
            (PairRoute.collect table hosts ⟨none⟩).outcome = .ok pairs ∧ pairs.length = 6 := by
  have written :
      HostList.render loopedStar.endHosts = "3\n2\t2\t0\n3\t4\t1\n5\t5\t1\n" := by
    decide +kernel
  rcases endHosts_are_written_and_paired HostList.unnamed loopedStar with
    ⟨hosts, ⟨reads, -, members⟩, collects⟩
  rcases collects _ (show (RouteTable.compute loopedStar).outcome = .ok _ from rfl) with
    ⟨-, -, pairs, collected, length, -, -⟩
  rw [written] at reads
  exact ⟨_, hosts, pairs, rfl, reads, members, collected, length⟩

end Topology

end NetRun
