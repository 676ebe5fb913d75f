import NetRun.Proofs.Table.Columns
import NetRun.Proofs.Topology.EndHosts
import NetRun.Topology.HostList

/-!
# Lists of end hosts that are written and read

A written list has its number of hosts in front and three columns, of which the
first is read back.  The end hosts of a topology are as many as their nodes, so
the count is met and the set that is read is theirs.
-/

namespace NetRun.HostList

open NetRun.Log
open NetRun.Table

/-- The fields that a host is written in. -/
def hostFields
    (host : EndHost) :
    List String :=
  [toString host.node, toString host.place.link, toString host.place.side.index]

/-- The lines of a written list: the number of hosts, and the hosts. -/
theorem wordLines_render
    (hosts : List EndHost) :
    wordLines (render hosts) = [toString hosts.length] :: hosts.map hostFields := by
  refine Table.wordLines_render (List.forall_mem_cons.2 ⟨?_, ?_⟩)
  · exact List.forall_mem_singleton.2 (isField_toString _)
  · intro fields listed
    rcases List.mem_map.1 listed with ⟨host, -, rfl⟩
    rw [List.forall_mem_cons, List.forall_mem_cons, List.forall_mem_singleton]
    exact ⟨isField_toString _, isField_toString _, isField_toString _⟩

/-- What is written is read back by its nodes, its count met. -/
theorem parse_render
    (origin : String)
    {hosts : List EndHost}
    (few : hosts.length < UInt64.size) :
    parse origin (render hosts) =
      .ok ⟨UInt64.ofNat hosts.length, hosts.map EndHost.node⟩ := by
  have nodes :
      ((numbered origin 1 (hosts.map hostFields)).filter fun row => !row.isBlank).mapM
          (fun row => row.word32 0 "node") =
        .ok (hosts.map EndHost.node) := by
    refine mapM_numbered_map (fun _ _ => List.cons_ne_nil _ _) fun host _ _ => ?_
    exact word32_eq_ok_iff_fieldIs.2 (fieldIs_toString rfl)
  rw [parse, rows_eq_numbered, wordLines_render, numbered_cons]
  dsimp only
  rw [word64_count few, nodes]
  rfl

/-- The end hosts of a topology are read back as their set, with nothing to warn of. -/
theorem read_render_endHosts
    (origin : String)
    (topology : Topology) :
    (read origin (render topology.endHosts)).outcome =
        .ok (HostSet.ofEndHosts topology.endHosts) ∧
      (read origin (render topology.endHosts)).entries.filter Entry.isWarning = [] := by
  have perNode :
      (topology.endHosts.map EndHost.node).length ≤ UInt32.size :=
    length_le_of_nodup topology.ascending_endHosts.nodup fun node _ => node.toNat_lt_size
  rw [List.length_map] at perNode
  have few : topology.endHosts.length < UInt64.size := Nat.lt_of_le_of_lt perNode (by decide)
  have quiet :
      (notices origin
          ⟨UInt64.ofNat topology.endHosts.length, topology.endHosts.map EndHost.node⟩).filter
        Entry.isWarning = [] := by
    have met :
        (topology.endHosts.map EndHost.node).length =
          (UInt64.ofNat topology.endHosts.length).toNat := by
      rw [List.length_map, UInt64.toNat_ofNat_of_lt' few]
    rw [notices]
    dsimp only
    rw [if_pos met]
    rfl
  rw [read, Logged.reportOn_of_eq_ok (parse_render origin few)]
  exact ⟨rfl, quiet⟩

end NetRun.HostList
