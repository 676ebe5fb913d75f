import NetRun.Topology.EdgeList
import NetRun.Proofs.Table.Rows
import NetRun.Proofs.Traversal
import Mathlib.Algebra.Ring.Nat

/-!
# Edge lists that are written and read

A topology that is read has no link that leaves it.  A topology that is
written is read back as it was, whatever number of links it declares; if one
of its links leaves it, reading names a node that does.
-/

namespace NetRun.EdgeList

open NetRun.Table

/-! ## Reading -/

theorem declaredNode_eq_ok_iff
    {nodes : UInt32}
    {row : Row}
    {node : NodeId}
    {result : Unit} :
    declaredNode nodes row node = .ok result ↔ node < nodes := by
  rw [declaredNode]
  split
  case isTrue inside => simp [inside]
  case isFalse outside => simp [outside]

/-- A link that is read ends inside the network. -/
theorem inRange_of_readLink
    {nodes : UInt32}
    {row : Row}
    {link : Link}
    (reads : readLink nodes row = .ok link) :
    link.first < nodes ∧ link.second < nodes := by
  simp only [readLink, bind_eq_ok_iff, declaredNode_eq_ok_iff, pure_eq_ok_iff] at reads
  rcases reads with ⟨first, -, second, -, _, -, _, -, _, firstLt, _, secondLt, rfl⟩
  exact ⟨firstLt, secondLt⟩

/-- A topology that is read has no link that leaves it, and a count that can be laid out. -/
theorem inRange_of_parse
    {origin text : String}
    {topology : Topology}
    (parses : parse origin text = .ok topology) :
    topology.InRange ∧ topology.declaredLinks.toNat * linkBytes ≤ addressable := by
  rw [parse] at parses
  split at parses
  case h_1 => cases parses
  case h_2 head rest _ =>
    rcases bind_eq_ok_iff.1 parses with ⟨nodes, -, body⟩
    cases rest with
    | nil => cases body
    | cons second rows =>
        simp only [readBody, bind_eq_ok_iff, refusing_eq_ok_iff, reserve_eq_ok_iff,
          pure_eq_ok_iff] at body
        rcases body with ⟨declared, -, -, room, links, reads, rfl⟩
        refine ⟨?_, room⟩
        intro link listed
        rcases exists_of_mem_of_mapM_eq_ok reads listed with ⟨row, -, readsLink⟩
        exact inRange_of_readLink readsLink

/-! ## Writing and reading back -/

/-- The fields that a link is written in. -/
def linkFields
    (link : Link) :
    List String :=
  [toString link.first, toString link.second, toString link.bandwidth, toString link.delay]

theorem isField_of_mem_linkFields
    {link : Link}
    {field : String}
    (listed : field ∈ linkFields link) :
    IsField field := by
  simp only [linkFields, List.mem_cons, List.not_mem_nil, or_false] at listed
  rcases listed with rfl | rfl | rfl | rfl
  · exact isField_toString link.first.toNat
  · exact isField_toString link.second.toNat
  · exact isField_toString link.bandwidth.toNat
  · exact isField_toString link.delay.toNat

/-- A written link is read back, or the first of its ends outside the network is named. -/
theorem readLink_linkFields
    (nodes : UInt32)
    (origin : String)
    (line : Nat)
    (link : Link) :
    readLink nodes ⟨origin, line, linkFields link⟩ =
      if link.first < nodes then
        if link.second < nodes then .ok link
        else .error (.nodeOutOfRange origin line link.second nodes)
      else .error (.nodeOutOfRange origin line link.first nodes) := by
  rw [readLink, Row.word32_eq_ok rfl, Row.word32_eq_ok rfl, Row.word64_eq_ok rfl,
    Row.word64_eq_ok rfl]
  change (declaredNode nodes _ link.first >>= fun _ => declaredNode nodes _ link.second >>=
    fun _ => pure link) = _
  unfold declaredNode
  split
  · split
    · rfl
    · rfl
  · rfl

/-- The rows of a written topology. -/
theorem rows_render
    (origin : String)
    (topology : Topology) :
    rows origin (render topology) =
      ⟨origin, 1, [toString topology.nodes]⟩ :: ⟨origin, 2, [toString topology.declaredLinks]⟩ ::
        (topology.links.zipIdx 2).map fun (link, index) =>
          ⟨origin, index + 1, linkFields link⟩ := by
  have areFields :
      ∀ fields ∈
        [toString topology.nodes] :: [toString topology.declaredLinks] ::
          topology.links.map linkFields,
        ∀ field ∈ fields, IsField field := by
    intro fields listed field isField
    rcases List.mem_cons.1 listed with rfl | listed
    · rw [List.mem_singleton.1 isField]
      exact isField_toString topology.nodes.toNat
    · rcases List.mem_cons.1 listed with rfl | listed
      · rw [List.mem_singleton.1 isField]
        exact isField_toString topology.declaredLinks.toNat
      · rcases List.mem_map.1 listed with ⟨link, -, rfl⟩
        exact isField_of_mem_linkFields isField
  change rows origin (Table.render ([toString topology.nodes] ::
    [toString topology.declaredLinks] :: topology.links.map linkFields)) = _
  rw [Table.rows_render origin areFields, List.zipIdx_cons, List.zipIdx_cons, List.map_cons,
    List.map_cons, List.zipIdx_map, List.map_map]
  rfl

/-- Reading back a topology reads its links back, one after the other. -/
theorem parse_render
    (origin : String)
    {topology : Topology}
    (room : topology.declaredLinks.toNat * linkBytes ≤ addressable) :
    parse origin (render topology) =
      refusing ((topology.links.zipIdx 2).mapM fun (link, index) =>
        readLink topology.nodes ⟨origin, index + 1, linkFields link⟩) >>= fun links =>
          pure ⟨topology.nodes, topology.declaredLinks, links⟩ := by
  have noneBlank :
      ((topology.links.zipIdx 2).map fun (link, index) =>
          (⟨origin, index + 1, linkFields link⟩ : Row)).filter (fun row => !row.isBlank) =
        (topology.links.zipIdx 2).map fun (link, index) => ⟨origin, index + 1, linkFields link⟩ := by
    apply List.filter_eq_self.2
    intro row listed
    rcases List.mem_map.1 listed with ⟨place, -, rfl⟩
    rfl
  rw [parse, rows_render]
  dsimp only
  rw [Row.word32_eq_ok rfl]
  change readBody origin topology.nodes (_ :: _) = _
  rw [readBody, Row.word64_eq_ok rfl, readLinks, noneBlank, List.mapM_map]
  change (reserve topology.declaredLinks.toNat linkBytes >>= _) = _
  have reserved : (reserve _ _ : Except (Stop ReadError) Unit) = .ok () :=
    reserve_eq_ok_iff.2 room
  rw [reserved]
  rfl

theorem mapM_readLink_eq_ok_iff
    (origin : String)
    {topology : Topology}
    {links : List Link} :
    ((topology.links.zipIdx 2).mapM fun (link, index) =>
        readLink topology.nodes ⟨origin, index + 1, linkFields link⟩) = .ok links ↔
      topology.InRange ∧ links = topology.links := by
  have step :
      ∀ place ∈ topology.links.zipIdx 2, ∀ link,
        readLink topology.nodes ⟨origin, place.2 + 1, linkFields place.1⟩ = .ok link ↔
          (place.1.first < topology.nodes ∧ place.1.second < topology.nodes) ∧
            link = place.1 := by
    intro place _ link
    rw [readLink_linkFields]
    split
    case isTrue firstLt =>
      split
      case isTrue secondLt => simp [firstLt, secondLt, eq_comm]
      case isFalse outside => simp [outside]
    case isFalse outside => simp [outside]
  have linksOf : (topology.links.zipIdx 2).map Prod.fst = topology.links :=
    List.zipIdx_map_fst 2 topology.links
  have inRange :=
    @List.forall_mem_map _ _ Prod.fst (topology.links.zipIdx 2) fun link =>
      link.first < topology.nodes ∧ link.second < topology.nodes
  rw [linksOf] at inRange
  rw [mapM_eq_ok_iff step, linksOf, Topology.InRange, inRange]

/-- What is written is read back as it was, exactly if no link leaves the network. -/
theorem parse_render_eq_ok_iff
    (origin : String)
    {topology result : Topology}
    (room : topology.declaredLinks.toNat * linkBytes ≤ addressable) :
    parse origin (render topology) = .ok result ↔ topology.InRange ∧ result = topology := by
  rw [parse_render origin room, bind_eq_ok_iff]
  simp only [refusing_eq_ok_iff, mapM_readLink_eq_ok_iff, pure_eq_ok_iff]
  constructor
  · rintro ⟨_, ⟨inRange, rfl⟩, rfl⟩
    exact ⟨inRange, rfl⟩
  · rintro ⟨inRange, rfl⟩
    exact ⟨_, ⟨inRange, rfl⟩, rfl⟩

/-- If a link leaves the network, reading back names one of the nodes outside. -/
theorem parse_render_of_not_inRange
    (origin : String)
    {topology : Topology}
    (room : topology.declaredLinks.toNat * linkBytes ≤ addressable)
    (leaves : ¬ topology.InRange) :
    ∃ line node,
      parse origin (render topology) =
        .error (.refused (.nodeOutOfRange origin line node topology.nodes)) := by
  rw [parse_render origin room]
  cases reads : (topology.links.zipIdx 2).mapM fun (link, index) =>
      readLink topology.nodes ⟨origin, index + 1, linkFields link⟩ with
  | ok links => exact absurd ((mapM_readLink_eq_ok_iff origin).1 reads).1 leaves
  | error cause =>
      rcases mapM_eq_error_iff.1 reads with ⟨_, ⟨link, index⟩, _, _, _, fails⟩
      dsimp only at fails
      rw [readLink_linkFields] at fails
      split at fails
      · split at fails
        · cases fails
        · cases fails
          exact ⟨_, _, rfl⟩
      · cases fails
        exact ⟨_, _, rfl⟩

/-! ## Both ways -/

@[simp]
theorem outcome_read
    (origin text : String) :
    (read origin text).outcome = parse origin text := by
  rw [read, Log.Logged.outcome_reportOn]
  exact congrFun Except.map_id (parse origin text)

/--
A topology whose links stay in it and whose link count can be laid out is read
back from its text as it was, whether or not it has as many links as it counts.
Every text that is read gives such a topology, so that writing and reading it
again changes nothing.
-/
theorem render_then_read
    (origin : String) :
    (∀ topology : Topology,
      topology.InRange → 24 * topology.declaredLinks.toNat ≤ 2 ^ 63 - 1 →
        (read origin (render topology)).outcome = .ok topology) ∧
      ∀ source text topology,
        (read source text).outcome = .ok topology →
          topology.InRange ∧ (read origin (render topology)).outcome = .ok topology := by
  constructor
  · intro topology inRange room
    rw [outcome_read, parse_render_eq_ok_iff origin (by rwa [Nat.mul_comm])]
    exact ⟨inRange, rfl⟩
  · intro source text topology reads
    rw [outcome_read] at reads
    rcases inRange_of_parse reads with ⟨inRange, room⟩
    rw [outcome_read, parse_render_eq_ok_iff origin room]
    exact ⟨inRange, inRange, rfl⟩

/-- The largest numbers of every field are read back, under a link count that is not met. -/
theorem largest_fields_render_then_read :
    (read unnamed (render
        ⟨4294967295, 7, [⟨4294967294, 0, 18446744073709551615, 18446744073709551615⟩]⟩)).outcome =
      .ok ⟨4294967295, 7, [⟨4294967294, 0, 18446744073709551615, 18446744073709551615⟩]⟩ ∧
      (read unnamed " 3 nodes\r\n+007\n\n 2 1  +5\t06 extra\n0 2 1 1").outcome =
        .ok ⟨3, 7, [⟨2, 1, 5, 6⟩, ⟨0, 2, 1, 1⟩]⟩ ∧
        (read unnamed (render ⟨3, 7, [⟨2, 1, 5, 6⟩, ⟨0, 2, 1, 1⟩]⟩)).outcome =
          .ok ⟨3, 7, [⟨2, 1, 5, 6⟩, ⟨0, 2, 1, 1⟩]⟩ := by
  rcases render_then_read unnamed with ⟨back, again⟩
  have reads :
      (read unnamed " 3 nodes\r\n+007\n\n 2 1  +5\t06 extra\n0 2 1 1").outcome =
        .ok ⟨3, 7, [⟨2, 1, 5, 6⟩, ⟨0, 2, 1, 1⟩]⟩ := rfl
  refine ⟨back _ ?_ (by decide), reads, (again unnamed _ _ reads).2⟩
  unfold Topology.InRange
  decide

end NetRun.EdgeList
