import NetRun.Route.Table
import NetRun.Proofs.Topology.Graph
import NetRun.Proofs.Traversal

/-!
# The table of the links alone

Building a table succeeds exactly when its cells fit the address space and
every link ends inside the network.  The cell of two nodes then holds the
last link between them: later links overwrite earlier ones in both
directions, and links from a node to itself are left out.  If a link leaves the
network, the first one that does is refused for the first of its ends outside.
-/

namespace NetRun.RouteTable

open NetRun.Log

/-- The table with a link put in, in both directions. -/
def lay
    (table : RouteTable)
    (link : Link) :
    RouteTable :=
  if link.first = link.second then table
  else
    (table.setCell link.first.toNat link.second.toNat (Route.direct link)).setCell
      link.second.toNat link.first.toNat (Route.direct link)

@[simp]
theorem size_lay
    (table : RouteTable)
    (link : Link) :
    (table.lay link).size = table.size := by
  unfold lay
  split <;> simp

@[simp]
theorem size_foldl_lay
    (table : RouteTable)
    (links : List Link) :
    (links.foldl lay table).size = table.size := by
  induction links generalizing table with
  | nil => rfl
  | cons link links induction => rw [List.foldl_cons, induction, size_lay]

/-- A link changes the two cells of the nodes that it joins, and no other. -/
theorem cell_lay
    {table : RouteTable}
    {link : Link}
    (firstLt : link.first.toNat < table.size)
    (secondLt : link.second.toNat < table.size)
    {i j : Nat}
    (distinct : i ≠ j) :
    (table.lay link).cell i j =
      if link.joins i j = true then Route.direct link else table.cell i j := by
  unfold lay
  split
  case isTrue loop => rw [if_neg (Link.not_joins_of_loop loop distinct)]
  case isFalse =>
    rw [cell_setCell (by simpa using secondLt) (by simpa using firstLt),
      cell_setCell firstLt secondLt]
    simp only [Link.joins_iff]
    grind

/-- A link leaves the cell of a node and itself as it was. -/
theorem cell_lay_self
    {table : RouteTable}
    {link : Link}
    (firstLt : link.first.toNat < table.size)
    (secondLt : link.second.toNat < table.size)
    (i : Nat) :
    (table.lay link).cell i i = table.cell i i := by
  unfold lay
  split
  case isTrue => rfl
  case isFalse proper =>
    have apart : ¬ (i = link.first.toNat ∧ i = link.second.toNat) := by
      rintro ⟨rfl, equal⟩
      exact proper (UInt32.toNat_inj.1 equal)
    rw [cell_setCell (by simpa using secondLt) (by simpa using firstLt),
      cell_setCell firstLt secondLt, if_neg apart, if_neg fun equal => apart equal.symm]

/-! ## When a table is built -/

/-- A link is put in, or the first of its ends outside the network is named. -/
theorem outcome_place
    (nodes : UInt32)
    (table : RouteTable)
    (link : Link)
    (index : Nat) :
    (place nodes table link index).outcome =
      if link.first < nodes then
        if link.second < nodes then .ok (table.lay link)
        else .error (.nodeOutOfRange index link.second nodes)
      else .error (.nodeOutOfRange index link.first nodes) := by
  unfold place requireNode lay
  by_cases firstLt : link.first < nodes
  · by_cases secondLt : link.second < nodes
    · by_cases loop : link.first = link.second
      · simp [secondLt, loop, Except.map]
      · simp only [firstLt, secondLt, loop, if_true, if_false]
        split <;> simp [Except.map]
    · simp [firstLt, secondLt, Except.bind]
  · simp [firstLt, Except.bind]

theorem outcome_place_eq_ok_iff
    {nodes : UInt32}
    {table placed : RouteTable}
    {link : Link}
    {index : Nat} :
    (place nodes table link index).outcome = .ok placed ↔
      (link.first < nodes ∧ link.second < nodes) ∧ placed = table.lay link := by
  rw [outcome_place]
  split
  case isTrue firstLt =>
    split
    case isTrue secondLt => simp [firstLt, secondLt, eq_comm]
    case isFalse outside => simp [outside]
  case isFalse outside => simp [outside]

/-- Putting in a list of links succeeds exactly when all of them end in the network. -/
theorem outcome_foldlM_place_eq_ok_iff
    {nodes : UInt32}
    {table built : RouteTable}
    {links : List Link}
    {start : Nat} :
    ((links.zipIdx start).foldlM
        (fun table (link, index) => place nodes table link index) table).outcome = .ok built ↔
      (∀ link ∈ links, link.first < nodes ∧ link.second < nodes) ∧
        built = links.foldl lay table := by
  induction links generalizing table start with
  | nil => simp [eq_comm]
  | cons link links induction =>
      rw [List.zipIdx_cons, List.foldlM_cons, Logged.outcome_bind, List.foldl_cons,
        List.forall_mem_cons]
      constructor
      · intro success
        cases placing : (place nodes table link start).outcome with
        | error cause =>
            rw [placing] at success
            cases success
        | ok placed =>
            rw [placing] at success
            obtain ⟨linkInRange, rfl⟩ := outcome_place_eq_ok_iff.1 placing
            obtain ⟨restInRange, rfl⟩ := induction.1 success
            exact ⟨⟨linkInRange, restInRange⟩, rfl⟩
      · rintro ⟨⟨linkInRange, restInRange⟩, rfl⟩
        have placing :
            (place nodes table link start).outcome = .ok (table.lay link) :=
          outcome_place_eq_ok_iff.2 ⟨linkInRange, rfl⟩
        rw [placing]
        exact induction.2 ⟨restInRange, rfl⟩

/-- The cells of a table for this many nodes fit the address space. -/
def Fits
    (nodes : UInt32) :
    Prop :=
  nodes.toNat * nodes.toNat * routeBytes ≤ addressable

/-- A table is built exactly for topologies that fit and whose links stay in range. -/
theorem outcome_ofTopology_eq_ok_iff
    {topology : Topology}
    {table : RouteTable} :
    (ofTopology topology).outcome = .ok table ↔
      Fits topology.nodes ∧ topology.InRange ∧
        table = topology.links.foldl lay (isolated topology.nodes.toNat) := by
  unfold ofTopology Fits
  dsimp only
  split
  case isTrue large => simp [Nat.not_le_of_gt large]
  case isFalse fits =>
    rw [outcome_foldlM_place_eq_ok_iff]
    simp [Nat.le_of_not_gt fits, Topology.InRange]

/-- Of the ends of a link that leaves the network, the first one that is outside. -/
def endOutside
    (nodes : UInt32)
    (link : Link) :
    NodeId :=
  if nodes ≤ link.first then link.first else link.second

theorem outcome_place_of_outside
    {nodes : UInt32}
    {table : RouteTable}
    {link : Link}
    {index : Nat}
    (outside : ¬ (link.first < nodes ∧ link.second < nodes)) :
    (place nodes table link index).outcome =
      .error (.nodeOutOfRange index (endOutside nodes link) nodes) := by
  rw [outcome_place, endOutside]
  split
  case isTrue firstLt =>
    rw [if_neg fun secondLt => outside ⟨firstLt, secondLt⟩, if_neg (UInt32.not_le.2 firstLt)]
  case isFalse firstOutside => rw [if_pos (UInt32.not_lt.1 firstOutside)]

/-- Putting in a list of links fails for the first one that leaves the network. -/
theorem outcome_foldlM_place_eq_error_iff
    {nodes : UInt32}
    {table : RouteTable}
    {links : List Link}
    {start : Nat}
    {cause : RouteError} :
    ((links.zipIdx start).foldlM
        (fun table (link, index) => place nodes table link index) table).outcome =
          .error cause ↔
      ∃ index link,
        FirstFailing (fun _ link => link.first < nodes ∧ link.second < nodes) links index link ∧
          cause = .nodeOutOfRange (index + start) (endOutside nodes link) nodes := by
  induction links generalizing table start with
  | nil =>
      constructor
      · rintro ⟨⟩
      · rintro ⟨index, link, failing, -⟩
        cases failing.stands
  | cons link links induction =>
      rw [List.zipIdx_cons, List.foldlM_cons, Logged.outcome_bind]
      by_cases inside : link.first < nodes ∧ link.second < nodes
      · rw [outcome_place_eq_ok_iff.2 ⟨inside, rfl⟩, Except.bind, induction]
        constructor
        · rintro ⟨index, other, failing, rfl⟩
          refine ⟨index + 1, other, firstFailing_cons_succ.2 ⟨inside, failing⟩, ?_⟩
          rw [Nat.add_right_comm, Nat.add_assoc]
        · rintro ⟨index, other, failing, rfl⟩
          cases index with
          | zero => exact absurd inside (firstFailing_cons_zero.1 failing).2
          | succ index =>
              refine ⟨index, other, (firstFailing_cons_succ.1 failing).2, ?_⟩
              rw [Nat.add_right_comm, Nat.add_assoc]
      · rw [outcome_place_of_outside inside, Except.bind]
        constructor
        · rintro ⟨⟩
          exact ⟨0, link, firstFailing_cons_zero.2 ⟨rfl, inside⟩, by rw [Nat.zero_add]⟩
        · rintro ⟨index, other, failing, rfl⟩
          cases index with
          | zero => rw [(firstFailing_cons_zero.1 failing).1, Nat.zero_add]
          | succ index => exact absurd (firstFailing_cons_succ.1 failing).1 inside

/-- If its table fits, a topology is refused for its first link that leaves the network. -/
theorem outcome_ofTopology_eq_error_iff
    {topology : Topology}
    (fits : Fits topology.nodes)
    {cause : RouteError} :
    (ofTopology topology).outcome = .error cause ↔
      ∃ index link,
        FirstFailing (fun _ link => link.first < topology.nodes ∧ link.second < topology.nodes)
            topology.links index link ∧
          cause = .nodeOutOfRange index (endOutside topology.nodes link) topology.nodes := by
  unfold ofTopology
  dsimp only
  rw [if_neg (Nat.not_lt_of_le fits)]
  exact outcome_foldlM_place_eq_error_iff

/-- If its table fits but a link leaves the network, a topology is refused for a node outside. -/
theorem outcome_ofTopology_of_not_inRange
    {topology : Topology}
    (fits : Fits topology.nodes)
    (leaves : ¬ topology.InRange) :
    ∃ index node,
      (ofTopology topology).outcome = .error (.nodeOutOfRange index node topology.nodes) := by
  rw [Topology.InRange, ← holdsAlong_iff_forall_mem] at leaves
  rcases (holdsAlong_or_exists_firstFailing _ _).resolve_left leaves with ⟨index, link, failing⟩
  exact ⟨index, _, (outcome_ofTopology_eq_error_iff fits).2 ⟨index, link, failing, rfl⟩⟩

/-- A topology whose links stay in range is refused only for its size. -/
theorem outcome_ofTopology_ne_nodeOutOfRange
    {topology : Topology}
    (inRange : topology.InRange)
    (index : Nat)
    (node : NodeId) :
    (ofTopology topology).outcome ≠ .error (.nodeOutOfRange index node topology.nodes) := by
  by_cases fits : Fits topology.nodes
  · rw [outcome_ofTopology_eq_ok_iff.2 ⟨fits, inRange, rfl⟩]
    intro impossible
    cases impossible
  · unfold ofTopology
    dsimp only
    rw [if_pos (Nat.lt_of_not_le fits)]
    intro impossible
    cases impossible

/-! ## The cells that are built -/

/-- Of a list of links, the last one that joins two nodes gives their cell. -/
theorem cell_foldl_lay
    {table : RouteTable}
    {links : List Link}
    (inside :
      ∀ link ∈ links,
        link.first.toNat < table.size ∧ link.second.toNat < table.size)
    {i j : Nat}
    (distinct : i ≠ j) :
    (links.foldl lay table).cell i j =
      ((links.filter fun link => link.joins i j).getLast?.map Route.direct).getD
        (table.cell i j) := by
  induction links using List.reverseRecOn with
  | nil => rfl
  | append_singleton links link induction =>
      have linkInside := inside link (by simp)
      have before := induction fun other listed => inside other (by simp [listed])
      rw [List.foldl_append, List.foldl_cons, List.foldl_nil,
        cell_lay (by simpa using linkInside.1) (by simpa using linkInside.2) distinct,
        before, List.filter_append]
      by_cases joins : link.joins i j = true
      · simp [joins]
      · simp [joins]

theorem cell_foldl_lay_self
    {table : RouteTable}
    {links : List Link}
    (inside :
      ∀ link ∈ links,
        link.first.toNat < table.size ∧ link.second.toNat < table.size)
    (i : Nat) :
    (links.foldl lay table).cell i i = table.cell i i := by
  induction links generalizing table with
  | nil => rfl
  | cons link links induction =>
      have linkInside := inside link List.mem_cons_self
      rw [List.foldl_cons,
        induction fun other listed => by
          simpa using inside other (List.mem_cons_of_mem link listed),
        cell_lay_self linkInside.1 linkInside.2]

variable
    {topology : Topology}
    {table : RouteTable}
    {i j : Nat}

theorem size_of_ofTopology
    (built : (ofTopology topology).outcome = .ok table) :
    table.size = topology.nodes.toNat := by
  obtain ⟨-, -, rfl⟩ := outcome_ofTopology_eq_ok_iff.1 built
  exact size_foldl_lay _ _

theorem inside_isolated
    (inRange : topology.InRange) :
    ∀ link ∈ topology.links,
      link.first.toNat < (isolated topology.nodes.toNat).size ∧
        link.second.toNat < (isolated topology.nodes.toNat).size :=
  Topology.inRange_iff.1 inRange

/-- A node reaches itself over no link. -/
theorem cell_self_of_ofTopology
    (built : (ofTopology topology).outcome = .ok table)
    (iLt : i < topology.nodes.toNat) :
    table.cell i i = .self := by
  obtain ⟨-, inRange, rfl⟩ := outcome_ofTopology_eq_ok_iff.1 built
  rw [cell_foldl_lay_self (inside_isolated inRange), cell_isolated iLt iLt, if_pos rfl]

/-- Different nodes reach each other over the last link between them, if there is one. -/
theorem cell_of_ofTopology
    (built : (ofTopology topology).outcome = .ok table)
    (iLt : i < topology.nodes.toNat)
    (jLt : j < topology.nodes.toNat)
    (distinct : i ≠ j) :
    table.cell i j = ((topology.lastLink i j).map Route.direct).getD .unreached := by
  obtain ⟨-, inRange, rfl⟩ := outcome_ofTopology_eq_ok_iff.1 built
  rw [cell_foldl_lay (inside_isolated inRange) distinct, cell_isolated iLt jLt, if_neg distinct]
  rfl

end NetRun.RouteTable
