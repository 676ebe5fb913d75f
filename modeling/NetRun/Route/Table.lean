import NetRun.Log.Logged
import NetRun.Route.Basic
import NetRun.Stop

/-!
# Route tables

A table holds a route for every ordered pair of nodes.  It starts from the
links and is relaxed in place: for every pivot, source and target in turn, the
route over the pivot replaces the current one if it has strictly fewer hops.
Delay and bandwidth never decide; they belong to the route that is kept.

All operations are stated through one view, `cell`.
-/

namespace NetRun

open NetRun.Log

/-- Why no table is built. -/
inductive RouteError where
  /-- A link names a node that the network does not have. -/
  | nodeOutOfRange (index : Nat) (node nodes : UInt32)
  /-- The table would not fit the address space. -/
  | tooLarge (nodes : UInt32)
deriving DecidableEq, Repr

/-- What a refusal says. -/
def RouteError.message :
    RouteError → String
  | .nodeOutOfRange index node nodes =>
    s!"link {index} references node {node} outside [0, {nodes})"
  | .tooLarge nodes => s!"cannot allocate route matrices for {nodes} nodes"

/-- A route for every ordered pair of nodes, row by row. -/
structure RouteTable where
  size : Nat
  cells : Array Route
  complete : cells.size = size * size

namespace RouteTable

/-- Rows of the table's length, written one behind the other, stay within the table. -/
theorem index_lt
    {size i j : Nat}
    (hi : i < size)
    (hj : j < size) :
    i * size + j < size * size :=
  calc i * size + j < i * size + size := Nat.add_lt_add_left hj _
    _ = (i + 1) * size := (Nat.succ_mul _ _).symm
    _ ≤ size * size := Nat.mul_le_mul_right _ hi

/-- The row of an index. -/
theorem index_div
    {size i j : Nat}
    (hj : j < size) :
    (i * size + j) / size = i := by
  have hpos : 0 < size := Nat.lt_of_le_of_lt (Nat.zero_le _) hj
  rw [Nat.add_comm, Nat.add_mul_div_right _ _ hpos, Nat.div_eq_of_lt hj, Nat.zero_add]

/-- The column of an index. -/
theorem index_mod
    {size i j : Nat}
    (hj : j < size) :
    (i * size + j) % size = j :=
  Nat.mul_add_mod_of_lt hj

/-- The route from a node to another; pairs outside the table are unreached. -/
def cell
    (table : RouteTable)
    (source target : Nat) :
    Route :=
  if source < table.size ∧ target < table.size then
    (table.cells[source * table.size + target]?).getD Route.unreached
  else Route.unreached

/-- Replace the route from a node to another. -/
def setCell
    (table : RouteTable)
    (source target : Nat)
    (route : Route) :
    RouteTable :=
  if source < table.size ∧ target < table.size then
    { table with
      cells := table.cells.setIfInBounds (source * table.size + target) route
      complete := by simpa using table.complete }
  else table

@[simp]
theorem size_setCell
    {table : RouteTable}
    {source target : Nat}
    {route : Route} :
    (table.setCell source target route).size = table.size := by
  unfold setCell
  split <;> rfl

/-- Replacing a route changes the one cell and no other. -/
theorem cell_setCell
    {table : RouteTable}
    {source target i j : Nat}
    {route : Route}
    (hsource : source < table.size)
    (htarget : target < table.size) :
    (table.setCell source target route).cell i j =
      if i = source ∧ j = target then route else table.cell i j := by
  by_cases hin : i < table.size ∧ j < table.size
  case neg =>
    have hne : ¬ (i = source ∧ j = target) := fun h => hin (by
      rw [h.1, h.2]
      exact ⟨hsource, htarget⟩)
    simp [cell, hin, hne]
  case pos =>
    have hbound : source * table.size + target < table.cells.size := by
      rw [table.complete]
      exact index_lt hsource htarget
    have hindex : source * table.size + target = i * table.size + j ↔
        i = source ∧ j = target := by
      constructor
      · intro h
        have hdiv := congrArg (· / table.size) h
        have hmod := congrArg (· % table.size) h
        simp only [index_mod htarget, index_mod hin.2] at hmod
        simp only [index_div htarget, index_div hin.2] at hdiv
        exact ⟨hdiv.symm, hmod.symm⟩
      · rintro ⟨rfl, rfl⟩
        rfl
    unfold setCell cell
    simp only [hsource, htarget, hin, and_self, if_true]
    rw [Array.getElem?_setIfInBounds]
    by_cases heq : i = source ∧ j = target
    · simp [heq, hbound]
    · have hne : source * table.size + target ≠ i * table.size + j := fun h => heq (hindex.1 h)
      simp [heq, hne]

/-- The table without links: every node reaches itself and no other. -/
def isolated
    (size : Nat) :
    RouteTable where
  size := size
  cells := Array.ofFn fun index : Fin (size * size) =>
    if index.val / size = index.val % size then Route.self else Route.unreached
  complete := Array.size_ofFn

/-- Without links, a node reaches itself over no link, and nothing else. -/
theorem cell_isolated
    {size i j : Nat}
    (hi : i < size)
    (hj : j < size) :
    (isolated size).cell i j = if i = j then Route.self else Route.unreached := by
  simp [cell, isolated, hi, hj, index_lt hi hj, index_div hj, index_mod hj]

/-- The table of a network without nodes. -/
def empty :
    RouteTable :=
  isolated 0

/-- The memory that one cell takes, in bytes. -/
def routeBytes :
    Nat :=
  32

/-- A link's end is a node of the network. -/
def requireNode
    (nodes : UInt32)
    (index : Nat)
    (node : NodeId) :
    Logged RouteError Unit :=
  if node < nodes then pure () else .fail (.nodeOutOfRange index node nodes)

/--
Put a link into the table, in both directions.  It takes the place of an
earlier link between its nodes; a link from a node to itself is left out.
-/
def place
    (nodes : UInt32)
    (table : RouteTable)
    (link : Link)
    (index : Nat) :
    Logged RouteError RouteTable := do
  requireNode nodes index link.first
  requireNode nodes index link.second
  let a := link.first
  let b := link.second
  if a = b then
    .note (warning s!"Ignoring self-loop link {index} on node {a}")
    return table
  else
    if (table.cell a.toNat b.toNat).isReached then
      .note (debug s!"Duplicate link {a}-{b}; keeping line {index}")
    return (table.setCell a.toNat b.toNat (Route.direct link)).setCell b.toNat a.toNat
      (Route.direct link)

/-- The table of the links alone: one hop between neighbours. -/
def ofTopology
    (topology : Topology) :
    Logged RouteError RouteTable := do
  let size := topology.nodes.toNat
  if addressable < size * size * routeBytes then
    .fail (.tooLarge topology.nodes)
  else
    topology.links.zipIdx.foldlM
      (fun table (link, index) => place topology.nodes table link index) (isolated size)

/--
Offer the route over a pivot to one cell.  `first` is the route from the
source to the pivot, and the count is that of the routes replaced so far.
-/
def relaxCell
    (pivot source : Nat)
    (first : Route)
    (state : RouteTable × Nat)
    (target : Nat) :
    RouteTable × Nat :=
  match first.join (state.1.cell pivot target) with
  | none => state
  | some candidate =>
    if candidate.improves (state.1.cell source target) then
      (state.1.setCell source target candidate, state.2 + 1)
    else state

/-- Offer the routes over a pivot to all cells of a row. -/
def relaxRow
    (pivot : Nat)
    (state : RouteTable × Nat)
    (source : Nat) :
    RouteTable × Nat :=
  let first := state.1.cell source pivot
  if first.isReached then
    (List.range state.1.size).foldl (relaxCell pivot source first) state
  else state

/-- Offer the routes over a pivot to all cells, row by row. -/
def relaxStage
    (state : RouteTable × Nat)
    (pivot : Nat) :
    RouteTable × Nat :=
  (List.range state.1.size).foldl (relaxRow pivot) state

/-- Offer the routes over every pivot, and count the routes replaced. -/
def relax
    (table : RouteTable) :
    RouteTable × Nat :=
  (List.range table.size).foldl relaxStage (table, 0)

/-- The relaxed table of a network. -/
def compute
    (topology : Topology) :
    Logged RouteError RouteTable := do
  let table ← ofTopology topology
  let (relaxed, updates) := table.relax
  let nodes := relaxed.size
  .note (info s!"Computed routes for {nodes} nodes ({updates} relaxations)")
  return relaxed

/-- The node has a row in the table. -/
def contains
    (table : RouteTable)
    (node : NodeId) :
    Bool :=
  node.toNat < table.size

/-- The route between two nodes of the table. -/
def route
    (table : RouteTable)
    (source target : NodeId) :
    Except Crash Route :=
  if table.contains source && table.contains target then
    .ok (table.cell source.toNat target.toNat)
  else .error .nodeOutOfRange

end RouteTable

end NetRun
