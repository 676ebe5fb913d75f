import NetRun.Topology.Basic
import Mathlib.Combinatorics.SimpleGraph.Connectivity.Connected

/-!
# The graph of a topology

The links of a topology are the edges of an undirected graph on its nodes;
links from a node to itself are not edges.  Where several links join the same
two nodes, the last one listed stands for them all, so every walk runs over a
definite list of links.
-/

namespace NetRun

/-- The link stands between two nodes, in either order. -/
def Link.joins
    (link : Link)
    (a b : Nat) :
    Bool :=
  (link.first.toNat == a && link.second.toNat == b) ||
    (link.first.toNat == b && link.second.toNat == a)

theorem Link.joins_comm
    (link : Link)
    (a b : Nat) :
    link.joins a b = link.joins b a := by
  rw [joins, joins, Bool.or_comm]

theorem Link.joins_iff
    {link : Link}
    {a b : Nat} :
    link.joins a b = true ↔
      (link.first.toNat = a ∧ link.second.toNat = b) ∨
        (link.first.toNat = b ∧ link.second.toNat = a) := by
  simp [joins]

/-- A link from a node to itself joins no two different nodes. -/
theorem Link.not_joins_of_loop
    {link : Link}
    {a b : Nat}
    (loop : link.first = link.second)
    (distinct : a ≠ b) :
    ¬ link.joins a b = true := by
  rw [joins_iff, loop]
  rintro (⟨rfl, rfl⟩ | ⟨rfl, rfl⟩) <;> exact distinct rfl

namespace Topology

/-- The undirected graph of the links between different nodes. -/
def graph
    (topology : Topology) :
    SimpleGraph Nat where
  Adj a b := a ≠ b ∧ ∃ link ∈ topology.links, link.joins a b = true
  symm := ⟨by
    rintro a b ⟨distinct, link, listed, joins⟩
    exact ⟨distinct.symm, link, listed, by rw [Link.joins_comm, joins]⟩⟩
  loopless := ⟨fun _ adjacent => adjacent.1 rfl⟩

/-- The last link listed between two nodes. -/
def lastLink
    (topology : Topology)
    (a b : Nat) :
    Option Link :=
  (topology.links.filter fun link => link.joins a b).getLast?

theorem lastLink_comm
    (topology : Topology)
    (a b : Nat) :
    topology.lastLink a b = topology.lastLink b a := by
  simp only [lastLink, Link.joins_comm _ a b]

theorem lastLink_eq_none_iff
    {topology : Topology}
    {a b : Nat} :
    topology.lastLink a b = none ↔
      ∀ link ∈ topology.links, link.joins a b = false := by
  simp [lastLink]

/-- The last link between two nodes is a link between them. -/
theorem joins_of_lastLink
    {topology : Topology}
    {a b : Nat}
    {link : Link}
    (last : topology.lastLink a b = some link) :
    link ∈ topology.links ∧ link.joins a b = true := by
  have listed := List.mem_of_getLast? last
  exact List.mem_filter.1 listed

/-- Nodes are adjacent exactly when they differ and some link is the last between them. -/
theorem adj_iff_lastLink
    {topology : Topology}
    {a b : Nat} :
    topology.graph.Adj a b ↔
      a ≠ b ∧ ∃ link, topology.lastLink a b = some link := by
  constructor
  · rintro ⟨distinct, link, listed, joins⟩
    refine ⟨distinct, Option.ne_none_iff_exists'.1 ?_⟩
    intro missing
    have separate := lastLink_eq_none_iff.1 missing link listed
    rw [joins] at separate
    cases separate
  · rintro ⟨distinct, link, last⟩
    exact ⟨distinct, link, joins_of_lastLink last⟩

/-- The link that a step between adjacent nodes takes. -/
def linkOf
    (topology : Topology)
    (step : topology.graph.Dart) :
    Link :=
  (topology.lastLink step.fst step.snd).get
    (Option.isSome_iff_exists.2 (adj_iff_lastLink.1 step.adj).2)

/-- A step takes the last link listed between its two nodes. -/
theorem lastLink_eq_linkOf
    (topology : Topology)
    (step : topology.graph.Dart) :
    topology.lastLink step.fst step.snd = some (topology.linkOf step) :=
  (Option.some_get _).symm

/-- The links that a walk runs over, one for each of its steps. -/
def linksAlong
    (topology : Topology)
    {a b : Nat}
    (walk : topology.graph.Walk a b) :
    List Link :=
  walk.darts.map topology.linkOf

theorem linksAlong_cons
    (topology : Topology)
    {a b c : Nat}
    (adjacent : topology.graph.Adj a c)
    (walk : topology.graph.Walk c b) :
    topology.linksAlong (.cons adjacent walk) =
      topology.linkOf ⟨(a, c), adjacent⟩ :: topology.linksAlong walk :=
  rfl

/-- A walk runs over links of its topology. -/
theorem mem_links_of_mem_linksAlong
    {topology : Topology}
    {a b : Nat}
    {walk : topology.graph.Walk a b}
    {link : Link}
    (taken : link ∈ topology.linksAlong walk) :
    link ∈ topology.links := by
  rcases List.mem_map.1 taken with ⟨step, -, rfl⟩
  exact (joins_of_lastLink (topology.lastLink_eq_linkOf step)).1

@[simp]
theorem linksAlong_append
    (topology : Topology)
    {a b c : Nat}
    (walk : topology.graph.Walk a b)
    (rest : topology.graph.Walk b c) :
    topology.linksAlong (walk.append rest) =
      topology.linksAlong walk ++ topology.linksAlong rest := by
  simp [linksAlong]

@[simp]
theorem length_linksAlong
    (topology : Topology)
    {a b : Nat}
    (walk : topology.graph.Walk a b) :
    (topology.linksAlong walk).length = walk.length := by
  simp [linksAlong]

/-- A single step runs over the last link between its nodes. -/
theorem linksAlong_toWalk
    {topology : Topology}
    {a b : Nat}
    {link : Link}
    (adjacent : topology.graph.Adj a b)
    (last : topology.lastLink a b = some link) :
    topology.linksAlong adjacent.toWalk = [link] := by
  have taken := topology.lastLink_eq_linkOf ⟨(a, b), adjacent⟩
  rw [last, Option.some.injEq] at taken
  simp [linksAlong, taken]

/-! ## Walks inside the network -/

theorem inRange_iff
    {topology : Topology} :
    topology.InRange ↔
      ∀ link ∈ topology.links,
        link.first.toNat < topology.nodes.toNat ∧
          link.second.toNat < topology.nodes.toNat := by
  simp only [InRange, UInt32.lt_iff_toNat_lt]

theorem InRange.lt_of_adj
    {topology : Topology}
    (inRange : topology.InRange)
    {a b : Nat}
    (adjacent : topology.graph.Adj a b) :
    a < topology.nodes.toNat ∧ b < topology.nodes.toNat := by
  obtain ⟨-, link, listed, joins⟩ := adjacent
  obtain ⟨firstLt, secondLt⟩ := inRange_iff.1 inRange link listed
  rcases Link.joins_iff.1 joins with ⟨rfl, rfl⟩ | ⟨rfl, rfl⟩
  · exact ⟨firstLt, secondLt⟩
  · exact ⟨secondLt, firstLt⟩

/-- A walk that starts in the network stays in it. -/
theorem InRange.lt_of_mem_support
    {topology : Topology}
    (inRange : topology.InRange)
    {a b : Nat}
    (walk : topology.graph.Walk a b)
    (startLt : a < topology.nodes.toNat)
    {node : Nat}
    (visited : node ∈ walk.support) :
    node < topology.nodes.toNat := by
  induction walk with
  | nil =>
      rw [SimpleGraph.Walk.mem_support_nil_iff] at visited
      rwa [visited]
  | cons adjacent walk induction =>
      rw [SimpleGraph.Walk.support_cons, List.mem_cons] at visited
      rcases visited with rfl | visited
      · exact startLt
      · exact induction (inRange.lt_of_adj adjacent).2 visited

/-- A path has fewer steps than the network has nodes. -/
theorem InRange.length_lt_of_isPath
    {topology : Topology}
    (inRange : topology.InRange)
    {a b : Nat}
    {path : topology.graph.Walk a b}
    (isPath : path.IsPath)
    (startLt : a < topology.nodes.toNat) :
    path.length < topology.nodes.toNat := by
  have inside : path.support ⊆ List.range topology.nodes.toNat := by
    intro node visited
    exact List.mem_range.2 (inRange.lt_of_mem_support path startLt visited)
  have bounded := (List.subperm_of_subset isPath.support_nodup inside).length_le
  rw [SimpleGraph.Walk.length_support, List.length_range] at bounded
  exact bounded

end Topology

end NetRun
