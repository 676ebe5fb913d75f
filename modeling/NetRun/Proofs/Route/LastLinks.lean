import NetRun.Proofs.Route.Settled

/-!
# Tables hold last links

A table is refused for the first link that leaves the network.  Otherwise it
holds, for every two nodes, the last link between them.  So it depends on nothing
else about the list of links: not on the order in which the ends of a link are
written, not on links from a node to itself, and not on the order of links that
join different nodes.
-/

namespace NetRun

open NetRun.Log

/-- What a link says besides the nodes that it joins. -/
def Link.figures
    (link : Link) :
    UInt64 × UInt64 :=
  (link.delay, link.bandwidth)

/-- The link with its ends written in the other order. -/
def Link.turned
    (link : Link) :
    Link :=
  { link with first := link.second, second := link.first }

theorem Link.joins_turned
    (link : Link)
    (a b : Nat) :
    link.turned.joins a b = link.joins a b := by
  simp only [joins, turned, Bool.and_comm, Bool.or_comm]

/-- A link is between the nodes that another one joins if it is between the ends of that one. -/
theorem Link.joins_ends
    {link : Link}
    {a b : Nat}
    (joins : link.joins a b = true)
    (other : Link) :
    other.joins link.first.toNat link.second.toNat = other.joins a b := by
  rcases joins_iff.1 joins with ⟨rfl, rfl⟩ | ⟨rfl, rfl⟩
  · rfl
  · exact other.joins_comm _ _

/-- The direct route is made of the figures alone. -/
theorem Route.map_direct_eq
    {last other : Option Link}
    (same : last.map Link.figures = other.map Link.figures) :
    last.map Route.direct = other.map Route.direct := by
  have direct :
      Route.direct = (fun figures => ⟨some 1, figures.1, .limited figures.2⟩) ∘ Link.figures :=
    rfl
  rw [direct, ← Option.map_map, same, Option.map_map]

/--
Two lists of links of which each can be made from the other by turning links
around, by adding or leaving out links from a node to itself, and by exchanging
neighbours that do not join the same nodes.
-/
inductive Rearranged :
    List Link → List Link → Prop where
  | refl (links : List Link) :
      Rearranged links links
  | cons (link : Link) {links others : List Link} :
      Rearranged links others → Rearranged (link :: links) (link :: others)
  | turn (link : Link) (links : List Link) :
      Rearranged (link :: links) (link.turned :: links)
  | loop (link : Link) (links : List Link) :
      link.first = link.second → Rearranged (link :: links) links
  | exchange (link other : Link) (links : List Link) :
      other.joins link.first.toNat link.second.toNat = false →
        Rearranged (link :: other :: links) (other :: link :: links)
  | symm {links others : List Link} :
      Rearranged links others → Rearranged others links
  | trans {links others more : List Link} :
      Rearranged links others → Rearranged others more → Rearranged links more

/-- The figures of all links between two nodes, in the order of the links. -/
def figuresBetween
    (i j : Nat)
    (links : List Link) :
    List (UInt64 × UInt64) :=
  (links.filter fun link => link.joins i j).map Link.figures

theorem figuresBetween_cons
    {i j : Nat}
    {link : Link}
    {links : List Link} :
    figuresBetween i j (link :: links) =
      if link.joins i j = true then link.figures :: figuresBetween i j links
      else figuresBetween i j links := by
  rw [figuresBetween, List.filter_cons]
  split <;> rfl

/-- Rearranging keeps the figures of all links between two nodes, in their order. -/
theorem Rearranged.figuresBetween_eq
    {links others : List Link}
    (rearranged : Rearranged links others)
    {i j : Nat}
    (distinct : i ≠ j) :
    figuresBetween i j links = figuresBetween i j others := by
  induction rearranged with
  | refl links => rfl
  | cons link rearranged induction => rw [figuresBetween_cons, figuresBetween_cons, induction]
  | turn link links =>
      rw [figuresBetween_cons, figuresBetween_cons, link.joins_turned]
      rfl
  | loop link links isLoop =>
      rw [figuresBetween_cons, if_neg (Link.not_joins_of_loop isLoop distinct)]
  | exchange link other links apart =>
      simp only [figuresBetween_cons]
      by_cases joins : link.joins i j = true
      · rw [Link.joins_ends joins] at apart
        have otherApart := Bool.eq_false_iff.1 apart
        rw [if_pos joins, if_neg otherApart, if_neg otherApart, if_pos joins]
      · rw [if_neg joins, if_neg joins]
  | symm rearranged induction => exact induction.symm
  | trans rearranged further induction inductionFurther =>
      exact induction.trans inductionFurther

/-- Two networks of the same nodes whose last links say the same for every two nodes. -/
structure Topology.LastLinksAgree
    (topology other : Topology) :
    Prop where
  nodes_eq : other.nodes = topology.nodes
  figures_eq :
    ∀ i < topology.nodes.toNat, ∀ j < topology.nodes.toNat, i ≠ j →
      (topology.lastLink i j).map Link.figures = (other.lastLink i j).map Link.figures

/-- Rearranging the links changes no figures of last links. -/
theorem Topology.lastLinksAgree_of_rearranged
    {topology other : Topology}
    (nodes : other.nodes = topology.nodes)
    (rearranged : Rearranged topology.links other.links) :
    topology.LastLinksAgree other := by
  refine ⟨nodes, fun i _ j _ distinct => ?_⟩
  rw [lastLink, lastLink, ← List.getLast?_map, ← List.getLast?_map]
  exact congrArg List.getLast? (rearranged.figuresBetween_eq distinct)

namespace RouteTable

variable
    {topology other : Topology}
    {table : RouteTable}

/-- The table has a zero-hop diagonal, and the last link between every two other nodes. -/
structure HoldsLastLinks
    (topology : Topology)
    (table : RouteTable) :
    Prop where
  size_eq : table.size = topology.nodes.toNat
  cell_self : ∀ i < topology.nodes.toNat, table.cell i i = .self
  cell_eq :
    ∀ i < topology.nodes.toNat, ∀ j < topology.nodes.toNat, i ≠ j →
      table.cell i j = ((topology.lastLink i j).map Route.direct).getD .unreached

theorem holdsLastLinks_of_ofTopology
    (built : (ofTopology topology).outcome = .ok table) :
    HoldsLastLinks topology table where
  size_eq := size_of_ofTopology built
  cell_self _ iLt := cell_self_of_ofTopology built iLt
  cell_eq _ iLt _ jLt distinct := cell_of_ofTopology built iLt jLt distinct

/-- What a table holds determines it. -/
theorem HoldsLastLinks.eq
    {otherTable : RouteTable}
    (holds : HoldsLastLinks topology table)
    (otherHolds : HoldsLastLinks other otherTable)
    (agree : topology.LastLinksAgree other) :
    table = otherTable := by
  have nodes := agree.nodes_eq
  apply eq_of_cell_eq
  · rw [holds.size_eq, otherHolds.size_eq, nodes]
  · rw [holds.size_eq]
    intro i iLt j jLt
    have iLtOther := iLt
    have jLtOther := jLt
    rw [← nodes] at iLtOther jLtOther
    by_cases diagonal : i = j
    · rw [← diagonal, holds.cell_self i iLt, otherHolds.cell_self i iLtOther]
    · rw [holds.cell_eq i iLt j jLt diagonal, otherHolds.cell_eq i iLtOther j jLtOther diagonal,
        Route.map_direct_eq (agree.figures_eq i iLt j jLt diagonal)]

/-- In-range networks whose last links agree are built alike. -/
theorem outcome_ofTopology_of_lastLinksAgree
    (fits : Fits topology.nodes)
    (inRange : topology.InRange)
    (otherInRange : other.InRange)
    (agree : topology.LastLinksAgree other) :
    (ofTopology other).outcome = (ofTopology topology).outcome := by
  have otherFits := fits
  rw [← agree.nodes_eq] at otherFits
  have built := outcome_ofTopology_eq_ok_iff.2 ⟨fits, inRange, rfl⟩
  have otherBuilt := outcome_ofTopology_eq_ok_iff.2 ⟨otherFits, otherInRange, rfl⟩
  have same :=
    (holdsLastLinks_of_ofTopology built).eq (holdsLastLinks_of_ofTopology otherBuilt) agree
  rw [built, otherBuilt, same]

/-- What is computed depends on the table of the links alone. -/
theorem outcome_compute_of_outcome_ofTopology
    (same : (ofTopology other).outcome = (ofTopology topology).outcome) :
    (compute other).outcome = (compute topology).outcome := by
  rw [compute, compute, Logged.outcome_bind, Logged.outcome_bind, same]

/-! ## The rule -/

/--
If its table fits, a network is refused exactly if some link leaves it, for the
first link that does and the first of its ends outside.  Otherwise the table
holds the last links.  Networks in range whose last links agree have the same
table, before and after it is relaxed; and last links agree if links are turned
around, if links from a node to itself come or go, and if links that join
different nodes change places.
-/
theorem ofTopology_holds_last_links
    (fits : Fits topology.nodes) :
    ((∃ index node,
          (ofTopology topology).outcome = .error (.nodeOutOfRange index node topology.nodes)) ↔
        ∃ link ∈ topology.links, topology.nodes ≤ link.first ∨ topology.nodes ≤ link.second) ∧
      (∀ cause,
        (ofTopology topology).outcome = .error cause ↔
          ∃ index link,
            FirstFailing
                (fun _ link => link.first < topology.nodes ∧ link.second < topology.nodes)
                topology.links index link ∧
              cause = .nodeOutOfRange index (endOutside topology.nodes link) topology.nodes) ∧
      (topology.InRange →
        ∃ table, (ofTopology topology).outcome = .ok table ∧ HoldsLastLinks topology table) ∧
      (∀ other : Topology,
        topology.InRange → other.InRange → topology.LastLinksAgree other →
          (ofTopology other).outcome = (ofTopology topology).outcome ∧
            (compute other).outcome = (compute topology).outcome) ∧
      (∀ other : Topology,
        other.nodes = topology.nodes → Rearranged topology.links other.links →
          topology.LastLinksAgree other) := by
  refine ⟨?_, ?_, ?_, ?_, ?_⟩
  · have leaves :
        (∃ link ∈ topology.links, topology.nodes ≤ link.first ∨ topology.nodes ≤ link.second) ↔
          ¬ topology.InRange := by
      simp only [Topology.InRange, not_forall, Decidable.not_and_iff_or_not, UInt32.not_lt,
        exists_prop]
    rw [leaves]
    constructor
    · rintro ⟨index, node, refused⟩ inRange
      exact outcome_ofTopology_ne_nodeOutOfRange inRange index node refused
    · exact outcome_ofTopology_of_not_inRange fits
  · intro cause
    exact outcome_ofTopology_eq_error_iff fits
  · intro inRange
    have built := outcome_ofTopology_eq_ok_iff.2 ⟨fits, inRange, rfl⟩
    exact ⟨_, built, holdsLastLinks_of_ofTopology built⟩
  · intro other inRange otherInRange agree
    have same := outcome_ofTopology_of_lastLinksAgree fits inRange otherInRange agree
    exact ⟨same, outcome_compute_of_outcome_ofTopology same⟩
  · intro other nodes rearranged
    exact Topology.lastLinksAgree_of_rearranged nodes rearranged

/-- A path of three nodes, its first step listed twice, and a link from a node to itself. -/
def listedTwice :
    Topology :=
  .ofLinks 3 [⟨0, 1, 100, 10⟩, ⟨2, 2, 5, 5⟩, ⟨1, 0, 90, 1⟩, ⟨1, 2, 60, 2⟩]

/-- The same path in another order. -/
def listedElsewise :
    Topology :=
  .ofLinks 3 [⟨2, 1, 60, 2⟩, ⟨0, 1, 100, 10⟩, ⟨1, 0, 90, 1⟩]

/-- Two nodes and links that leave them. -/
def listedAstray :
    Topology :=
  .ofLinks 2 [⟨0, 1, 100, 10⟩, ⟨1, 7, 90, 1⟩, ⟨9, 9, 60, 2⟩]

theorem listedTwice_holds_last_links :
    ∃ table,
      (ofTopology listedTwice).outcome = .ok table ∧
        HoldsLastLinks listedTwice table ∧
          table.cell 0 1 = ⟨some 1, 1, .limited 90⟩ ∧
            (ofTopology listedElsewise).outcome = .ok table ∧
              (compute listedElsewise).outcome = (compute listedTwice).outcome ∧
                (ofTopology listedAstray).outcome = .error (.nodeOutOfRange 1 7 2) := by
  have inRange : listedTwice.InRange := by
    unfold Topology.InRange
    decide
  have otherInRange : listedElsewise.InRange := by
    unfold Topology.InRange
    decide
  have rearranged : Rearranged listedTwice.links listedElsewise.links := by
    refine .trans (.cons _ (.loop ⟨2, 2, 5, 5⟩ _ rfl)) ?_
    refine .trans (.cons _ (.exchange ⟨1, 0, 90, 1⟩ _ _ rfl)) ?_
    refine .trans (.exchange ⟨0, 1, 100, 10⟩ _ _ rfl) ?_
    exact .turn _ _
  rcases @ofTopology_holds_last_links listedTwice (by unfold Fits; decide) with
    ⟨-, -, builds, alike, agrees⟩
  rcases builds inRange with ⟨table, built, holds⟩
  rcases alike listedElsewise inRange otherInRange (agrees _ rfl rearranged) with
    ⟨sameTable, sameRoutes⟩
  refine ⟨table, built, holds, ?_, sameTable.trans built, sameRoutes, ?_⟩
  · exact holds.cell_eq 0 (by decide) 1 (by decide) (by decide)
  · refine ((@ofTopology_holds_last_links listedAstray (by unfold Fits; decide)).2.1 _).2 ?_
    refine ⟨1, ⟨1, 7, 90, 1⟩, firstFailing_cons_succ.2 ⟨by decide, ?_⟩, rfl⟩
    exact firstFailing_cons_zero.2 ⟨rfl, by decide⟩

end RouteTable

end NetRun
