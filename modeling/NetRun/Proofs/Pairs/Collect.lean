import NetRun.Pairs.Basic
import NetRun.Proofs.Traversal
import Mathlib.Data.Prod.Lex

/-!
# Collected pairs

Pairs are collected from the hosts that the table has, so every route that is
asked for is there, and collecting never ends in a crash.  The pairs come in
ascending order, by source and then by target.
-/

namespace NetRun

theorem RouteTable.contains_iff
    {table : RouteTable}
    {node : NodeId} :
    table.contains node = true ↔ node.toNat < table.size := by
  rw [contains, decide_eq_true_eq]

theorem RouteTable.route_eq_ok_iff
    {table : RouteTable}
    {source target : NodeId}
    {route : Route} :
    table.route source target = .ok route ↔
      (table.contains source = true ∧ table.contains target = true) ∧
        route = table.cell source.toNat target.toNat := by
  rw [RouteTable.route, ← Bool.and_eq_true]
  split
  case isTrue inside => rw [Except.ok.injEq, and_iff_right inside, eq_comm]
  case isFalse outside => simp [outside]

namespace PairRoute

open NetRun.Log

variable
    {table : RouteTable}
    {filter : PairFilter}
    {source target : NodeId}

/-- A pair of nodes with the route that the table has for it. -/
def inTable
    (table : RouteTable)
    (pair : NodeId × NodeId) :
    PairRoute :=
  ofRoute pair.1 pair.2 (table.cell pair.1.toNat pair.2.toNat)

theorem mem_admitted_iff
    {hosts : List NodeId} :
    (source, target) ∈ admitted filter hosts ↔
      source ∈ hosts ∧ target ∈ hosts ∧ filter.admits source target = true := by
  simp only [admitted, List.mem_flatMap, List.mem_map, List.mem_filter, Prod.mk.injEq]
  constructor
  · rintro ⟨_, sourceListed, _, ⟨targetListed, admits⟩, rfl, rfl⟩
    exact ⟨sourceListed, targetListed, admits⟩
  · rintro ⟨sourceListed, targetListed, admits⟩
    exact ⟨source, sourceListed, target, ⟨targetListed, admits⟩, rfl, rfl⟩

/-- Hosts in ascending order give pairs in ascending order. -/
theorem pairwise_admitted
    {hosts : List NodeId}
    (ascending : hosts.Pairwise (· < ·)) :
    (admitted filter hosts).Pairwise (Prod.Lex (· < ·) (· < ·)) := by
  apply List.pairwise_flatMap.2
  constructor
  · intro source _
    apply List.pairwise_map.2
    apply (ascending.filter (filter.admits source)).imp
    intro a b before
    exact Prod.Lex.right source before
  · apply ascending.imp
    intro a b before first fromA second fromB
    rcases List.mem_map.1 fromA with ⟨x, -, rfl⟩
    rcases List.mem_map.1 fromB with ⟨y, -, rfl⟩
    exact Prod.Lex.left x y before

theorem nodup_admitted
    {hosts : List NodeId}
    (ascending : hosts.Pairwise (· < ·)) :
    (admitted filter hosts).Nodup := by
  apply (pairwise_admitted ascending).imp
  rintro pair _ before rfl
  rcases Prod.lex_def.1 before with less | ⟨-, less⟩
  · exact UInt32.lt_irrefl _ less
  · exact UInt32.lt_irrefl _ less

/-- The admitted pairs of the known hosts all have a route in the table. -/
theorem routes_of_known
    (table : RouteTable)
    (hosts : HostSet)
    (filter : PairFilter) :
    ((admitted filter (hosts.members.filter table.contains)).mapM fun (source, target) =>
        (table.route source target).map (ofRoute source target)) =
      .ok ((admitted filter (hosts.members.filter table.contains)).map (inTable table)) := by
  have known :
      ∀ pair ∈ admitted filter (hosts.members.filter table.contains), ∀ result,
        (table.route pair.1 pair.2).map (ofRoute pair.1 pair.2) = .ok result ↔
          True ∧ result = inTable table pair := by
    rintro ⟨source, target⟩ listed result
    rcases mem_admitted_iff.1 listed with ⟨sourceListed, targetListed, -⟩
    have found :=
      RouteTable.route_eq_ok_iff.2
        ⟨⟨(List.mem_filter.1 sourceListed).2, (List.mem_filter.1 targetListed).2⟩, rfl⟩
    rw [found, true_and, Except.map, Except.ok.injEq, eq_comm]
    rfl
  exact (mapM_eq_ok_iff known).2 ⟨fun _ _ => trivial, rfl⟩

/-- The collected pairs are the admitted pairs of the known hosts, each with its route. -/
theorem outcome_collect
    (table : RouteTable)
    (hosts : HostSet)
    (filter : PairFilter) :
    (collect table hosts filter).outcome =
      .ok ((admitted filter (hosts.members.filter table.contains)).map (inTable table)) := by
  rw [collect]
  simp only [Logged.outcome_bind, Logged.outcome_report, Logged.outcome_ofExcept,
    Logged.outcome_note, Logged.outcome_pure]
  rw [Except.bind, routes_of_known]
  rfl

/-- The warnings are about the hosts that the table does not have. -/
theorem warnings_collect
    (table : RouteTable)
    (hosts : HostSet)
    (filter : PairFilter) :
    (collect table hosts filter).entries.filter Entry.isWarning =
      (hosts.members.filter fun host => !table.contains host).map unknownHost := by
  have areWarnings :
      ((hosts.members.filter fun host => !table.contains host).map unknownHost).filter
          Entry.isWarning =
        (hosts.members.filter fun host => !table.contains host).map unknownHost := by
    apply List.filter_eq_self.2
    intro entry listed
    rcases List.mem_map.1 listed with ⟨host, -, rfl⟩
    rfl
  rw [collect, routes_of_known]
  change (((hosts.members.filter fun host => !table.contains host).map unknownHost) ++
    ([] ++ ([debug _] ++ []))).filter Entry.isWarning = _
  rw [List.filter_append, areWarnings]
  exact List.append_nil _

end PairRoute

end NetRun
