import NetRun.Proofs.Traversal
import NetRun.Proofs.Workload.Drawing
import NetRun.Proofs.Workload.Uniform
import Mathlib.Logic.Function.Iterate

/-!
# Draws and moves

The ends of the flows are moved one after the other, the source of a flow before
its target, and each takes the next number of the stream.  If the moved ends all
have numbers of 32 bits, every flow is moved.  Otherwise the first end without one
is named, and nothing is drawn after it.
-/

namespace NetRun

/-! ## Moving a node -/

/-- The product of two words of 32 bits does not wrap in 64 bits. -/
theorem toNat_offset
    (core index : UInt32) :
    (index.toUInt64 * core.toUInt64).toNat = index.toNat * core.toNat := by
  have small : index.toNat * core.toNat < 4294967296 * 4294967296 :=
    Nat.mul_lt_mul'' index.toNat_lt core.toNat_lt
  rw [UInt64.toNat_mul, UInt32.toNat_toUInt64, UInt32.toNat_toUInt64]
  exact Nat.mod_eq_of_lt small

/-- Neither does the sum of such a product and another word. -/
theorem toNat_shifted
    (core : UInt32)
    (node : NodeId)
    (index : UInt32) :
    (node.toUInt64 + index.toUInt64 * core.toUInt64).toNat =
      node.toNat + index.toNat * core.toNat := by
  have product : index.toNat * core.toNat ≤ 4294967295 * 4294967295 :=
    Nat.mul_le_mul (Nat.le_of_lt_succ index.toNat_lt) (Nat.le_of_lt_succ core.toNat_lt)
  have nodeLt := node.toNat_lt
  rw [UInt64.toNat_add, toNat_offset, UInt32.toNat_toUInt64]
  exact Nat.mod_eq_of_lt (by omega)

/-- A node is moved by exact arithmetic, and refused if the result takes more than 32 bits. -/
theorem shiftNode_eq
    (core : UInt32)
    (node : NodeId)
    (index : UInt32) :
    shiftNode core node index =
      if node.toNat + index.toNat * core.toNat < 4294967296 then
        .ok (UInt32.ofNat (node.toNat + index.toNat * core.toNat))
      else .error (.overflow node (UInt64.ofNat (index.toNat * core.toNat))) := by
  rw [← toNat_shifted, ← toNat_offset, UInt64.ofNat_toNat]
  rfl

/-! ## Sites

The nodes with one residue modulo the core make a site.  Whatever is drawn, no end
of a flow leaves its site. -/

/-- A copy of the flow at the same sites, changed in its ends only. -/
structure Flow.KeepsSites
    (core : UInt32)
    (flow copy : Flow) :
    Prop where
  source_mod : copy.source.toNat % core.toNat = flow.source.toNat % core.toNat
  target_mod : copy.target.toNat % core.toNat = flow.target.toNat % core.toNat
  same : copy = { flow with source := copy.source, target := copy.target }

section Sites

variable
    {σ : Type}

theorem drawReplica_ensures
    (draw : σ → UInt32 × σ)
    (core : UInt32)
    (node : NodeId) :
    (drawReplica draw core node).Ensures fun moved =>
      moved.toNat % core.toNat = node.toNat % core.toNat := by
  intro stream moved rest runs
  have shifts : shiftNode core node (draw stream).1 = .ok moved := congrArg Prod.fst runs
  rw [shiftNode_eq] at shifts
  split at shifts
  case isTrue fits =>
    cases shifts
    rw [UInt32.toNat_ofNat_of_lt' fits, Nat.add_mul_mod_self_right]
  case isFalse => cases shifts

theorem Flow.spread_ensures
    (draw : σ → UInt32 × σ)
    (core : UInt32)
    (flow : Flow) :
    (flow.spread draw core).Ensures (flow.KeepsSites core) := by
  refine (drawReplica_ensures draw core flow.source).bind fun source sourceMod => ?_
  refine (drawReplica_ensures draw core flow.target).bind fun target targetMod => ?_
  exact Drawing.Ensures.pure ⟨sourceMod, targetMod, rfl⟩

theorem spreadFlows_keepsSites
    (draw : UInt32 → σ → UInt32 × σ)
    (flows : List Flow)
    (fanout core : UInt32) :
    (spreadFlows draw flows fanout core).Ensures (List.Forall₂ (Flow.KeepsSites core) flows) := by
  rw [spreadFlows]
  split
  case isTrue => exact Drawing.Ensures.throw
  case isFalse => exact Drawing.Ensures.mapM fun flow _ => flow.spread_ensures (draw fanout) core

end Sites

/-! ## Draws in order -/

section Draws

variable
    {σ : Type}
    (draw : σ → UInt32 × σ)
    (core : UInt32)
    (stream : σ)

/-- What is left of a stream after a count of draws. -/
def afterDraws
    (count : Nat) :
    σ :=
  (fun left => (draw left).2)^[count] stream

/-- The number that is drawn after a count of others, times the core. -/
def drawnOffset
    (count : Nat) :
    Nat :=
  (draw (afterDraws draw stream count)).1.toNat * core.toNat

/-- The node that is moved after a count of others keeps a number of 32 bits. -/
def MoveFits
    (count : Nat)
    (node : NodeId) :
    Prop :=
  node.toNat + drawnOffset draw core stream count < 4294967296

instance
    (count : Nat)
    (node : NodeId) :
    Decidable (MoveFits draw core stream count node) :=
  inferInstanceAs (Decidable (_ < _))

/-- A copy of the flow after a count of others, both of its ends moved and nothing else changed. -/
structure Flow.MovesTo
    (count : Nat)
    (flow copy : Flow) :
    Prop where
  source : copy.source.toNat = flow.source.toNat + drawnOffset draw core stream (2 * count)
  target : copy.target.toNat = flow.target.toNat + drawnOffset draw core stream (2 * count + 1)
  source_mod : copy.source.toNat % core.toNat = flow.source.toNat % core.toNat
  target_mod : copy.target.toNat % core.toNat = flow.target.toNat % core.toNat
  same : copy = { flow with source := copy.source, target := copy.target }

/-- Flow by flow, the copies are the flows of a list, moved in their order. -/
structure MovesTo
    (flows copies : List Flow) :
    Prop where
  length_eq : copies.length = flows.length
  moves :
    ∀ count (flow copy : Flow), flows[count]? = some flow → copies[count]? = some copy →
      flow.MovesTo draw core stream count copy

/-- The nodes of flows in the order in which they are moved. -/
def drawOrder
    (flows : List Flow) :
    List NodeId :=
  flows.flatMap fun flow => [flow.source, flow.target]

end Draws

section Runs

variable
    {σ : Type}
    {draw : σ → UInt32 × σ}
    {core : UInt32}
    {stream : σ}

/-! ### The first draw and the others -/

/-- What is moved behind a first node is moved by the numbers of the stream behind it. -/
theorem moveFits_succ :
    (fun count => MoveFits draw core stream (count + 1)) = MoveFits draw core (draw stream).2 :=
  rfl

theorem holdsAlong_moveFits_pair
    {node other : NodeId} :
    HoldsAlong (MoveFits draw core stream) [node, other] ↔
      MoveFits draw core stream 0 node ∧ MoveFits draw core (draw stream).2 0 other := by
  simp only [holdsAlong_cons, moveFits_succ, holdsAlong_nil, and_true]

theorem movesTo_nil :
    MovesTo draw core stream [] [] where
  length_eq := rfl
  moves := by
    rintro count flow copy ⟨⟩

theorem movesTo_cons
    {flow copy : Flow}
    {flows copies : List Flow}
    (first : flow.MovesTo draw core stream 0 copy)
    (rest : MovesTo draw core (draw (draw stream).2).2 flows copies) :
    MovesTo draw core stream (flow :: flows) (copy :: copies) where
  length_eq := congrArg Nat.succ rest.length_eq
  moves := by
    intro count other otherCopy stands copyStands
    cases count with
    | zero =>
        cases stands
        cases copyStands
        exact first
    | succ count =>
        -- Two numbers are drawn for the first flow, so the others find theirs two further on.
        rcases rest.moves count other otherCopy stands copyStands with
          ⟨source, target, sourceMod, targetMod, same⟩
        exact ⟨source, target, sourceMod, targetMod, same⟩

/-! ### Runs -/

theorem run_drawReplica_of_moveFits
    {node : NodeId}
    (fits : MoveFits draw core stream 0 node) :
    ∃ moved,
      (drawReplica draw core node).run stream = (.ok moved, (draw stream).2) ∧
        moved.toNat = node.toNat + drawnOffset draw core stream 0 := by
  refine ⟨_, ?_, UInt32.toNat_ofNat_of_lt' fits⟩
  have shifts := (shiftNode_eq core node (draw stream).1).trans (if_pos fits)
  exact congrArg (·, (draw stream).2) shifts

theorem run_drawReplica_of_not_moveFits
    {node : NodeId}
    (unfit : ¬ MoveFits draw core stream 0 node) :
    (drawReplica draw core node).run stream =
      (.error (.overflow node (UInt64.ofNat (drawnOffset draw core stream 0))),
        (draw stream).2) := by
  have refuses := (shiftNode_eq core node (draw stream).1).trans (if_neg unfit)
  exact congrArg (·, (draw stream).2) refuses

/-- If both ends of a flow fit, two numbers are drawn and the flow is moved. -/
theorem Flow.run_spread_of_holdsAlong
    {flow : Flow}
    (fit : HoldsAlong (MoveFits draw core stream) [flow.source, flow.target]) :
    ∃ copy,
      (flow.spread draw core).run stream = (.ok copy, (draw (draw stream).2).2) ∧
        flow.MovesTo draw core stream 0 copy := by
  rcases holdsAlong_moveFits_pair.1 fit with ⟨sourceFits, targetFits⟩
  rcases run_drawReplica_of_moveFits sourceFits with ⟨source, sourceRuns, sourceEq⟩
  rcases run_drawReplica_of_moveFits targetFits with ⟨target, targetRuns, targetEq⟩
  refine ⟨{ flow with source := source, target := target }, ?_, sourceEq, targetEq, ?_, ?_, rfl⟩
  · rw [Flow.spread, Drawing.run_bind, sourceRuns]
    dsimp only
    rw [Drawing.run_bind, targetRuns]
    rfl
  · rw [sourceEq, drawnOffset, Nat.add_mul_mod_self_right]
  · rw [targetEq, drawnOffset, Nat.add_mul_mod_self_right]

/-- If an end of a flow does not fit, it is named, and nothing is drawn after it. -/
theorem Flow.run_spread_of_firstFailing
    {flow : Flow}
    {count : Nat}
    {node : NodeId}
    (unfit : FirstFailing (MoveFits draw core stream) [flow.source, flow.target] count node) :
    (flow.spread draw core).run stream =
      (.error (.overflow node (UInt64.ofNat (drawnOffset draw core stream count))),
        afterDraws draw stream (count + 1)) := by
  cases count with
  | zero =>
      rcases firstFailing_cons_zero.1 unfit with ⟨rfl, sourceUnfit⟩
      rw [Flow.spread, Drawing.run_bind, run_drawReplica_of_not_moveFits sourceUnfit]
      rfl
  | succ count =>
      rcases firstFailing_cons_succ.1 unfit with ⟨sourceFits, atTarget⟩
      rw [moveFits_succ] at atTarget
      rcases run_drawReplica_of_moveFits sourceFits with ⟨source, sourceRuns, -⟩
      rw [Flow.spread, Drawing.run_bind, sourceRuns]
      dsimp only
      rw [Drawing.run_bind]
      cases count with
      | zero =>
          rcases firstFailing_cons_zero.1 atTarget with ⟨rfl, targetUnfit⟩
          rw [run_drawReplica_of_not_moveFits targetUnfit]
          rfl
      | succ count => cases atTarget.stands

/-- If all ends fit, two numbers are drawn for each flow, and all flows are moved. -/
theorem run_mapM_spread_of_holdsAlong
    {flows : List Flow}
    (fit : HoldsAlong (MoveFits draw core stream) (drawOrder flows)) :
    ∃ moved,
      (flows.mapM (Flow.spread draw core)).run stream =
          (.ok moved, afterDraws draw stream (2 * flows.length)) ∧
        MovesTo draw core stream flows moved := by
  induction flows generalizing stream with
  | nil => exact ⟨[], rfl, movesTo_nil⟩
  | cons flow flows induction =>
      rw [drawOrder, List.flatMap_cons, holdsAlong_append] at fit
      rcases fit with ⟨endsFit, restFit⟩
      rcases Flow.run_spread_of_holdsAlong endsFit with ⟨copy, flowRuns, moves⟩
      rcases induction restFit with ⟨copies, restRuns, moveTo⟩
      refine ⟨copy :: copies, ?_, movesTo_cons moves moveTo⟩
      rw [List.mapM_cons, Drawing.run_bind, flowRuns]
      dsimp only
      rw [Drawing.run_bind, restRuns]
      rfl

/-- If some end does not fit, the first one is named, and nothing is drawn after it. -/
theorem run_mapM_spread_of_firstFailing
    {flows : List Flow}
    {count : Nat}
    {node : NodeId}
    (unfit : FirstFailing (MoveFits draw core stream) (drawOrder flows) count node) :
    (flows.mapM (Flow.spread draw core)).run stream =
      (.error (.overflow node (UInt64.ofNat (drawnOffset draw core stream count))),
        afterDraws draw stream (count + 1)) := by
  induction flows generalizing stream count with
  | nil => cases unfit.stands
  | cons flow flows induction =>
      rw [drawOrder, List.flatMap_cons, firstFailing_append] at unfit
      rw [List.mapM_cons, Drawing.run_bind]
      rcases unfit with endUnfit | ⟨endsFit, later, rfl, restUnfit⟩
      · rw [Flow.run_spread_of_firstFailing endUnfit]
      · rcases Flow.run_spread_of_holdsAlong endsFit with ⟨copy, flowRuns, -⟩
        rw [flowRuns]
        dsimp only
        rw [Drawing.run_bind, induction restUnfit]
        rfl

/-- The moved flows are told by what is drawn. -/
theorem MovesTo.eq_mapIdx
    {flows copies : List Flow}
    (movesTo : MovesTo draw core stream flows copies) :
    copies =
      flows.mapIdx fun count flow =>
        { flow with
          source := UInt32.ofNat (flow.source.toNat + drawnOffset draw core stream (2 * count))
          target :=
            UInt32.ofNat (flow.target.toNat + drawnOffset draw core stream (2 * count + 1)) } := by
  apply List.ext_getElem
  · rw [movesTo.length_eq, List.length_mapIdx]
  · intro count copyLt flowLt
    rw [List.length_mapIdx] at flowLt
    have moves := movesTo.moves count _ _ (List.getElem?_eq_getElem flowLt)
      (List.getElem?_eq_getElem copyLt)
    rw [List.getElem_mapIdx, ← moves.source, ← moves.target, UInt32.ofNat_toNat,
      UInt32.ofNat_toNat]
    exact moves.same

/-! ### Draws below a bound -/

/-- A node fits at each of its replicas if it does at the last. -/
theorem fits_of_lt
    {fanout index : UInt32}
    {node : NodeId}
    (lastFits : node.toNat + (fanout.toNat - 1) * core.toNat < 4294967296)
    (below : index < fanout) :
    node.toNat + index.toNat * core.toNat < 4294967296 := by
  have upToLast : index.toNat * core.toNat ≤ (fanout.toNat - 1) * core.toNat :=
    Nat.mul_le_mul_right _ (Nat.le_sub_one_of_lt (UInt32.lt_iff_toNat_lt.1 below))
  exact Nat.lt_of_le_of_lt (Nat.add_le_add_left upToLast _) lastFits

/-- All nodes fit if they do with the highest number that can be drawn. -/
theorem moveFits_of_draws_lt
    {fanout : UInt32}
    (draws : ∀ left, (draw left).1 < fanout)
    {nodes : List NodeId}
    (lastFits :
      ∀ node ∈ nodes, node.toNat + (fanout.toNat - 1) * core.toNat < 4294967296) :
    HoldsAlong (MoveFits draw core stream) nodes := by
  intro count node stands
  exact fits_of_lt (lastFits node (List.mem_of_getElem? stands)) (draws _)

/-- With one replica nothing is moved. -/
theorem drawnOffset_of_draws_lt_one
    (draws : ∀ left, (draw left).1 < 1)
    (count : Nat) :
    drawnOffset draw core stream count = 0 := by
  have drawnLt := UInt32.lt_iff_toNat_lt.1 (draws (afterDraws draw stream count))
  rw [drawnOffset, Nat.lt_one_iff.1 drawnLt, Nat.zero_mul]

theorem MovesTo.eq_of_draws_lt_one
    (draws : ∀ left, (draw left).1 < 1)
    {flows copies : List Flow}
    (movesTo : MovesTo draw core stream flows copies) :
    copies = flows := by
  rw [movesTo.eq_mapIdx]
  simp only [drawnOffset_of_draws_lt_one draws, Nat.add_zero, UInt32.ofNat_toNat]
  exact List.mapIdx_eq_iff.2 fun _ => Option.map_id'.symm

end Runs

/-! ## The rule -/

/--
The ends of the flows take the numbers of the stream in their order.  If all of
them fit, every flow is moved and nothing else about it is changed.  Otherwise
the first end that does not fit is named with its offset, and nothing is drawn
after it.  Offsets and sums do not wrap.  If every end fits with the highest
number below the fanout, nothing is refused, and with a fanout of one nothing is
changed, whatever is drawn.
-/
theorem spreadFlows_moves_in_draw_order
    {σ : Type}
    {draw : UInt32 → σ → UInt32 × σ}
    {fanout : UInt32}
    (positive : fanout ≠ 0)
    (flows : List Flow)
    (core : UInt32)
    (stream : σ) :
    (HoldsAlong (MoveFits (draw fanout) core stream) (drawOrder flows) →
        ∃ moved,
          (spreadFlows draw flows fanout core).run stream =
              (.ok moved, afterDraws (draw fanout) stream (2 * flows.length)) ∧
            MovesTo (draw fanout) core stream flows moved) ∧
      (∀ count node,
        FirstFailing (MoveFits (draw fanout) core stream) (drawOrder flows) count node →
        ∃ offset,
          (spreadFlows draw flows fanout core).run stream =
              (.error (.overflow node offset), afterDraws (draw fanout) stream (count + 1)) ∧
            offset.toNat = drawnOffset (draw fanout) core stream count) ∧
      (HoldsAlong (MoveFits (draw fanout) core stream) (drawOrder flows) ∨
        ∃ count node,
          FirstFailing (MoveFits (draw fanout) core stream) (drawOrder flows) count node) ∧
      (∀ (node : NodeId) (index : UInt32),
        (index.toUInt64 * core.toUInt64).toNat = index.toNat * core.toNat ∧
          (node.toUInt64 + index.toUInt64 * core.toUInt64).toNat =
            node.toNat + index.toNat * core.toNat) ∧
      ((∀ left, (draw fanout left).1 < fanout) →
        (∀ node ∈ drawOrder flows,
          node.toNat + (fanout.toNat - 1) * core.toNat < 4294967296) →
          ∃ moved rest, (spreadFlows draw flows fanout core).run stream = (.ok moved, rest)) ∧
      ((∀ left, (draw fanout left).1 < fanout) → fanout = 1 →
        (spreadFlows draw flows fanout core).run stream =
          (.ok flows, afterDraws (draw fanout) stream (2 * flows.length))) := by
  rw [spreadFlows, if_neg positive]
  refine ⟨?_, ?_, ?_, ?_, ?_, ?_⟩
  · exact run_mapM_spread_of_holdsAlong
  · intro count node unfit
    refine ⟨_, run_mapM_spread_of_firstFailing unfit, ?_⟩
    rw [drawnOffset, ← toNat_offset, UInt64.ofNat_toNat]
  · exact holdsAlong_or_exists_firstFailing _ (drawOrder flows)
  · intro node index
    exact ⟨toNat_offset core index, toNat_shifted core node index⟩
  · intro draws lastFits
    rcases run_mapM_spread_of_holdsAlong (moveFits_of_draws_lt draws lastFits) with
      ⟨moved, runs, -⟩
    exact ⟨moved, _, runs⟩
  · rintro draws rfl
    have fit : HoldsAlong (MoveFits (draw 1) core stream) (drawOrder flows) := by
      apply moveFits_of_draws_lt draws
      intro node _
      change node.toNat + 0 * core.toNat < 4294967296
      rw [Nat.zero_mul, Nat.add_zero]
      exact node.toNat_lt
    rcases run_mapM_spread_of_holdsAlong fit with ⟨moved, runs, movesTo⟩
    rwa [movesTo.eq_of_draws_lt_one draws] at runs

/-- A flow each way between two hosts. -/
def thereAndBack :
    List Flow :=
  [⟨⟨"0", 0.0⟩, 100, 2, 3⟩, ⟨⟨"1", 1.0⟩, 200, 3, 2⟩]

theorem thereAndBack_moves_in_draw_order :
    ∃ moved offset,
      (spreadFlows Uniform.Supply.below thereAndBack 3 2).run
            ⟨0, [0, 3000000000, 1500000000]⟩ = (.ok moved, ⟨4, []⟩) ∧
        MovesTo (Uniform.Supply.below 3) 2 ⟨0, [0, 3000000000, 1500000000]⟩ thereAndBack moved ∧
          (moved.map fun flow => (flow.source, flow.target)) = [(2, 7), (5, 2)] ∧
            (spreadFlows Uniform.Supply.below thereAndBack 3 2147483648).run
                ⟨0, [0, 3000000000, 1500000000]⟩ =
              (.error (.overflow 3 offset), ⟨2, [1500000000]⟩) ∧
              offset.toNat = 4294967296 ∧
                (spreadFlows Uniform.Supply.below thereAndBack 1 2147483648).run
                    ⟨0, [0, 3000000000, 1500000000]⟩ = (.ok thereAndBack, ⟨5, []⟩) := by
  have fit :
      HoldsAlong (MoveFits (Uniform.Supply.below 3) 2 ⟨0, [0, 3000000000, 1500000000]⟩)
        (drawOrder thereAndBack) := by
    change HoldsAlong _ [2, 3, 3, 2]
    simp only [holdsAlong_cons, holdsAlong_nil, and_true]
    decide
  have unfit :
      FirstFailing
        (MoveFits (Uniform.Supply.below 3) 2147483648 ⟨0, [0, 3000000000, 1500000000]⟩)
        (drawOrder thereAndBack) 1 3 :=
    firstFailing_cons_succ.2 ⟨by decide, firstFailing_cons_zero.2 ⟨rfl, by decide⟩⟩
  rcases @spreadFlows_moves_in_draw_order _ Uniform.Supply.below 3 (by decide) thereAndBack 2
    ⟨0, [0, 3000000000, 1500000000]⟩ with ⟨moves, -⟩
  rcases @spreadFlows_moves_in_draw_order _ Uniform.Supply.below 3 (by decide) thereAndBack
    2147483648 ⟨0, [0, 3000000000, 1500000000]⟩ with ⟨-, refuses, -⟩
  rcases @spreadFlows_moves_in_draw_order _ Uniform.Supply.below 1 (by decide) thereAndBack
    2147483648 ⟨0, [0, 3000000000, 1500000000]⟩ with ⟨-, -, -, -, -, keeps⟩
  rcases moves fit with ⟨moved, runs, movesTo⟩
  rcases refuses 1 3 unfit with ⟨offset, stops, offsetEq⟩
  refine ⟨moved, offset, runs, movesTo, ?_, stops, offsetEq,
    keeps (Uniform.Supply.below_lt (by decide)) rfl⟩
  have computed := congrArg Prod.fst runs
  change Except.ok [⟨⟨"0", 0.0⟩, 100, 2, 7⟩, ⟨⟨"1", 1.0⟩, 200, 5, 2⟩] = Except.ok moved at computed
  cases computed
  rfl

end NetRun
