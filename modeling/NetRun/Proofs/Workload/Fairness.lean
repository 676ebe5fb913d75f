import NetRun.Proofs.Workload.Spreading
import NetRun.Proofs.Workload.Words

/-!
# Replicas are drawn fairly

Each end of a flow takes an accepted word of its own, in the order in which the
ends are moved.  So every way to place the ends of all flows on replicas comes from
equally many lists of accepted words.  Words that are rejected do not matter,
wherever they stand.
-/

namespace NetRun

open NetRun.Uniform

/-! ## Placements -/

/-- The replica of a node with a number. -/
def replicaOf
    (core : UInt32)
    (node : NodeId)
    (index : UInt32) :
    NodeId :=
  UInt32.ofNat (node.toNat + index.toNat * core.toNat)

/-- The flows at the replicas whose numbers a list gives, or at the first ones behind its end. -/
def atReplicas
    (core : UInt32)
    (flows : List Flow)
    (indices : List UInt32) :
    List Flow :=
  flows.mapIdx fun count flow =>
    { flow with
      source := replicaOf core flow.source (indices[2 * count]?.getD 0)
      target := replicaOf core flow.target (indices[2 * count + 1]?.getD 0) }

/-- The number of a replica for every end of the flows. -/
structure IsPlacement
    (fanout : UInt32)
    (flows : List Flow)
    (indices : List UInt32) :
    Prop where
  length_eq : indices.length = 2 * flows.length
  below : ∀ index ∈ indices, index < fanout

/-- One accepted word for every end of the flows. -/
structure IsAccepted
    (fanout : UInt32)
    (flows : List Flow)
    (words : List UInt32) :
    Prop where
  length_eq : words.length = 2 * flows.length
  accepted : ∀ word ∈ words, Accepts fanout word

/--
From accepted words the ends are moved to the replicas with the given numbers.  For
every end its own word is taken, and none is left.
-/
structure Places
    (fanout core : UInt32)
    (flows : List Flow)
    (words indices : List UInt32) :
    Prop where
  accepted : IsAccepted fanout flows words
  drawn :
    ∀ count (index : UInt32), indices[count]? = some index →
      Supply.below fanout (afterDraws (Supply.below fanout) ⟨0, words⟩ count) =
        (index, ⟨count + 1, words.drop (count + 1)⟩)
  runs :
    (spreadFlows Supply.below flows fanout core).run ⟨0, words⟩ =
      (.ok (atReplicas core flows indices), ⟨2 * flows.length, []⟩)

/-- No end leaves 32 bits, even at its last replica. -/
def EndsFit
    (fanout core : UInt32)
    (flows : List Flow) :
    Prop :=
  ∀ node ∈ drawOrder flows, node.toNat + (fanout.toNat - 1) * core.toNat < 4294967296

instance
    (fanout core : UInt32)
    (flows : List Flow) :
    Decidable (EndsFit fanout core flows) :=
  List.decidableBAll _ (drawOrder flows)

variable
    {fanout core : UInt32}
    {flows : List Flow}

/-! ## Draws from accepted words -/

/-- After a count of draws the numbers behind that count are left. -/
theorem numbers_afterDraws
    (supply : Supply)
    (count : Nat) :
    numbers fanout (afterDraws (Supply.below fanout) supply count).words =
      (numbers fanout supply.words).drop count := by
  induction count generalizing supply with
  | zero => rfl
  | succ count induction =>
      rw [afterDraws, Function.iterate_succ_apply, ← afterDraws, induction,
        (Supply.below_numbers supply).2, List.drop_tail]

theorem fst_below_afterDraws
    (supply : Supply)
    (count : Nat) :
    (Supply.below fanout (afterDraws (Supply.below fanout) supply count)).1 =
      (numbers fanout supply.words)[count]?.getD 0 := by
  rw [(Supply.below_numbers _).1, numbers_afterDraws, List.headD_eq_head?_getD, List.head?_drop]

/-- Every draw takes one word if all of them are accepted. -/
theorem afterDraws_of_accepted
    {words : List UInt32}
    (accepted : ∀ word ∈ words, Accepts fanout word)
    (taken : Nat)
    {count : Nat}
    (inside : count ≤ words.length) :
    afterDraws (Supply.below fanout) ⟨taken, words⟩ count = ⟨taken + count, words.drop count⟩ := by
  induction count generalizing taken words with
  | zero => rfl
  | succ count induction =>
      cases words with
      | nil => cases inside
      | cons word words =>
          rcases List.forall_mem_cons.1 accepted with ⟨head, rest⟩
          rcases exists_candidate_iff.2 head with ⟨number, stands⟩
          rw [afterDraws, Function.iterate_succ_apply, ← afterDraws,
            Supply.below_of_accepted stands, induction rest _ (Nat.le_of_succ_le_succ inside),
            List.drop_succ_cons, Nat.add_right_comm, Nat.add_assoc]

/-! ## Runs -/

theorem MovesTo.eq_atReplicas
    {supply : Supply}
    {copies : List Flow}
    (movesTo : MovesTo (Supply.below fanout) core supply flows copies) :
    copies = atReplicas core flows (numbers fanout supply.words) := by
  rw [movesTo.eq_mapIdx]
  simp only [drawnOffset, fst_below_afterDraws]
  rfl

/-- What comes out depends on the numbers of the words only. -/
theorem run_spreadFlows_eq
    (positive : 0 < fanout)
    (fit : EndsFit fanout core flows)
    (supply : Supply) :
    (spreadFlows Supply.below flows fanout core).run supply =
      (.ok (atReplicas core flows (numbers fanout supply.words)),
        afterDraws (Supply.below fanout) supply (2 * flows.length)) := by
  rcases run_mapM_spread_of_holdsAlong
    (moveFits_of_draws_lt (Supply.below_lt positive) fit) with ⟨moved, runs, movesTo⟩
  rw [spreadFlows, if_neg (UInt32.ne_of_lt positive).symm, runs, movesTo.eq_atReplicas]

/-- Accepted words place the ends at the replicas that they stand for. -/
theorem IsAccepted.places
    (positive : 0 < fanout)
    (fit : EndsFit fanout core flows)
    {words : List UInt32}
    (isAccepted : IsAccepted fanout flows words) :
    Places fanout core flows words (numbers fanout words) where
  accepted := isAccepted
  drawn := by
    intro count index stands
    have stand := forall₂_candidate_iff.2 ⟨isAccepted.accepted, rfl⟩
    rcases List.getElem?_eq_some_iff.1 stands with ⟨numberLt, rfl⟩
    have wordLt : count < words.length := by rwa [stand.length_eq]
    rw [afterDraws_of_accepted isAccepted.accepted 0 wordLt.le, List.drop_eq_getElem_cons wordLt,
      Nat.zero_add]
    exact Supply.below_of_accepted (stand.get wordLt numberLt) _ _
  runs := by
    rw [run_spreadFlows_eq positive fit,
      afterDraws_of_accepted isAccepted.accepted 0 isAccepted.length_eq.ge, Nat.zero_add,
      ← isAccepted.length_eq, List.drop_length]

theorem IsAccepted.isPlacement
    (positive : 0 < fanout)
    {words : List UInt32}
    (isAccepted : IsAccepted fanout flows words) :
    IsPlacement fanout flows (numbers fanout words) where
  length_eq := (length_numbers isAccepted.accepted).trans isAccepted.length_eq
  below := numbers_lt positive

/-- The ends tell their replicas by what is drawn for them. -/
theorem Places.numbers_eq
    (positive : 0 < fanout)
    {words indices : List UInt32}
    (places : Places fanout core flows words indices)
    (isPlacement : IsPlacement fanout flows indices) :
    numbers fanout words = indices := by
  have sameLength := (places.accepted.isPlacement positive).length_eq
  rw [← isPlacement.length_eq] at sameLength
  apply List.ext_getElem sameLength
  intro count numberLt indexLt
  have drawn := congrArg Prod.fst (places.drawn count _ (List.getElem?_eq_getElem indexLt))
  rw [fst_below_afterDraws, List.getElem?_eq_getElem numberLt] at drawn
  exact drawn

/-! ## Replicas told apart -/

theorem replicaOf_inj
    (corePos : 0 < core)
    {node : NodeId}
    (fits : node.toNat + (fanout.toNat - 1) * core.toNat < 4294967296)
    {index other : UInt32}
    (indexLt : index < fanout)
    (otherLt : other < fanout)
    (same : replicaOf core node index = replicaOf core node other) :
    index = other := by
  have numbersEq := congrArg UInt32.toNat same
  rw [replicaOf, replicaOf, UInt32.toNat_ofNat_of_lt' (fits_of_lt fits indexLt),
    UInt32.toNat_ofNat_of_lt' (fits_of_lt fits otherLt)] at numbersEq
  exact UInt32.toNat_inj.1
    (Nat.eq_of_mul_eq_mul_right (UInt32.lt_iff_toNat_lt.1 corePos) (Nat.add_left_cancel numbersEq))

/-- If there is a core, the moved flows tell at which replicas they are. -/
theorem atReplicas_inj
    (corePos : 0 < core)
    (fit : EndsFit fanout core flows)
    {indices others : List UInt32}
    (isPlacement : IsPlacement fanout flows indices)
    (otherPlacement : IsPlacement fanout flows others)
    (same : atReplicas core flows indices = atReplicas core flows others) :
    indices = others := by
  apply List.ext_getElem (isPlacement.length_eq.trans otherPlacement.length_eq.symm)
  intro place indexLt otherLt
  have placeLt : place < 2 * flows.length := by rwa [← isPlacement.length_eq]
  have indexBelow := isPlacement.below _ (List.getElem_mem indexLt)
  have otherBelow := otherPlacement.below _ (List.getElem_mem otherLt)
  -- Every place is the source or the target of one flow.
  have atFlow (count : Nat) (countLt : count < flows.length) :
      replicaOf core flows[count].source (indices[2 * count]?.getD 0) =
          replicaOf core flows[count].source (others[2 * count]?.getD 0) ∧
        replicaOf core flows[count].target (indices[2 * count + 1]?.getD 0) =
          replicaOf core flows[count].target (others[2 * count + 1]?.getD 0) := by
    have copies := congrArg (·[count]?) same
    simp only [atReplicas, List.getElem?_mapIdx, List.getElem?_eq_getElem countLt,
      Option.map_some, Option.some.injEq, Flow.mk.injEq, true_and] at copies
    exact copies
  rcases Nat.even_or_odd' place with ⟨count, rfl | rfl⟩
  · have countLt : count < flows.length := by omega
    have copies := (atFlow count countLt).1
    rw [List.getElem?_eq_getElem indexLt, List.getElem?_eq_getElem otherLt] at copies
    refine replicaOf_inj corePos (fit _ ?_) indexBelow otherBelow copies
    exact List.mem_flatMap.2 ⟨_, List.getElem_mem countLt, List.mem_cons_self⟩
  · have countLt : count < flows.length := by omega
    have copies := (atFlow count countLt).2
    rw [List.getElem?_eq_getElem indexLt, List.getElem?_eq_getElem otherLt] at copies
    refine replicaOf_inj corePos (fit _ ?_) indexBelow otherBelow copies
    exact List.mem_flatMap.2
      ⟨_, List.getElem_mem countLt, List.mem_cons_of_mem _ List.mem_cons_self⟩

/-! ## Counts -/

theorem ncard_isPlacement :
    {indices | IsPlacement fanout flows indices}.ncard = fanout.toNat ^ (2 * flows.length) := by
  rw [← ncard_forall_lt]
  apply congrArg Set.ncard
  ext indices
  exact ⟨fun ⟨lengthEq, below⟩ => ⟨lengthEq, below⟩, fun ⟨lengthEq, below⟩ => ⟨lengthEq, below⟩⟩

theorem ncard_isAccepted_numbers_eq
    (positive : 0 < fanout)
    {indices : List UInt32}
    (isPlacement : IsPlacement fanout flows indices) :
    {words | IsAccepted fanout flows words ∧ numbers fanout words = indices}.ncard =
      2 ^ (leadingZeros fanout * (2 * flows.length)) := by
  rw [← isPlacement.length_eq, ← ncard_numbers_eq positive isPlacement.below]
  apply congrArg Set.ncard
  ext words
  constructor
  · rintro ⟨⟨-, accepted⟩, rfl⟩
    exact ⟨accepted, rfl⟩
  · rintro ⟨accepted, rfl⟩
    exact ⟨⟨(length_numbers accepted).symm.trans isPlacement.length_eq, accepted⟩, rfl⟩

/--
There are as many placements of the ends of the flows on replicas as choices of one
replica for every end.  Accepted words, one for every end, place the ends in exactly
one way, and every placement comes from equally many lists of accepted words; if there
is a core, it is told by the moved flows.  Words that are rejected do not change what
comes out, wherever they stand.
-/
theorem replicas_are_drawn_uniformly
    {fanout core : UInt32}
    {flows : List Flow}
    (positive : 0 < fanout)
    (fit : EndsFit fanout core flows) :
    {indices | IsPlacement fanout flows indices}.ncard = fanout.toNat ^ (2 * flows.length) ∧
      (∀ words, IsAccepted fanout flows words →
        ∃! indices,
          IsPlacement fanout flows indices ∧ Places fanout core flows words indices) ∧
      (∀ indices, IsPlacement fanout flows indices →
        {words | Places fanout core flows words indices}.ncard =
          2 ^ (leadingZeros fanout * (2 * flows.length))) ∧
      (0 < core → ∀ indices, IsPlacement fanout flows indices →
        {words |
            IsAccepted fanout flows words ∧
              ((spreadFlows Supply.below flows fanout core).run ⟨0, words⟩).1 =
                .ok (atReplicas core flows indices)}.ncard =
          2 ^ (leadingZeros fanout * (2 * flows.length))) ∧
      (∀ words more : List UInt32,
        more.filter (Accepts fanout) = words.filter (Accepts fanout) →
          ((spreadFlows Supply.below flows fanout core).run ⟨0, more⟩).1 =
            ((spreadFlows Supply.below flows fanout core).run ⟨0, words⟩).1) := by
  refine ⟨ncard_isPlacement, ?_, ?_, ?_, ?_⟩
  · intro words isAccepted
    refine ⟨numbers fanout words,
      ⟨isAccepted.isPlacement positive, isAccepted.places positive fit⟩, ?_⟩
    rintro indices ⟨isPlacement, places⟩
    exact (places.numbers_eq positive isPlacement).symm
  · intro indices isPlacement
    rw [← ncard_isAccepted_numbers_eq positive isPlacement]
    apply congrArg Set.ncard
    ext words
    constructor
    · intro places
      exact ⟨places.accepted, places.numbers_eq positive isPlacement⟩
    · rintro ⟨isAccepted, rfl⟩
      exact isAccepted.places positive fit
  · intro corePos indices isPlacement
    rw [← ncard_isAccepted_numbers_eq positive isPlacement]
    apply congrArg Set.ncard
    ext words
    refine and_congr_right fun isAccepted => ?_
    rw [run_spreadFlows_eq positive fit]
    constructor
    · intro same
      exact atReplicas_inj corePos fit (isAccepted.isPlacement positive) isPlacement
        (Except.ok.inj same)
    · rintro rfl
      rfl
  · intro words more sameAccepted
    rw [run_spreadFlows_eq positive fit, run_spreadFlows_eq positive fit, ← numbers_filter more,
      sameAccepted, numbers_filter]

theorem thereAndBack_drawn_uniformly :
    EndsFit 3 2 thereAndBack ∧
      {indices | IsPlacement 3 thereAndBack indices}.ncard = 81 ∧
        {words | Places 3 2 thereAndBack words [0, 2, 1, 0]}.ncard = 2 ^ 120 ∧
          {words |
              IsAccepted 3 thereAndBack words ∧
                ((spreadFlows Supply.below thereAndBack 3 2).run ⟨0, words⟩).1 =
                  .ok [⟨⟨"0", 0.0⟩, 100, 2, 7⟩, ⟨⟨"1", 1.0⟩, 200, 5, 2⟩]}.ncard = 2 ^ 120 ∧
            ((spreadFlows Supply.below thereAndBack 3 2).run
                ⟨0, [1431655765, 0, 3000000000, 1431655765, 2863311530, 1500000000, 0]⟩).1 =
              ((spreadFlows Supply.below thereAndBack 3 2).run
                ⟨0, [0, 3000000000, 1500000000, 0]⟩).1 := by
  have fit : EndsFit 3 2 thereAndBack := by decide
  have isPlacement : IsPlacement 3 thereAndBack [0, 2, 1, 0] := ⟨rfl, by simp⟩
  rcases replicas_are_drawn_uniformly (by decide) fit with ⟨count, -, placed, told, skipped⟩
  refine ⟨fit, count, placed _ isPlacement, ?_, skipped _ _ (by decide)⟩
  exact told (by decide) [0, 2, 1, 0] isPlacement

end NetRun
