import NetRun.Proofs.Completion.Reduction
import NetRun.Proofs.Ordered.Last

/-!
# Rows and their partners

The partner of a row in the other table is the last row there with its key.  A
table is reduced, row by row, if every row has a partner and an average other than
zero.  Otherwise it is refused for its first row that lacks one of the two, and a
partner that is missing is told first.  So all that counts of the other table is
the order of its rows under each single key of the first.
-/

namespace NetRun.Reduction

open NetRun.Ordered

/-! ## One row -/

/-- The row has a partner, and its average can be divided by. -/
structure IsReducible
    (alternative : List AverageRow)
    (row : AverageRow) :
    Prop where
  paired : ∃ partner ∈ alternative, partner.key = row.key
  nonzero : (row.average == 0.0) = false

/-- What stands in the way of a row: that it has no partner, or else that its average is zero. -/
inductive Obstacle
    (alternative : List AverageRow)
    (row : AverageRow) :
    ReductionError → Prop where
  | missing :
      (∀ other ∈ alternative, other.key ≠ row.key) →
        Obstacle alternative row (.missingKey row.key)
  | zero :
      (∃ partner ∈ alternative, partner.key = row.key) → (row.average == 0.0) = true →
        Obstacle alternative row (.zeroBaseline row.key)

/-- The row is reduced by the last row of the other table with its key. -/
inductive IsReducedTo
    (alternative : List AverageRow)
    (row : AverageRow) :
    Reduction → Prop where
  | byLast (partner : AverageRow) :
      LastWith (fun other => other.key = row.key) alternative partner →
        (row.average == 0.0) = false →
          IsReducedTo alternative row
            ⟨row.key, row.average, partner.average,
              (row.average - partner.average) * 100.0 / row.average⟩

section Rows

variable
    {alternative : List AverageRow}
    {row : AverageRow}

theorem lastAverage?_eq_getLast?
    (alternative : List AverageRow)
    (key : String) :
    lastAverage? alternative key =
      (alternative.filter fun row => row.key == key).getLast?.map AverageRow.average := by
  rw [lastAverage?, List.getLast?_filter]

theorem lastAverage?_eq_some_iff
    {key : String}
    {average : Float} :
    lastAverage? alternative key = some average ↔
      ∃ partner, LastWith (fun row => row.key = key) alternative partner ∧
        partner.average = average := by
  rw [lastAverage?_eq_getLast?, Option.map_eq_some_iff]
  simp only [getLast?_filter_eq_some_iff fun _ => beq_iff_eq]

theorem lastAverage?_eq_none_iff
    {key : String} :
    lastAverage? alternative key = none ↔ ∀ row ∈ alternative, row.key ≠ key := by
  rw [lastAverage?_eq_getLast?, Option.map_eq_none_iff, List.getLast?_eq_none_iff,
    List.filter_eq_nil_iff]
  simp only [beq_iff_eq, ne_eq]

theorem exists_partner_iff :
    (∃ partner ∈ alternative, partner.key = row.key) ↔
      ∃ average, lastAverage? alternative row.key = some average := by
  rw [← Option.isSome_iff_exists, ← Option.ne_none_iff_isSome, ne_eq, lastAverage?_eq_none_iff]
  simp only [ne_eq, not_forall, exists_prop, not_not]

theorem ofRow_eq_ok_iff
    {reduction : Reduction} :
    ofRow alternative row = .ok reduction ↔ IsReducedTo alternative row reduction := by
  constructor
  · intro reduced
    cases found : lastAverage? alternative row.key with
    | none =>
        rw [ofRow, found] at reduced
        cases reduced
    | some average =>
        rw [ofRow_of_found found] at reduced
        rcases lastAverage?_eq_some_iff.1 found with ⟨partner, isLast, rfl⟩
        split at reduced
        case isTrue => cases reduced
        case isFalse nonzero =>
          cases reduced
          exact .byLast partner isLast (Bool.eq_false_iff.2 nonzero)
  · rintro ⟨partner, isLast, nonzero⟩
    rw [ofRow_of_found (lastAverage?_eq_some_iff.2 ⟨_, isLast, rfl⟩), nonzero]
    rfl

theorem ofRow_eq_error_iff
    {cause : ReductionError} :
    ofRow alternative row = .error cause ↔ Obstacle alternative row cause := by
  constructor
  · intro refused
    cases found : lastAverage? alternative row.key with
    | none =>
        rw [ofRow, found] at refused
        cases refused
        exact .missing (lastAverage?_eq_none_iff.1 found)
    | some average =>
        rw [ofRow_of_found found] at refused
        split at refused
        case isTrue zero =>
          cases refused
          exact .zero (exists_partner_iff.2 ⟨average, found⟩) zero
        case isFalse => cases refused
  · rintro (missing | ⟨paired, zero⟩)
    · rw [ofRow, lastAverage?_eq_none_iff.2 missing]
    · rcases exists_partner_iff.1 paired with ⟨average, found⟩
      rw [ofRow_of_found found, if_pos zero]

theorem exists_ofRow_eq_ok_iff :
    (∃ reduction, ofRow alternative row = .ok reduction) ↔ IsReducible alternative row := by
  constructor
  · rintro ⟨reduction, reduced⟩
    rcases ofRow_eq_ok_iff.1 reduced with ⟨partner, isLast, nonzero⟩
    exact ⟨exists_partner_iff.2 ⟨_, lastAverage?_eq_some_iff.2 ⟨_, isLast, rfl⟩⟩, nonzero⟩
  · rintro ⟨paired, nonzero⟩
    rcases exists_partner_iff.1 paired with ⟨average, found⟩
    rw [ofRow_of_found found, nonzero]
    exact ⟨_, rfl⟩

end Rows

/-! ## Tables that count for the same -/

/--
Two tables of which each can be made from the other by exchanging neighbours with
different keys and by adding or leaving out rows that have none of the keys.
-/
inductive AlikeUnder
    (keys : List String) :
    List AverageRow → List AverageRow → Prop where
  | refl (table : List AverageRow) :
      AlikeUnder keys table table
  | cons (row : AverageRow) {table other : List AverageRow} :
      AlikeUnder keys table other → AlikeUnder keys (row :: table) (row :: other)
  | exchange (row other : AverageRow) (table : List AverageRow) :
      row.key ≠ other.key → AlikeUnder keys (row :: other :: table) (other :: row :: table)
  | extra (row : AverageRow) (table : List AverageRow) :
      row.key ∉ keys → AlikeUnder keys (row :: table) table
  | symm {table other : List AverageRow} :
      AlikeUnder keys table other → AlikeUnder keys other table
  | trans {table other more : List AverageRow} :
      AlikeUnder keys table other → AlikeUnder keys other more → AlikeUnder keys table more

/-- Under each of the keys, tables that are alike have the same rows in the same order. -/
theorem AlikeUnder.filter_eq
    {keys : List String}
    {table other : List AverageRow}
    (alike : AlikeUnder keys table other)
    {key : String}
    (isKey : key ∈ keys) :
    (table.filter fun row => row.key == key) = other.filter fun row => row.key == key := by
  induction alike with
  | refl table => rfl
  | cons row alike induction => rw [List.filter_cons, List.filter_cons, induction]
  | exchange row other table apart =>
      simp only [List.filter_cons]
      by_cases keyed : (row.key == key) = true
      · have otherKeyed : ¬ (other.key == key) = true := fun same =>
          apart ((beq_iff_eq.1 keyed).trans (beq_iff_eq.1 same).symm)
        rw [if_pos keyed, if_neg otherKeyed, if_neg otherKeyed, if_pos keyed]
      · rw [if_neg keyed, if_neg keyed]
  | extra row table foreign =>
      have unkeyed : ¬ (row.key == key) = true := fun same =>
        foreign (beq_iff_eq.1 same ▸ isKey)
      rw [List.filter_cons, if_neg unkeyed]
  | symm alike induction => exact induction.symm
  | trans alike further induction inductionFurther => exact induction.trans inductionFurther

/-- Tables that are alike under the keys of a table reduce it alike. -/
theorem AlikeUnder.ofTables_eq
    {regular alternative other : List AverageRow}
    (alike : AlikeUnder (regular.map AverageRow.key) alternative other) :
    ofTables regular other = ofTables regular alternative := by
  rw [ofTables, ofTables]
  apply mapM_congr
  intro row listed
  have same : lastAverage? other row.key = lastAverage? alternative row.key := by
    rw [lastAverage?_eq_getLast?, lastAverage?_eq_getLast?,
      alike.filter_eq (List.mem_map_of_mem listed)]
  rw [ofRow, ofRow, same]

/-! ## The rule -/

/--
A table is reduced exactly if each of its rows has a partner and an average other
than zero.  There is one reduction for each row, in their order, with the key and
the average of the row and the average of the last row of the other table with this
key.  Otherwise nothing is reduced, and the first row that is not reducible is
told, for its missing partner rather than for its average.  Exchanging rows of the
other table that have different keys and adding rows to it whose keys the first
one lacks changes nothing.
-/
theorem ofTables_takes_last_partners
    (regular alternative : List AverageRow) :
    ((∃ reductions, ofTables regular alternative = .ok reductions) ↔
        ∀ row ∈ regular, IsReducible alternative row) ∧
      (∀ reductions,
        ofTables regular alternative = .ok reductions ↔
          List.Forall₂ (IsReducedTo alternative) regular reductions) ∧
      (∀ cause,
        ofTables regular alternative = .error cause ↔
          ∃ before row behind,
            regular = before ++ row :: behind ∧
              (∀ earlier ∈ before, IsReducible alternative earlier) ∧
                Obstacle alternative row cause) ∧
      ∀ other,
        AlikeUnder (regular.map AverageRow.key) alternative other →
          ofTables regular other = ofTables regular alternative := by
  refine ⟨?_, ?_, ?_, ?_⟩
  · rw [ofTables, exists_mapM_eq_ok_iff]
    simp only [exists_ofRow_eq_ok_iff]
  · intro reductions
    exact mapM_eq_ok_iff_forall₂ fun row reduction => ofRow_eq_ok_iff
  · intro cause
    rw [ofTables, mapM_eq_error_iff]
    simp only [exists_ofRow_eq_ok_iff, ofRow_eq_error_iff]
  · intro other alike
    exact alike.ofTables_eq

/-- A key that stands in the table twice. -/
def keyTwice :
    List AverageRow :=
  [⟨"100", 1.5⟩, ⟨"300", 1.0⟩, ⟨"100", 0.5⟩]

/-- The same rows under each key, and a row with another key among them. -/
def keyTwiceElsewhere :
    List AverageRow :=
  [⟨"300", 1.0⟩, ⟨"100", 1.5⟩, ⟨"700", 9.0⟩, ⟨"100", 0.5⟩]

theorem keyTwice_takes_last_partners :
    ∃ reductions,
      ofTables [⟨"300", 4.0⟩, ⟨"100", 2.0⟩] keyTwice = .ok reductions ∧
        (reductions.map fun reduction => (reduction.key, reduction.alternative)) =
            [("300", 1.0), ("100", 0.5)] ∧
          ofTables [⟨"300", 4.0⟩, ⟨"100", 2.0⟩] keyTwiceElsewhere = .ok reductions ∧
            ofTables [⟨"300", 4.0⟩, ⟨"500", 0.0⟩, ⟨"100", 0.0⟩] keyTwice =
                .error (.missingKey "500") ∧
              ofTables [⟨"100", -0.0⟩, ⟨"500", 2.0⟩] keyTwice = .error (.zeroBaseline "100") := by
  rcases ofTables_takes_last_partners [⟨"300", 4.0⟩, ⟨"100", 2.0⟩] keyTwice with
    ⟨-, reduces, -, alike⟩
  have others : AlikeUnder ["300", "100"] keyTwice keyTwiceElsewhere := by
    refine .trans (.exchange ⟨"100", 1.5⟩ ⟨"300", 1.0⟩ _ (by decide)) (.cons _ (.cons _ ?_))
    exact .symm (.extra ⟨"700", 9.0⟩ _ (by decide))
  have reduced :
      List.Forall₂ (IsReducedTo keyTwice) [⟨"300", 4.0⟩, ⟨"100", 2.0⟩] _ :=
    .cons
      (.byLast ⟨"300", 1.0⟩ (.intro [_] [_] rfl (by decide)) (by decide +kernel))
      (.cons (.byLast ⟨"100", 0.5⟩ (.intro [_, _] [] rfl (by decide)) (by decide +kernel)) .nil)
  have succeeds := (reduces _).2 reduced
  refine ⟨_, succeeds, rfl, (alike _ others).trans succeeds, ?_, ?_⟩
  · refine ((ofTables_takes_last_partners _ _).2.2.1 _).2
      ⟨[⟨"300", 4.0⟩], ⟨"500", 0.0⟩, _, rfl, ?_, .missing (by decide)⟩
    exact List.forall_mem_singleton.2
      ⟨⟨⟨"300", 1.0⟩, by decide, rfl⟩, by decide +kernel⟩
  · refine ((ofTables_takes_last_partners _ _).2.2.1 _).2
      ⟨[], ⟨"100", -0.0⟩, _, rfl, fun _ listed => absurd listed List.not_mem_nil, ?_⟩
    exact .zero ⟨⟨"100", 1.5⟩, by decide, rfl⟩ (by decide +kernel)

end NetRun.Reduction
