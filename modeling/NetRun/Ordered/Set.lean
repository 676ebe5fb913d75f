import NetRun.Ordered.Map

/-!
# Sets in order

A finite set is kept as the list of its members, strictly ascending.
Membership is the view of a set: inserting adds one member, and the set of a
list has the members of the list.
-/

namespace NetRun.Ordered

variable {κ : Type} [LE κ] [LT κ] [DecidableLT κ] [Std.IsLinearOrder κ]
  [Std.LawfulOrderLT κ]

/-- Put a member in at its place, unless it is there. -/
def insertMember
    (member : κ) :
    List κ → List κ
  | [] => [member]
  | m :: rest =>
    if member < m then member :: m :: rest
    else if m < member then m :: insertMember member rest
    else m :: rest

/-- Inserting adds the one member and no other. -/
theorem mem_insertMember
    {member m : κ}
    {members : List κ} :
    m ∈ insertMember member members ↔ m = member ∨ m ∈ members := by
  induction members with
  | nil => simp [insertMember]
  | cons m' rest ih =>
    unfold insertMember
    split
    · simp
    · rename_i hge
      split
      · simp only [List.mem_cons, ih]
        constructor
        · rintro (h | h | h)
          · exact Or.inr (Or.inl h)
          · exact Or.inl h
          · exact Or.inr (Or.inr h)
        · rintro (h | h | h)
          · exact Or.inr (Or.inl h)
          · exact Or.inl h
          · exact Or.inr (Or.inr h)
      · rename_i hle
        have heq : member = m' := eq_of_not_lt hge hle
        simp [heq]

/-- Inserting keeps the order. -/
theorem pairwise_insertMember
    {members : List κ}
    (h : members.Pairwise (· < ·))
    (member : κ) :
    (insertMember member members).Pairwise (· < ·) := by
  induction members with
  | nil => simp [insertMember]
  | cons m rest ih =>
    have hhead := (List.pairwise_cons.1 h).1
    unfold insertMember
    split
    case isTrue hlt =>
      refine List.pairwise_cons.2 ⟨?_, h⟩
      intro x hx
      rcases List.mem_cons.1 hx with rfl | hx
      · exact hlt
      · exact Std.lt_trans hlt (hhead x hx)
    case isFalse hge =>
      split
      case isTrue hlt =>
        refine List.pairwise_cons.2 ⟨?_, ih h.of_cons⟩
        intro x hx
        rcases mem_insertMember.1 hx with rfl | hx
        · exact hlt
        · exact hhead x hx
      case isFalse hle => exact h

/-- A finite set as its members in ascending order. -/
structure SortedSet (κ : Type) [LT κ] where
  members : List κ
  ascending : members.Pairwise (· < ·)

namespace SortedSet

/-- The set without members. -/
def empty :
    SortedSet κ :=
  ⟨[], List.Pairwise.nil⟩

instance : Inhabited (SortedSet κ) :=
  ⟨empty⟩

instance : Membership κ (SortedSet κ) where
  mem set member := member ∈ set.members

/-- The member is in the set. -/
def contains
    [BEq κ]
    (set : SortedSet κ)
    (member : κ) :
    Bool :=
  set.members.contains member

/-- Put a member in. -/
def insert
    (set : SortedSet κ)
    (member : κ) :
    SortedSet κ :=
  ⟨insertMember member set.members, pairwise_insertMember set.ascending member⟩

/-- The set of the members of a list. -/
def ofList
    (members : List κ) :
    SortedSet κ :=
  members.foldl insert empty

omit [LE κ] [DecidableLT κ] [Std.IsLinearOrder κ] [Std.LawfulOrderLT κ] in
/-- A member is one of the members listed. -/
theorem mem_iff
    {set : SortedSet κ}
    {member : κ} :
    member ∈ set ↔ member ∈ set.members :=
  Iff.rfl

omit [LE κ] [DecidableLT κ] [Std.IsLinearOrder κ] [Std.LawfulOrderLT κ] in
@[simp]
theorem contains_iff
    [BEq κ] [LawfulBEq κ]
    {set : SortedSet κ}
    {member : κ} :
    set.contains member = true ↔ member ∈ set := by
  simp [contains, mem_iff]

@[simp]
theorem mem_insert
    {set : SortedSet κ}
    {member m : κ} :
    m ∈ set.insert member ↔ m = member ∨ m ∈ set :=
  mem_insertMember

/-- Inserting the members of a list one by one adds them all. -/
theorem mem_foldl_insert
    {set : SortedSet κ}
    {members : List κ}
    {m : κ} :
    m ∈ members.foldl insert set ↔ m ∈ set ∨ m ∈ members := by
  induction members generalizing set with
  | nil => simp
  | cons member rest ih =>
    simp only [List.foldl_cons, ih, mem_insert, List.mem_cons]
    constructor
    · rintro ((h | h) | h)
      · exact Or.inr (Or.inl h)
      · exact Or.inl h
      · exact Or.inr (Or.inr h)
    · rintro (h | h | h)
      · exact Or.inl (Or.inr h)
      · exact Or.inl (Or.inl h)
      · exact Or.inr h

@[simp]
theorem mem_ofList
    {members : List κ}
    {m : κ} :
    m ∈ ofList members ↔ m ∈ members := by
  unfold ofList
  rw [mem_foldl_insert]
  simp [mem_iff, empty]

/-- The number of members. -/
def size
    (set : SortedSet κ) :
    Nat :=
  set.members.length

/-- The set has no member. -/
def isEmpty
    (set : SortedSet κ) :
    Bool :=
  set.members.isEmpty

end SortedSet

end NetRun.Ordered
