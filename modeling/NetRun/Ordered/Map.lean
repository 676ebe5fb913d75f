/-!
# Maps in key order

A finite map is kept as the list of its entries, the keys strictly ascending.
The order is part of the type, so walking a map shows its keys in ascending
order and two maps with the same entries are equal.

`get?` is the view of a map: a change under a key shows there and nowhere
else.
-/

namespace NetRun.Ordered

/-- Of two keys neither of which is smaller, each is the other. -/
theorem eq_of_not_lt
    {κ : Type}
    [LE κ] [LT κ] [Std.IsLinearOrder κ] [Std.LawfulOrderLT κ]
    {a b : κ}
    (hab : ¬ a < b)
    (hba : ¬ b < a) :
    a = b :=
  Std.le_antisymm (Std.not_lt.1 hba) (Std.not_lt.1 hab)

variable {κ β : Type} [LT κ]

/-- Entries whose keys strictly ascend. -/
def Ascending
    (entries : List (κ × β)) :
    Prop :=
  entries.Pairwise fun a b => a.1 < b.1

variable [DecidableLT κ]

/-- Replace the value under a key, or put one in at its place. -/
def upsertEntry
    (key : κ)
    (f : Option β → β) :
    List (κ × β) → List (κ × β)
  | [] => [(key, f none)]
  | (k, value) :: rest =>
    if key < k then (key, f none) :: (k, value) :: rest
    else if k < key then (k, value) :: upsertEntry key f rest
    else (k, f (some value)) :: rest

/-- A change under a key brings in no key but that one. -/
theorem fst_mem_upsertEntry
    {key k : κ}
    {f : Option β → β}
    {entries : List (κ × β)}
    (h : k ∈ (upsertEntry key f entries).map Prod.fst) :
    k = key ∨ k ∈ entries.map Prod.fst := by
  induction entries with
  | nil => simpa [upsertEntry] using h
  | cons entry rest ih =>
    obtain ⟨k', value⟩ := entry
    unfold upsertEntry at h
    split at h
    · simpa using h
    · split at h
      · simp only [List.map_cons, List.mem_cons] at h ⊢
        rcases h with rfl | h
        · exact Or.inr (Or.inl rfl)
        · exact (ih h).imp_right Or.inr
      · exact Or.inr (by simpa using h)

/-- Two keys of which neither is smaller are one key. -/
def sameKey
    (a b : κ) :
    Bool :=
  !(decide (a < b) || decide (b < a))

/-- The value of the first entry under a key. -/
def lookupEntry
    (key : κ)
    (entries : List (κ × β)) :
    Option β :=
  (entries.find? fun entry => sameKey entry.1 key).map Prod.snd

@[simp]
theorem lookupEntry_nil
    {key : κ} :
    lookupEntry key ([] : List (κ × β)) = none :=
  rfl

/-- The first entry decides whether its key is the one looked for. -/
theorem lookupEntry_cons
    {key k : κ}
    {value : β}
    {entries : List (κ × β)} :
    lookupEntry key ((k, value) :: entries) =
      if sameKey k key then some value else lookupEntry key entries := by
  unfold lookupEntry
  rw [List.find?_cons]
  cases sameKey k key <;> rfl

variable [LE κ] [Std.IsLinearOrder κ] [Std.LawfulOrderLT κ]

/-- A change under a key keeps the order. -/
theorem Ascending.upsertEntry
    {entries : List (κ × β)}
    (h : Ascending entries)
    (key : κ)
    (f : Option β → β) :
    Ascending (upsertEntry key f entries) := by
  induction entries with
  | nil => simp [NetRun.Ordered.upsertEntry, Ascending]
  | cons entry rest ih =>
    obtain ⟨k, value⟩ := entry
    have hrest : Ascending rest := h.of_cons
    have hhead : ∀ e ∈ rest, k < e.1 := (List.pairwise_cons.1 h).1
    unfold NetRun.Ordered.upsertEntry
    split
    case isTrue hlt =>
      refine List.pairwise_cons.2 ⟨?_, h⟩
      intro e he
      rcases List.mem_cons.1 he with rfl | he
      · exact hlt
      · exact Std.lt_trans hlt (hhead e he)
    case isFalse hge =>
      split
      case isTrue hlt =>
        refine List.pairwise_cons.2 ⟨?_, ih hrest⟩
        intro e he
        have hkey := fst_mem_upsertEntry (List.mem_map_of_mem (f := Prod.fst) he)
        rcases hkey with heq | hmem
        · simpa [heq] using hlt
        · obtain ⟨e', he', heq⟩ := List.mem_map.1 hmem
          simpa [heq] using hhead e' he'
      case isFalse hle => exact List.pairwise_cons.2 ⟨hhead, hrest⟩

/-- Keys of which neither is smaller are equal. -/
theorem sameKey_iff
    {a b : κ} :
    sameKey a b = true ↔ a = b := by
  constructor
  · intro h
    simp only [sameKey, Bool.not_eq_true', Bool.or_eq_false_iff, decide_eq_false_iff_not] at h
    exact eq_of_not_lt h.1 h.2
  · rintro rfl
    simp [sameKey, Std.lt_irrefl]

/-- A key that is smaller than all others is not among them. -/
theorem lookupEntry_eq_none
    {key : κ}
    {entries : List (κ × β)}
    (h : ∀ entry ∈ entries, key < entry.1) :
    lookupEntry key entries = none := by
  unfold lookupEntry
  rw [Option.map_eq_none_iff, List.find?_eq_none]
  intro entry hentry hsame
  rw [sameKey_iff] at hsame
  exact Std.lt_irrefl (hsame ▸ h entry hentry)

/-- In ascending entries a key is looked up at the one place where it stands. -/
theorem lookupEntry_eq_some_iff
    {key : κ}
    {value : β}
    {entries : List (κ × β)}
    (h : Ascending entries) :
    lookupEntry key entries = some value ↔ (key, value) ∈ entries := by
  induction entries with
  | nil => simp
  | cons entry rest ih =>
    obtain ⟨k, other⟩ := entry
    have hhead : ∀ e ∈ rest, k < e.1 := (List.pairwise_cons.1 h).1
    rw [lookupEntry_cons, List.mem_cons]
    by_cases hkey : k = key
    · subst hkey
      have hfresh : (k, value) ∉ rest := fun hmem => Std.lt_irrefl (hhead _ hmem)
      simp [sameKey_iff.2, hfresh, eq_comm]
    · have hsame : sameKey k key = false := by
        rw [Bool.eq_false_iff]
        exact fun hsame => hkey (sameKey_iff.1 hsame)
      simp [hsame, ih h.of_cons, Ne.symm hkey]

/-- Behind a change stands what it makes of the value before it. -/
theorem lookupEntry_upsertEntry_self
    {key : κ}
    {f : Option β → β}
    {entries : List (κ × β)}
    (h : Ascending entries) :
    lookupEntry key (upsertEntry key f entries) = some (f (lookupEntry key entries)) := by
  have hkey : sameKey key key = true := sameKey_iff.2 rfl
  induction entries with
  | nil => simp [upsertEntry, lookupEntry_cons, hkey]
  | cons entry rest ih =>
    obtain ⟨k, value⟩ := entry
    have hhead : ∀ e ∈ rest, k < e.1 := (List.pairwise_cons.1 h).1
    unfold upsertEntry
    split
    case isTrue hlt =>
      have hnone : lookupEntry key ((k, value) :: rest) = none := by
        apply lookupEntry_eq_none
        intro e he
        rcases List.mem_cons.1 he with rfl | he
        · exact hlt
        · exact Std.lt_trans hlt (hhead e he)
      simp [lookupEntry_cons, hkey, ← hnone]
    case isFalse hge =>
      split
      case isTrue hlt =>
        have hne : sameKey k key = false := by
          simp [sameKey, hlt]
        simp [lookupEntry_cons, hne, ih h.of_cons]
      case isFalse hle =>
        have hsame : sameKey k key = true := by
          simp [sameKey, hge, hle]
        simp [lookupEntry_cons, hsame]

/-- A change under a key leaves the values under all others. -/
theorem lookupEntry_upsertEntry_of_ne
    {key k : κ}
    {f : Option β → β}
    {entries : List (κ × β)}
    (h : k ≠ key) :
    lookupEntry k (upsertEntry key f entries) = lookupEntry k entries := by
  have hkey : sameKey key k = false := by
    rw [Bool.eq_false_iff]
    exact fun hsame => h (sameKey_iff.1 hsame).symm
  induction entries with
  | nil => simp [upsertEntry, lookupEntry_cons, hkey]
  | cons entry rest ih =>
    obtain ⟨k', value⟩ := entry
    unfold upsertEntry
    split
    · simp [lookupEntry_cons, hkey]
    · split
      · simp [lookupEntry_cons, ih]
      · rename_i hge hle
        have hsame : k' = key := (eq_of_not_lt hge hle).symm
        subst hsame
        simp [lookupEntry_cons, hkey]

/-- A finite map as its entries in ascending key order. -/
structure SortedMap (κ β : Type) [LT κ] where
  entries : List (κ × β)
  ascending : Ascending entries

namespace SortedMap

/-- The map without entries. -/
def empty :
    SortedMap κ β :=
  ⟨[], List.Pairwise.nil⟩

instance : Inhabited (SortedMap κ β) :=
  ⟨empty⟩

/-- The value under a key, if there is one. -/
def get?
    (map : SortedMap κ β)
    (key : κ) :
    Option β :=
  lookupEntry key map.entries

/-- Replace the value under a key, or put one in. -/
def upsert
    (map : SortedMap κ β)
    (key : κ)
    (f : Option β → β) :
    SortedMap κ β :=
  ⟨upsertEntry key f map.entries, map.ascending.upsertEntry key f⟩

/-- The entries of a map are the keys with the values under them. -/
theorem mem_entries_iff
    {map : SortedMap κ β}
    {key : κ}
    {value : β} :
    (key, value) ∈ map.entries ↔ map.get? key = some value :=
  (lookupEntry_eq_some_iff map.ascending).symm

/-- After a change, its key has what the change makes of the value before it. -/
@[simp]
theorem get?_upsert_self
    {map : SortedMap κ β}
    {key : κ}
    {f : Option β → β} :
    (map.upsert key f).get? key = some (f (map.get? key)) :=
  lookupEntry_upsertEntry_self map.ascending

/-- A change leaves the values under all other keys. -/
theorem get?_upsert_of_ne
    {map : SortedMap κ β}
    {key k : κ}
    {f : Option β → β}
    (h : k ≠ key) :
    (map.upsert key f).get? k = map.get? k :=
  lookupEntry_upsertEntry_of_ne h

/-- Put a value under a key, in place of the one that may be there. -/
def insert
    (map : SortedMap κ β)
    (key : κ)
    (value : β) :
    SortedMap κ β :=
  map.upsert key fun _ => value

/-- The map with one more value at the end of the list under a key. -/
def append
    (map : SortedMap κ (List β))
    (key : κ)
    (value : β) :
    SortedMap κ (List β) :=
  map.upsert key fun values => values.getD [] ++ [value]

/-- The map of a list of entries; of several under one key the last stays. -/
def ofList
    (entries : List (κ × β)) :
    SortedMap κ β :=
  entries.foldl (fun map entry => map.insert entry.1 entry.2) empty

/-- The keys in ascending order. -/
def keys
    (map : SortedMap κ β) :
    List κ :=
  map.entries.map Prod.fst

/-- The number of keys. -/
def size
    (map : SortedMap κ β) :
    Nat :=
  map.entries.length

end SortedMap

end NetRun.Ordered
