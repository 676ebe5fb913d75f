import NetRun.Path
import NetRun.Proofs.Store.Changes

/-!
# Files that are written over

Two paths share a file if they lead to one location.  Of files that are written
one after the other, each is read back as it was written unless one of the later
ones shares it.  Names without slashes under one directory share a file only if
they are equal.
-/

namespace NetRun.Store

/-! ## Files that are shared -/

/-- Both paths lead to one location. -/
def Shares
    (store : Store)
    (path other : String) :
    Prop :=
  ∃ location, store.locate path = .ok location ∧ store.locate other = .ok location

/-- A text is read back after a change that is made through no path to its file. -/
theorem ChangedBy.readText_eq_ok
    {files directories : List String}
    {before after : Store}
    {path text : String}
    (changed : ChangedBy files directories before after)
    (unshared : ∀ other ∈ files, ¬ after.Shares other path)
    (reads : before.readText path = .ok text) :
    after.readText path = .ok text := by
  rcases bind_eq_ok_iff.1 reads with ⟨content, readsBytes, isText⟩
  rcases bind_eq_ok_iff.1 readsBytes with ⟨location, leads, shows⟩
  have leadsAfter := changed.grows.locate_eq_ok leads
  have same : after.item? location = before.item? location := by
    rcases changed.changed location with same | ⟨other, listed, otherLeads, -⟩ |
      ⟨-, -, -, missing, -⟩
    · exact same
    · exact absurd ⟨location, otherLeads, leadsAfter⟩ (unshared other listed)
    · rw [missing] at shows
      cases shows
  refine bind_eq_ok_iff.2 ⟨content, bind_eq_ok_iff.2 ⟨location, leadsAfter, ?_⟩, isText⟩
  rw [same]
  exact shows

/-- All files are read back as they were written. -/
def Holds
    (store : Store)
    (files : List (String × String)) :
    Prop :=
  ∀ file ∈ files, store.readText file.1 = .ok file.2

/-- Every file that no later one shares is read back as it was written. -/
def HoldsLast
    (store : Store)
    (files : List (String × String)) :
    Prop :=
  ∀ file later, file :: later <:+ files →
    (∀ other ∈ later, ¬ store.Shares other.1 file.1) → store.readText file.1 = .ok file.2

theorem holdsLast_nil
    (store : Store) :
    store.HoldsLast [] :=
  fun _ _ ends => nomatch List.suffix_nil.1 ends

theorem holdsLast_cons_iff
    {store : Store}
    {file : String × String}
    {files : List (String × String)} :
    store.HoldsLast (file :: files) ↔
      ((∀ other ∈ files, ¬ store.Shares other.1 file.1) →
          store.readText file.1 = .ok file.2) ∧
        store.HoldsLast files := by
  constructor
  · intro holds
    exact ⟨holds file files List.suffix_rfl,
      fun other later ends => holds other later (ends.trans (List.suffix_cons file files))⟩
  · rintro ⟨first, rest⟩ other later ends
    rcases List.suffix_cons_iff.1 ends with same | further
    · cases same
      exact first
    · exact rest other later further

/-- Files of which no two are shared are all read back as they were written. -/
theorem HoldsLast.holds
    {store : Store}
    {files : List (String × String)}
    (last : store.HoldsLast files)
    (unshared : files.Pairwise fun file later => ¬ store.Shares later.1 file.1) :
    store.Holds files := by
  induction files with
  | nil => exact fun _ impossible => nomatch impossible
  | cons file files induction =>
      rcases holdsLast_cons_iff.1 last with ⟨first, rest⟩
      rcases List.pairwise_cons.1 unshared with ⟨firstUnshared, restUnshared⟩
      exact List.forall_mem_cons.2 ⟨first firstUnshared, induction rest restUnshared⟩

/-! ## Names under one directory -/

theorem pieces_ne_nil
    (path : List Char) :
    pieces path ≠ [] := by
  cases path with
  | nil => exact List.cons_ne_nil _ _
  | cons c rest =>
      rw [pieces]
      split
      · exact List.cons_ne_nil _ _
      · split <;> exact List.cons_ne_nil _ _

/-- A slash parts the pieces in front of it from those behind it. -/
theorem pieces_append_slash
    {front back : List Char} :
    pieces (front ++ '/' :: back) = pieces front ++ pieces back := by
  induction front with
  | nil => rfl
  | cons c front induction =>
      rw [List.cons_append, pieces, pieces, induction]
      split
      · rfl
      · cases listed : pieces front with
        | nil => exact absurd listed (pieces_ne_nil front)
        | cons piece others => rfl

theorem pieces_eq_singleton
    {name : List Char}
    (slashless : '/' ∉ name) :
    pieces name = [name] := by
  induction name with
  | nil => rfl
  | cons c name induction =>
      rw [List.mem_cons, not_or] at slashless
      rw [pieces, if_neg (Ne.symm slashless.1), induction slashless.2]

/-- The text names an entry of whatever directory it is looked up in. -/
structure IsEntryName
    (name : String) :
    Prop where
  slashless : '/' ∉ name.toList
  nonempty : name ≠ ""
  notHere : name ≠ "."
  notAbove : name ≠ ".."

/-- A text without slashes is a name as soon as it has a character that is no dot. -/
theorem isEntryName_of_mem
    {name : String}
    {c : Char}
    (slashless : '/' ∉ name.toList)
    (listed : c ∈ name.toList)
    (proper : c ≠ '.') :
    IsEntryName name := by
  refine ⟨slashless, ?_, ?_, ?_⟩
  · rintro rfl
    cases listed
  · rintro rfl
    exact proper (by simpa using listed)
  · rintro rfl
    exact proper (by simpa using listed)

theorem names_eq_singleton
    {name : String}
    (isName : IsEntryName name) :
    names name = [name] := by
  simp [names, pieces_eq_singleton isName.slashless, isName.nonempty]

/-- What stands behind the last slash of a path is its last name. -/
theorem names_eq_append
    {path front name : String}
    (isName : IsEntryName name)
    (spelled : path.toList = front.toList ++ '/' :: name.toList) :
    names path = names front ++ [name] := by
  rw [names, spelled, pieces_append_slash, List.map_append, List.filter_append]
  exact congrArg (names front ++ ·) (names_eq_singleton isName)

/-- The last name of a joined path is the one that was joined. -/
theorem exists_names_join_eq
    {name : String}
    (isName : IsEntryName name)
    (directory : String) :
    ∃ above, names (Path.join directory name) = above ++ [name] := by
  have relative : Path.isAbsolute name = false := by
    rw [Path.isAbsolute, beq_eq_false_iff_ne]
    exact fun absolute => isName.slashless (List.mem_of_mem_head? absolute)
  rw [Path.join, relative, if_neg Bool.false_ne_true]
  split
  case isTrue closed =>
    rw [Bool.or_eq_true, beq_iff_eq] at closed
    rcases closed with empty | slash
    · rw [String.isEmpty_iff.1 empty, String.empty_append]
      exact ⟨[], names_eq_singleton isName⟩
    · rcases List.getLast?_eq_some_iff.1 slash with ⟨front, spelled⟩
      refine ⟨names (String.ofList front), names_eq_append isName ?_⟩
      rw [String.toList_append, spelled, String.toList_ofList, List.append_assoc]
      rfl
  case isFalse =>
    refine ⟨names directory, names_eq_append isName ?_⟩
    rw [String.toList_append, String.toList_append, List.append_assoc]
    rfl

/-- A name that is joined is found under itself. -/
theorem getLast?_of_locate_join
    {store : Store}
    {directory name : String}
    {location : Location}
    (isName : IsEntryName name)
    (leads : store.locate (Path.join directory name) = .ok location) :
    location.getLast? = some name := by
  rcases exists_names_join_eq isName directory with ⟨above, listed⟩
  rcases bind_eq_ok_iff.1 leads with ⟨_, -, follows⟩
  rw [listed, follow_append] at follows
  rcases bind_eq_ok_iff.1 follows with ⟨here, -, steps⟩
  rcases bind_eq_ok_iff.1 steps with ⟨next, step, stays⟩
  cases stays
  rw [Store.step, item?_of_step_eq_ok step] at step
  dsimp only at step
  rw [if_neg isName.notHere, if_neg isName.notAbove] at step
  split at step
  · cases step
  · cases step
    exact List.getLast?_concat

/-- Different names under one directory do not share a file. -/
theorem Shares.eq_of_join
    {store : Store}
    {directory name other : String}
    (isName : IsEntryName name)
    (otherIsName : IsEntryName other)
    (shares : store.Shares (Path.join directory name) (Path.join directory other)) :
    name = other := by
  rcases shares with ⟨location, leads, otherLeads⟩
  have last := getLast?_of_locate_join isName leads
  rw [getLast?_of_locate_join otherIsName otherLeads] at last
  exact (Option.some.inj last).symm

end NetRun.Store
