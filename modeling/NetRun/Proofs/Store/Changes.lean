import NetRun.Proofs.Traversal
import NetRun.Store.Reading

/-!
# What writing changes in a store

Writing a file changes the one location that its path leads to, and making
directories adds directories that were missing on the way.  Directories stay
where they are, so a path that leads somewhere leads there ever after, and
changes that are made one after the other add up.
-/

namespace NetRun.Store

/-! ## Paths in a store that grows -/

/-- Every directory of the one store is one of the other. -/
def Grows
    (before after : Store) :
    Prop :=
  ∀ location, before.item? location = some .directory → after.item? location = some .directory

theorem Grows.refl
    (store : Store) :
    Grows store store :=
  fun _ isDirectory => isDirectory

theorem Grows.trans
    {before between after : Store}
    (first : Grows before between)
    (second : Grows between after) :
    Grows before after :=
  fun location isDirectory => second location (first location isDirectory)

/-- Putting an item where no directory is keeps all directories. -/
theorem grows_put
    {store : Store}
    {location : Location}
    (free : store.item? location ≠ some .directory)
    (item : Item) :
    Grows store (store.put location item) := by
  intro other isDirectory
  have apart : other ≠ location := by
    rintro rfl
    exact free isDirectory
  rw [item?_put (isStanding_eq_false free), if_neg apart]
  exact isDirectory

theorem Grows.step_eq_ok
    {before after : Store}
    (grows : Grows before after)
    {here next : Location}
    {name : String}
    (steps : before.step here name = .ok next) :
    after.step here name = .ok next := by
  have isDirectory := item?_of_step_eq_ok steps
  rw [step, isDirectory] at steps
  rw [step, grows here isDirectory]
  exact steps

/-- A path leads where it led before. -/
theorem Grows.follow_eq_ok
    {before after : Store}
    (grows : Grows before after)
    {here goal : Location}
    {names : List String}
    (leads : before.follow here names = .ok goal) :
    after.follow here names = .ok goal := by
  induction names generalizing here with
  | nil => exact leads
  | cons name rest induction =>
      rcases bind_eq_ok_iff.1 leads with ⟨next, steps, restLeads⟩
      exact bind_eq_ok_iff.2 ⟨next, grows.step_eq_ok steps, induction restLeads⟩

theorem Grows.locate_eq_ok
    {before after : Store}
    (grows : Grows before after)
    {path : String}
    {goal : Location}
    (leads : before.locate path = .ok goal) :
    after.locate path = .ok goal := by
  rcases bind_eq_ok_iff.1 leads with ⟨_, checked, follows⟩
  exact bind_eq_ok_iff.2 ⟨(), checked, grows.follow_eq_ok follows⟩

theorem follow_append
    {store : Store}
    {here : Location}
    {first second : List String} :
    store.follow here (first ++ second) =
      store.follow here first >>= fun next => store.follow next second := by
  induction first generalizing here with
  | nil => rfl
  | cons name first induction =>
      rw [List.cons_append, follow, follow, bind_assoc]
      exact congrArg _ (funext fun next => induction)

theorem eq_of_follow_dot
    {store : Store}
    {here next : Location}
    (leads : store.follow here ["."] = .ok next) :
    next = here := by
  rcases bind_eq_ok_iff.1 leads with ⟨location, steps, stays⟩
  rw [step, item?_of_step_eq_ok steps] at steps
  cases steps
  cases stays
  rfl

/-! ## Changes -/

/-- The names of a path that are more than a dot. -/
def properNames
    (names : List String) :
    List String :=
  names.filter (· ≠ ".")

/-- The location lies on the way along a path or at its end. -/
def LeadsThrough
    (store : Store)
    (path : String)
    (location : Location) :
    Prop :=
  ∃ way, properNames way <+: properNames (names path) ∧
    store.follow (start path) way = .ok location

/--
A store has changed at most where one of some paths leads to a file that is
there now, and where a directory was missing on the way along another.  All
directories are still there.
-/
structure ChangedBy
    (files directories : List String)
    (before after : Store) :
    Prop where
  grows : Grows before after
  changed :
    ∀ location,
      after.item? location = before.item? location ∨
        (∃ path ∈ files, after.locate path = .ok location ∧
          ∃ content, after.item? location = some (.file content)) ∨
        ∃ path ∈ directories, after.LeadsThrough path location ∧
          before.item? location = none ∧ after.item? location = some .directory

section Changes

variable
    {files directories : List String}

theorem ChangedBy.refl
    (store : Store) :
    ChangedBy files directories store store :=
  ⟨Grows.refl store, fun _ => Or.inl rfl⟩

theorem Grows.leadsThrough
    {before after : Store}
    (grows : Grows before after)
    {path : String}
    {location : Location}
    (leads : before.LeadsThrough path location) :
    after.LeadsThrough path location := by
  rcases leads with ⟨way, along, follows⟩
  exact ⟨way, along, grows.follow_eq_ok follows⟩

/-- Changes that are made one after the other add up. -/
theorem ChangedBy.trans
    {before between after : Store}
    (first : ChangedBy files directories before between)
    (second : ChangedBy files directories between after) :
    ChangedBy files directories before after := by
  refine ⟨first.grows.trans second.grows, ?_⟩
  intro location
  rcases second.changed location with same | written | ⟨path, listed, leads, missing, made⟩
  · -- What the second change leaves alone is as the first has left it.
    rw [same]
    rcases first.changed location with unchanged | ⟨path, listed, leads, file⟩ |
      ⟨path, listed, leads, missing, made⟩
    · exact Or.inl unchanged
    · exact Or.inr (Or.inl ⟨path, listed, second.grows.locate_eq_ok leads, file⟩)
    · exact Or.inr (Or.inr ⟨path, listed, second.grows.leadsThrough leads, missing, made⟩)
  · exact Or.inr (Or.inl written)
  · -- Where something is missing in between, nothing has been put before.
    rcases first.changed location with unchanged | ⟨_, -, -, content, file⟩ | ⟨_, -, -, -, there⟩
    · rw [unchanged] at missing
      exact Or.inr (Or.inr ⟨path, listed, leads, missing, made⟩)
    · rw [missing] at file
      cases file
    · rw [missing] at there
      cases there

/-- Writing a file changes what its path leads to. -/
theorem changedBy_of_writeText
    {store later : Store}
    {path text : String}
    (listed : path ∈ files)
    (writes : store.writeText path text = .ok later) :
    ChangedBy files directories store later := by
  rcases writeBytes_eq_ok_iff.1 writes with ⟨location, leads, free, -, rfl⟩
  have grows := grows_put free (.file text.toUTF8)
  refine ⟨grows, ?_⟩
  intro other
  rw [item?_put (isStanding_eq_false free)]
  split
  case isTrue here =>
    subst here
    exact Or.inr (Or.inl ⟨path, listed, grows.locate_eq_ok leads, _, rfl⟩)
  case isFalse => exact Or.inl rfl

/-- A directory that is made is put where its names lead and nothing was. -/
theorem exists_of_makeDirectory_eq_ok
    {store later : Store}
    {here : Location}
    {names : List String}
    (makes : store.makeDirectory here names = .ok later) :
    ∃ location, store.follow here names = .ok location ∧ store.item? location = none ∧
      later = store.put location .directory := by
  rcases bind_eq_ok_iff.1 makes with ⟨folder, isFolder, rest⟩
  split at rest
  case h_1 => cases rest
  case h_2 name last =>
    split at rest
    case isTrue => cases rest
    case isFalse =>
      rcases bind_eq_ok_iff.1 rest with ⟨location, steps, puts⟩
      split at puts
      case h_2 => cases puts
      case h_1 missing =>
        cases puts
        refine ⟨location, ?_, missing, rfl⟩
        have whole : names.dropLast ++ [name] = names :=
          List.dropLast_append_getLast? name last
        rw [Store.folder, follow_append] at isFolder
        rcases bind_eq_ok_iff.1 isFolder with ⟨parent, leads, stays⟩
        rw [eq_of_follow_dot stays] at steps
        rw [← whole, follow_append]
        exact bind_eq_ok_iff.2 ⟨parent, leads, bind_eq_ok_iff.2 ⟨location, steps, rfl⟩⟩

/-- A directory is made if it is missing, and it is one of the way along the path. -/
theorem changedBy_of_ensureDirectory
    {store later : Store}
    {path : String}
    (listed : path ∈ directories)
    {way : List String}
    (along : properNames way <+: properNames (names path))
    (ensures : store.ensureDirectory (start path) way = .ok later) :
    ChangedBy files directories store later := by
  rw [ensureDirectory] at ensures
  split at ensures
  case h_1 made makes =>
    cases ensures
    rcases exists_of_makeDirectory_eq_ok makes with ⟨location, leads, missing, rfl⟩
    have free : store.item? location ≠ some .directory := by
      rw [missing]
      exact (Option.some_ne_none _).symm
    have grows := grows_put free .directory
    refine ⟨grows, ?_⟩
    intro other
    rw [item?_put (isStanding_eq_false free)]
    split
    case isTrue here =>
      subst here
      exact Or.inr (Or.inr ⟨path, listed, ⟨way, along, grows.follow_eq_ok leads⟩, missing, rfl⟩)
    case isFalse => exact Or.inl rfl
  case h_2 =>
    split at ensures
    · cases ensures
      exact ChangedBy.refl store
    · cases ensures

/-- The directories that are made are those on the way. -/
theorem changedBy_of_ensureBelow
    {store later : Store}
    {path : String}
    (listed : path ∈ directories)
    {way reversed : List String}
    (along : properNames way <+: properNames (names path))
    (above : properNames reversed.reverse <+: properNames (names path))
    (ensures : store.ensureBelow (start path) way reversed = .ok later) :
    ChangedBy files directories store later := by
  induction reversed generalizing store later way with
  | nil => exact changedBy_of_ensureDirectory listed along ensures
  | cons name reversed induction =>
      rw [ensureBelow] at ensures
      split at ensures
      case h_1 =>
        rcases bind_eq_ok_iff.1 ensures with ⟨between, ensuresAbove, ensuresHere⟩
        have further : properNames reversed.reverse <+: properNames (names path) := by
          refine List.IsPrefix.trans ?_ above
          rw [List.reverse_cons]
          exact (List.prefix_append _ _).filter _
        exact (induction above further ensuresAbove).trans
          (changedBy_of_ensureDirectory listed along ensuresHere)
      case h_2 => exact changedBy_of_ensureDirectory listed along ensures

theorem properNames_plainNames
    (path : String) :
    properNames (plainNames path) = properNames (names path) := by
  rw [plainNames]
  split
  case h_1 none => rw [none]
  case h_2 name rest listed =>
    rw [listed]
    split
    case isTrue dot => simp [properNames, dot.1]
    case isFalse => simp [properNames, List.filter_cons]

/-- Making a directory and those above it changes nothing else. -/
theorem changedBy_of_makeDirectories
    {store later : Store}
    {path : String}
    (listed : path ∈ directories)
    (makes : store.makeDirectories path = .ok later) :
    ChangedBy files directories store later := by
  rw [makeDirectories] at makes
  split at makes
  case isTrue =>
    cases makes
    exact ChangedBy.refl store
  case isFalse =>
    rcases bind_eq_ok_iff.1 makes with ⟨_, -, ensures⟩
    refine changedBy_of_ensureBelow listed (List.prefix_refl _) ?_ ensures
    rw [List.reverse_reverse, ← properNames_plainNames]
    exact (List.dropLast_prefix _).filter _

end Changes

end NetRun.Store
