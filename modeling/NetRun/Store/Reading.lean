import NetRun.Store.Basic

/-!
# Reading back what was written

`item?` is the view of a store: putting an item at a location shows there and
nowhere else.  A file that could be written is read back as it was written,
and every other file as before.
-/

namespace NetRun.Store

/-- Replacing the item at a location changes what is looked up there. -/
theorem lookup_replace
    {items : List (Location × Item)}
    {location l : Location}
    {item : Item} :
    (items.map fun entry => if entry.1 = location then (entry.1, item) else entry).lookup l =
      if l = location then (items.lookup l).map fun _ => item else items.lookup l := by
  induction items with
  | nil => simp
  | cons entry rest ih =>
    obtain ⟨other, old⟩ := entry
    simp only [List.map_cons, List.lookup_cons]
    by_cases hl : l = other
    · subst hl
      by_cases ho : l = location <;> simp [ho]
    · have hne : (l == other) = false := by simpa using hl
      by_cases ho : other = location
      · subst ho
        simp [List.lookup_cons, hne, ih, hl]
      · simp [List.lookup_cons, ho, hne, ih]

/-- Putting an item at a location shows there and nowhere else. -/
theorem item?_put
    {store : Store}
    {location l : Location}
    {item : Item}
    (h : location.isStanding = false) :
    (store.put location item).item? l = if l = location then some item else store.item? l := by
  unfold put item?
  by_cases hl : l = location
  · subst hl
    by_cases hsome : (store.items.lookup l).isSome
    · obtain ⟨old, hold⟩ := Option.isSome_iff_exists.1 hsome
      simp [h, lookup_replace, hold]
    · have hnone : store.items.lookup l = none := Option.not_isSome_iff_eq_none.1 hsome
      simp [h, hnone, List.lookup_append]
  · by_cases hsome : (store.items.lookup location).isSome
    · simp [hsome, hl, lookup_replace]
    · have hne : (l == location) = false := by simpa using hl
      simp [hsome, hl, List.lookup_append, List.lookup_cons, hne]

/-- A location with no directory is not that of a standing one. -/
theorem isStanding_eq_false
    {store : Store}
    {location : Location}
    (h : store.item? location ≠ some .directory) :
    location.isStanding = false := by
  cases hstanding : location.isStanding with
  | false => rfl
  | true => exact absurd (by simp [item?, hstanding]) h

/-- A step leads where it led after a file has been put where no directory is. -/
theorem step_put
    {store : Store}
    {location here : Location}
    {name : String}
    {content : ByteArray}
    (hfile : store.item? location ≠ some .directory)
    (hstep : store.item? here = some .directory) :
    (store.put location (.file content)).step here name = store.step here name := by
  have hne : here ≠ location := by
    rintro rfl
    exact hfile hstep
  unfold step
  rw [item?_put (isStanding_eq_false hfile), if_neg hne]

/-- A step that leads anywhere starts at a directory. -/
theorem item?_of_step_eq_ok
    {store : Store}
    {here next : Location}
    {name : String}
    (h : store.step here name = .ok next) :
    store.item? here = some .directory := by
  unfold step at h
  split at h <;> simp_all

/-- A path leads where it led after a file has been put where no directory is. -/
theorem follow_put
    {store : Store}
    {location here goal : Location}
    {names : List String}
    {content : ByteArray}
    (hfile : store.item? location ≠ some .directory)
    (h : store.follow here names = .ok goal) :
    (store.put location (.file content)).follow here names = .ok goal := by
  induction names generalizing here with
  | nil => simpa [follow] using h
  | cons name rest ih =>
    unfold follow at h ⊢
    cases hstep : store.step here name with
    | error fault => simp [hstep, bind, Except.bind] at h
    | ok next =>
      rw [step_put hfile (item?_of_step_eq_ok hstep), hstep]
      simp only [hstep, bind, Except.bind] at h ⊢
      exact ih h

/-- A file can be written where no directory is; the path then leads to it. -/
theorem writeBytes_eq_ok_iff
    {store later : Store}
    {path : String}
    {content : ByteArray} :
    store.writeBytes path content = .ok later ↔
      ∃ location, store.locate path = .ok location ∧
        store.item? location ≠ some .directory ∧
        endsInSlash path = false ∧
        later = store.put location (.file content) := by
  unfold writeBytes locate
  cases hcheck : checkPath path with
  | error fault => simp [bind, Except.bind]
  | ok _ =>
    simp only [bind, Except.bind]
    by_cases hslash : endsInSlash path
    · cases store.folder (start path) (names path) <;> simp [hslash]
    · cases hfollow : store.follow (start path) (names path) with
      | error fault => simp [hslash]
      | ok location =>
        cases hitem : store.item? location with
        | none => simp [hslash, hitem, eq_comm]
        | some item => cases item <;> simp [hslash, hitem, eq_comm]

/-- A file that could be written is read back as it was written. -/
theorem readBytes_writeBytes
    {store later : Store}
    {path : String}
    {content : ByteArray}
    (h : store.writeBytes path content = .ok later) :
    later.readBytes path = .ok content := by
  obtain ⟨location, hlocate, hfile, hslash, rfl⟩ := writeBytes_eq_ok_iff.1 h
  have hagain : (store.put location (.file content)).locate path = .ok location := by
    unfold locate at hlocate ⊢
    cases hcheck : checkPath path with
    | error fault => simp [hcheck, bind, Except.bind] at hlocate
    | ok _ =>
      simp only [hcheck, bind, Except.bind] at hlocate ⊢
      exact follow_put hfile hlocate
  unfold readBytes
  rw [hagain]
  simp [bind, Except.bind, item?_put (isStanding_eq_false hfile), hslash]

/-- The bytes of a text are read as the text. -/
theorem readText_of_readBytes
    {store : Store}
    {path text : String}
    (h : store.readBytes path = .ok text.toByteArray) :
    store.readText path = .ok text := by
  have hvalid : String.fromUTF8? text.toByteArray = some text := by
    simp [String.fromUTF8?, String.fromUTF8, text.isValidUTF8]
  unfold readText
  rw [h]
  simp [bind, Except.bind, hvalid]

/-- A text file that could be written is read back as it was written. -/
theorem readText_writeText
    {store later : Store}
    {path text : String}
    (h : store.writeText path text = .ok later) :
    later.readText path = .ok text :=
  readText_of_readBytes (readBytes_writeBytes h)

end NetRun.Store
