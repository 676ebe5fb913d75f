import NetRun.Log.Entry

/-!
# Results with a log

A computation that reports entries on its way and ends with a value or a
cause of failure.  What was reported before a failure stays reported.

`outcome` forgets the log and respects sequencing, so a statement on results
alone never needs to look at the entries.
-/

namespace NetRun.Log

/-- The entries of a computation, in order, and how it ended. -/
structure Logged (ε α : Type) where
  entries : List Entry
  outcome : Except ε α

namespace Logged

variable {ε α β : Type}

/-- Continue with a computation on the value; a failure ends the sequence. -/
def andThen
    (first : Logged ε α)
    (next : α → Logged ε β) :
    Logged ε β :=
  match first.outcome with
  | .error cause => ⟨first.entries, .error cause⟩
  | .ok value => ⟨first.entries ++ (next value).entries, (next value).outcome⟩

instance : Monad (Logged ε) where
  pure value := ⟨[], .ok value⟩
  bind := andThen

/-- Two computations are equal if they report the same and end the same way. -/
@[ext]
theorem ext_of_parts
    {a b : Logged ε α}
    (hentries : a.entries = b.entries)
    (houtcome : a.outcome = b.outcome) :
    a = b := by
  cases a
  cases b
  cases hentries
  cases houtcome
  rfl

instance : LawfulMonad (Logged ε) :=
  LawfulMonad.mk'
    (Logged ε)
    (fun computation => by
      obtain ⟨entries, outcome⟩ := computation
      cases outcome <;> simp [Functor.map, andThen])
    (fun value next => by
      simp [bind, pure, andThen])
    (fun first next last => by
      obtain ⟨entries, outcome⟩ := first
      cases outcome with
      | error cause => rfl
      | ok value =>
        simp only [bind, andThen]
        cases (next value).outcome <;> simp)

/-- Report entries. -/
def report
    (entries : List Entry) :
    Logged ε Unit :=
  ⟨entries, .ok ()⟩

/-- Report one entry. -/
def note
    (entry : Entry) :
    Logged ε Unit :=
  report [entry]

/-- A result with nothing to report. -/
def ofExcept
    (outcome : Except ε α) :
    Logged ε α :=
  ⟨[], outcome⟩

/-- Fail with a cause. -/
def fail
    (cause : ε) :
    Logged ε α :=
  ⟨[], .error cause⟩

/-- The same computation with its cause of failure seen from further out. -/
def mapError
    {ε' : Type}
    (f : ε → ε')
    (computation : Logged ε α) :
    Logged ε' α :=
  ⟨computation.entries, computation.outcome.mapError f⟩

@[simp]
theorem outcome_pure
    (value : α) :
    (pure value : Logged ε α).outcome = .ok value :=
  rfl

@[simp]
theorem entries_pure
    (value : α) :
    (pure value : Logged ε α).entries = [] :=
  rfl

@[simp]
theorem outcome_bind
    (first : Logged ε α)
    (next : α → Logged ε β) :
    (first >>= next).outcome = first.outcome.bind fun value => (next value).outcome := by
  change (andThen first next).outcome = _
  unfold andThen
  cases first.outcome <;> rfl

@[simp]
theorem outcome_map
    (f : α → β)
    (computation : Logged ε α) :
    (f <$> computation).outcome = computation.outcome.map f := by
  obtain ⟨entries, outcome⟩ := computation
  cases outcome <;> rfl

@[simp]
theorem outcome_report
    (entries : List Entry) :
    (report entries : Logged ε Unit).outcome = .ok () :=
  rfl

@[simp]
theorem outcome_note
    (entry : Entry) :
    (note entry : Logged ε Unit).outcome = .ok () :=
  rfl

@[simp]
theorem outcome_ofExcept
    (outcome : Except ε α) :
    (ofExcept outcome).outcome = outcome :=
  rfl

@[simp]
theorem outcome_fail
    (cause : ε) :
    (fail cause : Logged ε α).outcome = .error cause :=
  rfl

@[simp]
theorem outcome_mapError
    {ε' : Type}
    (f : ε → ε')
    (computation : Logged ε α) :
    (computation.mapError f).outcome = computation.outcome.mapError f :=
  rfl

/-- A value that is there is reported on, and a result is made of it. -/
theorem reportOn_of_eq_ok
    {outcome : Except ε α}
    {value : α}
    (success : outcome = .ok value)
    (notices : α → List Entry)
    (result : α → β) :
    (do
        let value ← ofExcept outcome
        report (notices value)
        return result value : Logged ε β) =
      ⟨notices value, .ok (result value)⟩ := by
  subst success
  apply ext_of_parts
  · change [] ++ (notices value ++ []) = _
    rw [List.nil_append, List.append_nil]
  · rfl

/-- Reporting on a value that is there does not change how the computation ends. -/
theorem outcome_reportOn
    (outcome : Except ε α)
    (notices : α → List Entry)
    (result : α → β) :
    (do
        let value ← ofExcept outcome
        report (notices value)
        return result value : Logged ε β).outcome =
      outcome.map result := by
  cases outcome with
  | error cause => rfl
  | ok value => rfl

/-- There is nothing to report on a failure. -/
theorem entries_reportOn_of_eq_error
    {outcome : Except ε α}
    {cause : ε}
    (failure : outcome = .error cause)
    (notices : α → List Entry)
    (result : α → β) :
    (do
        let value ← ofExcept outcome
        report (notices value)
        return result value : Logged ε β).entries =
      [] := by
  subst failure
  rfl

end Logged

end NetRun.Log
