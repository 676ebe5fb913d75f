import NetRun.Workload.Fanout
import Mathlib.Data.List.Forall2

/-!
# What computations with draws give

A computation that draws from a stream may be refused on the way.  What it gives
is good from every stream: whenever it is not refused or, more strongly, always.
Both properties are shown part by part, along sequences and traversals.
-/

namespace NetRun.Drawing

variable
    {σ α β : Type}

/-- A sequence goes on from where the stream was left, unless its first part is refused. -/
theorem run_bind
    (first : Drawing σ α)
    (next : α → Drawing σ β)
    (stream : σ) :
    (first >>= next).run stream =
      match first.run stream with
      | (.ok value, rest) => (next value).run rest
      | (.error cause, rest) => (.error cause, rest) := by
  rw [ExceptT.run_bind]
  change StateT.bind first.run _ stream = _
  rw [StateT.bind]
  rcases first.run stream with ⟨_ | value, rest⟩
  · rfl
  · rfl

/-! ## Computations that may be refused -/

/-- Whenever the computation is not refused, what it gives is good. -/
def Ensures
    (computation : Drawing σ α)
    (good : α → Prop) :
    Prop :=
  ∀ stream value rest, computation.run stream = (.ok value, rest) → good value

theorem Ensures.imp
    {computation : Drawing σ α}
    {good looser : α → Prop}
    (ensures : computation.Ensures good)
    (loosen : ∀ value, good value → looser value) :
    computation.Ensures looser :=
  fun stream value rest runs => loosen value (ensures stream value rest runs)

theorem Ensures.pure
    {good : α → Prop}
    {value : α}
    (isGood : good value) :
    Ensures (Pure.pure value : Drawing σ α) good := by
  rintro stream _ rest ⟨⟩
  exact isGood

theorem Ensures.throw
    {good : α → Prop}
    {cause : WorkloadError} :
    Ensures (throw cause : Drawing σ α) good := by
  rintro stream value rest ⟨⟩

theorem Ensures.bind
    {first : Drawing σ α}
    {next : α → Drawing σ β}
    {good : α → Prop}
    {goodNext : β → Prop}
    (ensures : first.Ensures good)
    (rest : ∀ value, good value → (next value).Ensures goodNext) :
    (first >>= next).Ensures goodNext := by
  intro stream result last runs
  rw [run_bind] at runs
  cases ends : first.run stream with
  | mk outcome left =>
      rw [ends] at runs
      cases outcome with
      | error cause => cases runs
      | ok value => exact rest value (ensures stream value left ends) left result last runs

/-- A traversal relates its items to what it gives for them, in their order. -/
theorem Ensures.mapM
    {f : α → Drawing σ β}
    {related : α → β → Prop}
    {items : List α}
    (ensures : ∀ item ∈ items, (f item).Ensures (related item)) :
    Ensures (items.mapM f) (List.Forall₂ related items) := by
  induction items with
  | nil => exact Ensures.pure .nil
  | cons item items induction =>
      rcases List.forall_mem_cons.1 ensures with ⟨head, rest⟩
      rw [List.mapM_cons]
      refine head.bind fun value isGood => ?_
      refine (induction rest).bind fun values areGood => ?_
      exact Ensures.pure (.cons isGood areGood)

/-! ## Computations that are never refused -/

/-- The computation is never refused, and what it gives is good, from every stream. -/
def Gives
    (computation : Drawing σ α)
    (good : α → Prop) :
    Prop :=
  ∀ stream, ∃ value rest, computation.run stream = (.ok value, rest) ∧ good value

theorem Gives.pure
    {good : α → Prop}
    {value : α}
    (isGood : good value) :
    Gives (Pure.pure value : Drawing σ α) good :=
  fun stream => ⟨value, stream, rfl, isGood⟩

theorem Gives.bind
    {first : Drawing σ α}
    {next : α → Drawing σ β}
    {good : α → Prop}
    {goodNext : β → Prop}
    (gives : first.Gives good)
    (gen : ∀ value, good value → (next value).Gives goodNext) :
    (first >>= next).Gives goodNext := by
  intro stream
  rcases gives stream with ⟨value, rest, runs, isGood⟩
  rcases gen value isGood rest with ⟨result, last, runsNext, resultGood⟩
  refine ⟨result, last, ?_, resultGood⟩
  rw [run_bind, runs]
  exact runsNext

/-- A traversal gives good values in the order of its items. -/
theorem Gives.mapM
    {f : α → Drawing σ β}
    {related : α → β → Prop}
    {items : List α}
    (gives : ∀ item ∈ items, (f item).Gives (related item)) :
    Gives (items.mapM f) (List.Forall₂ related items) := by
  induction items with
  | nil => exact Gives.pure .nil
  | cons item items induction =>
      rcases List.forall_mem_cons.1 gives with ⟨head, rest⟩
      rw [List.mapM_cons]
      apply head.bind
      intro value isGood
      apply (induction rest).bind
      intro values areGood
      exact Gives.pure (.cons isGood areGood)

end NetRun.Drawing
