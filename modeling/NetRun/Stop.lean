/-!
# Why a computation stops

A computation either refuses its input with a cause of its own, which is an
answer, or crashes, which ends the program at once and leaves no report.
-/

namespace NetRun

/-- The ways in which the program can end at once. -/
inductive Crash where
  /-- A list longer than the address space can hold was asked for. -/
  | capacityOverflow
  /-- A route was asked for between nodes that the table does not have. -/
  | nodeOutOfRange
  /-- Values were to be sorted by a comparison that was found to be no order. -/
  | unorderedValues
deriving DecidableEq, Repr

/-- What a crash says. -/
def Crash.message :
    Crash → String
  | .capacityOverflow => "capacity overflow"
  | .nodeOutOfRange => "node id out of range"
  | .unorderedValues =>
    "user-provided comparison function does not correctly implement a total order"

/-- How a computation without a result ended. -/
inductive Stop (ε : Type) where
  | refused (cause : ε)
  | crashed (crash : Crash)
deriving DecidableEq, Repr

/-- The same stop, with the cause of a refusal seen from further out. -/
def Stop.map
    {ε ε' : Type}
    (f : ε → ε') :
    Stop ε → Stop ε'
  | .refused cause => .refused (f cause)
  | .crashed crash => .crashed crash

/-- A result whose failures are refusals. -/
def refusing
    {ε α : Type}
    (outcome : Except ε α) :
    Except (Stop ε) α :=
  outcome.mapError .refused

/-- The largest number of bytes that a list may be laid out in. -/
def addressable :
    Nat :=
  9223372036854775807

/--
Room for `count` items of `size` bytes each is asked for before any is made;
a request beyond the address space crashes.
-/
def reserve
    {ε : Type}
    (count size : Nat) :
    Except (Stop ε) Unit :=
  if addressable < count * size then .error (.crashed .capacityOverflow) else .ok ()

end NetRun
