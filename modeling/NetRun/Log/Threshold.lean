import NetRun.Log.Entry

/-!
# Which entries are shown

A word names the least severe level that is shown.  A word that names no level
shows nothing.
-/

namespace NetRun.Log

/-- The rank of the least severe level that a word shows, in any case; none is zero. -/
def threshold
    (word : String) :
    Nat :=
  let lower := String.ofList (word.toList.map Char.toLower)
  match [Level.error, .warn, .info, .debug, .trace].find? fun level =>
      level.name.toList.map Char.toLower == lower.toList with
  | some level => level.rank
  | none => 0

/-- The entries that a word shows. -/
def shown
    (word : String)
    (entries : List Entry) :
    List Entry :=
  entries.filter fun entry => entry.level.rank ≤ threshold word

end NetRun.Log
