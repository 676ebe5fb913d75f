import NetRun.Log.Logged
import NetRun.Table.Render
import NetRun.Table.Row
import NetRun.Topology.EndHost

/-!
# End-host lists

A list of end hosts is written as a count and one row per host: its node, and
the place where it stands.  Reading needs only the node, skips blank rows, and
warns if the count is not the number of rows.
-/

namespace NetRun.HostList

open NetRun.Log
open NetRun.Ordered
open NetRun.Table

/-- What a text that is no file is called in messages. -/
def unnamed :
    String :=
  "<end hosts>"

/-- A list as it is written: the declared count and the node of each row. -/
structure Listing where
  declared : UInt64
  nodes : List NodeId
deriving DecidableEq, Repr

/-- The hosts of a list. -/
def Listing.hosts
    (listing : Listing) :
    HostSet :=
  SortedSet.ofList listing.nodes

/-- The list that a text describes. -/
def parse
    (origin text : String) :
    Except ReadError Listing :=
  match rows origin text with
  | [] => .error (.empty origin "an end host count")
  | head :: rest => do
    let declared ← head.word64 0 "end host count"
    let nodes ← (rest.filter fun row => !row.isBlank).mapM fun row => row.word32 0 "node"
    return ⟨declared, nodes⟩

/-- What there is to report about a list that has been read. -/
def notices
    (origin : String)
    (listing : Listing) :
    List Entry :=
  let read := listing.nodes.length
  let declared := listing.declared
  let mismatch :=
    if read = declared.toNat then []
    else [warning s!"{origin}: header declares {declared} end hosts but {read} were read"]
  let hosts := listing.hosts.size
  mismatch ++ [debug s!"Parsed {hosts} end hosts from {origin}"]

/-- Read a set of hosts and report on it. -/
def read
    (origin text : String) :
    Logged ReadError HostSet := do
  let listing ← .ofExcept (parse origin text)
  .report (notices origin listing)
  return listing.hosts

/-- The text of a list of end hosts. -/
def render
    (hosts : List EndHost) :
    String :=
  Table.render <|
    [toString hosts.length] ::
      hosts.map fun host =>
        [toString host.node, toString host.place.link, toString host.place.side.index]

end NetRun.HostList
