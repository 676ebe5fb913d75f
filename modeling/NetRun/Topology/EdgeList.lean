import NetRun.Log.Logged
import NetRun.Stop
import NetRun.Table.Render
import NetRun.Table.Row
import NetRun.Topology.Basic

/-!
# Edge lists

A topology is written as a node count, a link count and one row per link: its
two nodes, its bandwidth and its delay.  Reading takes the first word of each
of the two count lines, skips blank rows and ignores further fields.  A link
count that does not match the rows is only worth a warning; a node that is not
below the node count is refused.
-/

namespace NetRun.EdgeList

open NetRun.Log
open NetRun.Table

/-- What a text that is no file is called in messages. -/
def unnamed :
    String :=
  "<topology>"

/-- The memory that one link takes, in bytes. -/
def linkBytes :
    Nat :=
  24

/-- A node that the network declares. -/
def declaredNode
    (nodes : UInt32)
    (row : Row)
    (node : NodeId) :
    Except ReadError Unit :=
  if node < nodes then .ok () else .error (.nodeOutOfRange row.origin row.line node nodes)

/-- The link of a row: all four fields are read before its nodes are looked at. -/
def readLink
    (nodes : UInt32)
    (row : Row) :
    Except ReadError Link := do
  let first ← row.word32 0 "node1"
  let second ← row.word32 1 "node2"
  let bandwidth ← row.word64 2 "bandwidth"
  let delay ← row.word64 3 "delay"
  declaredNode nodes row first
  declaredNode nodes row second
  return ⟨first, second, bandwidth, delay⟩

/-- The links of the rows that are not blank. -/
def readLinks
    (nodes : UInt32)
    (rows : List Row) :
    Except ReadError (List Link) :=
  (rows.filter fun row => !row.isBlank).mapM (readLink nodes)

/-- The rest of a topology behind its node count. -/
def readBody
    (origin : String)
    (nodes : UInt32) :
    List Row → Except (Stop ReadError) Topology
  | [] => .error (.refused (.missingField origin 2 "link count"))
  | head :: rows => do
    let declared ← refusing (head.word64 0 "link count")
    reserve declared.toNat linkBytes
    let links ← refusing (readLinks nodes rows)
    return ⟨nodes, declared, links⟩

/-- The topology that a text describes. -/
def parse
    (origin text : String) :
    Except (Stop ReadError) Topology :=
  match rows origin text with
  | [] => .error (.refused (.empty origin "a node count"))
  | head :: rest => do
    let nodes ← refusing (head.word32 0 "node count")
    readBody origin nodes rest

/-- What there is to report about a topology that has been read. -/
def notices
    (origin : String)
    (topology : Topology) :
    List Entry :=
  let read := topology.links.length
  let declared := topology.declaredLinks
  let mismatch :=
    if read = declared.toNat then []
    else [warning s!"{origin}: header declares {declared} links but {read} were read"]
  let nodes := topology.nodes
  mismatch ++ [debug s!"Parsed {nodes} nodes and {read} links from {origin}"]

/-- Read a topology and report on it. -/
def read
    (origin text : String) :
    Logged (Stop ReadError) Topology := do
  let topology ← .ofExcept (parse origin text)
  .report (notices origin topology)
  return topology

/-- The text of a topology; its link count is the declared one. -/
def render
    (topology : Topology) :
    String :=
  Table.render <|
    [toString topology.nodes] :: [toString topology.declaredLinks] ::
      topology.links.map fun link =>
        [toString link.first, toString link.second, toString link.bandwidth,
          toString link.delay]

end NetRun.EdgeList
