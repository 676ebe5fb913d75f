import NetRun.Log.Entry
import NetRun.Topology.Basic

/-!
# Delays by kind of link

A link that touches a host is an access link and every other link is a core
link.  Assigning delays gives all links of one kind the same delay.
-/

namespace NetRun

/-- The link touches a host. -/
def Link.isAccess
    (hosts : HostSet)
    (link : Link) :
    Bool :=
  hosts.contains link.first || hosts.contains link.second

/-- Give access links one delay and core links another; all else is kept. -/
def Topology.assignDelays
    (topology : Topology)
    (hosts : HostSet)
    (access core : UInt64) :
    Topology :=
  { topology with
    links := topology.links.map fun link =>
      { link with delay := if link.isAccess hosts then access else core } }

/-- What there is to report: links are counted by the delay that they have now. -/
def Topology.delaysNotice
    (assigned : Topology)
    (access core : UInt64) :
    Log.Entry :=
  let touching := (assigned.links.filter fun link => link.delay == access).length
  let others := assigned.links.length - touching
  Log.debug
    s!"Assigned delay {access} to {touching} access links and {core} to {others} core links"

end NetRun
