import AgentFleet.Resolution
import AgentFleet.Roster.File

namespace AgentFleet
open AgentFleet.Action Cloud

def findBalancer (c : Provider) (name : Text) : Action (Option Balancer) := do
  return (← c.describeBalancers [name]).find? (·.name = name)

def balancerIsAlive (c : Provider) (name : Text) : Action Bool := do
  return (← findBalancer c name).isSome

/-- Write the name of a new balancer at the end of a file. That the system refuses is a warning. -/
def recordName (file dnsName : Text) : Action Unit := do
  let disk := (← get).disk
  let (result, disk) := disk.append (disk.expand file) (dnsName ++ "\n")
  modify fun s => { s with disk }
  match result with
  | .ok () => return
  | .error f =>
    if f.isSystem then
      warn ("Unable to record DNS name " ++ dnsName ++ " in " ++ file ++ ": " ++ f.message)
    else throw (.of (.disk f))

/-- What the cloud refuses to create is a balancer that could not be provided. -/
def notCreated (name : Text) (f : Fault) : Option Trouble :=
  match f.trouble with
  | .cloudCall .. => some (.noBalancer name)
  | _ => none

def Cloud.Listener.numbered (l : Listener) : Except Fault Listener := do
  return ⟨l.protocol, .whole (← l.portIn.toWhole), .whole (← l.portOut.toWhole)⟩

/-- Where the names of new balancers are kept; an empty path keeps none. -/
abbrev NameFile := Option Text

/-- The balancer of a name, which is created if there is none. -/
def ensureBalancer (c : Provider) (file : NameFile) (name : Text) (zones : List Text)
    (l : Listener) : Action Balancer := do
  match ← findBalancer c name with
  | some b =>
    info ("Load balancer " ++ name ++ " already exists (" ++ b.shownName ++ ")")
    return b
  | none =>
    let l ← ofExcept (Listener.numbered l)
    info ("Creating load balancer " ++ name ++ " in zone(s) " ++ Text.join "," zones ++
      " with listener " ++ l.protocol.shown ++ " " ++ l.portIn.shown ++ " -> " ++ l.portOut.shown)
    let created ← (c.createBalancer name zones l).explain (notCreated name)
    match present? file, present? created.dnsName with
    | some file, some dnsName => recordName file dnsName
    | _, _ => pure ()
    return created

def registerMembers (c : Provider) (name : Text) (ids : List Text) : Action Unit := do
  if ids = [] then info ("No instances to add to load balancer " ++ name)
  else
    info ("Adding instance(s) " ++ Text.join ", " ids ++ " to load balancer " ++ name)
    c.registerInstances name ids

/-- Put the instances of all agents behind a balancer. The roster stays as it is. -/
def addAgents (c : Provider) (file : NameFile) (name : Text) (zones : List Text)
    (l : Listener) : Action (List Text) := do
  let _ ← ensureBalancer c file name zones l
  let agents := (← get).roster.agents
  let found ← findInstances c agents
  let ids ← idsOf found (fun a =>
    warn ("No live instance found for agent " ++ a.line ++
      ". It is not added to load balancer " ++ name ++ ".")) agents
  registerMembers c name ids
  return ids

/-- Put all agents behind a balancer, as the settings say. -/
def balanceBySettings (c : Provider) (s : Settings) (name : Text) : Action (List Text) := do
  let zones := s.list "ELB_ZONES"
  if zones = [] then throw (.of (.configuration .noZones))
  let portIn ← ofExcept (s.whole "ELB_PORT_IN")
  let portOut ← ofExcept (s.whole "ELB_PORT_OUT")
  addAgents c (some Default.balancerFile) name zones
    ⟨s.value "ELB_PROTOCOL", .whole portIn, .whole portOut⟩

end AgentFleet
