import AgentFleet.Action

namespace AgentFleet.Cloud.Aws
open AgentFleet.Action

def refusalReason (f : Fault) : Text :=
  match f.trouble with
  | .rejected r => r.reason
  | _ => f.message

/-- What a refused call means to the fleet. -/
def refusal (o : Operation) (f : Fault) : Option Trouble :=
  if f.trouble.isCloud then some (.cloudCall (o.name .aws) (refusalReason f)) else none

def call (r : Request) : Action (Answer r.operation) :=
  (send r).explain (refusal r.operation)

def required (key : Text) : Option α → Except Fault α
  | some a => .ok a
  | none => .error (.of (.missingKey key))

def InstanceDescription.toInstance (d : InstanceDescription) : Except Fault Instance :=
  (required "InstanceId" d.id).map fun id => ⟨id, d.state, d.publicAddress, d.privateAddress⟩

def Page.instances (p : Page) : Except Fault (List Instance) :=
  p.reservations.flatten.mapM (·.toInstance)

def BalancerDescription.toBalancer (d : BalancerDescription) : Except Fault Balancer := do
  let name ← required "LoadBalancerName" d.name
  let ids ← d.instances.mapM (required "InstanceId")
  return ⟨name, d.dnsName, ids⟩

def placement (t : LaunchTemplate) : Placement :=
  if t.subnet.isGiven then .subnet t.subnet else .securityGroups [t.securityGroup]

def createInstances (count : Int) (t : LaunchTemplate) : Action (List Instance) := do
  let answer ← call (.runInstances t.image t.instanceType count t.keyName (placement t))
  let descriptions ← ofExcept (required "Instances" answer)
  ofExcept (descriptions.mapM (·.toInstance))

/-- The instances of a page and of all that follow it. Each page takes one answer of the script, so
there are no more pages than answers. -/
def describePages (ids addresses : List Text) : (pages : Nat) → (token : Option Text) →
    Action (List Instance)
  | 0, _ => return []
  | n + 1, token => do
    let page ← call (.describeInstances ids addresses token)
    let instances ← ofExcept page.instances
    match present? page.next with
    | none => return instances
    | some next => return instances ++ (← describePages ids addresses n (some next))

def describeInstances (ids addresses : List Text) : Action (List Instance) := do
  if ids = [] ∧ addresses = [] then throw (.of (.misuse .nothingToDescribe))
  let answers := (← get).aws .describeInstances
  describePages ids addresses (answers.length + 1) none

def terminateInstances (ids : List Text) : Action Unit :=
  call (.terminateInstances ids)

def createBalancer (name : Text) (zones : List Text) (l : Listener) : Action Balancer := do
  let dnsName ← call (.createBalancer name zones l)
  return ⟨name, dnsName, []⟩

def isUnknownBalancer (f : Fault) : Bool :=
  match f.trouble with
  | .rejected r => r.code = some "LoadBalancerNotFound"
  | _ => false

def describeBalancers (names : List Text) : Action (List Balancer) := do
  match ← (send (.describeBalancers names)).attempt with
  | .ok descriptions => ofExcept (descriptions.mapM (·.toBalancer))
  | .error f =>
    if isUnknownBalancer f then return []
    else match refusal .describeBalancers f with
      | some t => throw (f.because t)
      | none => throw f

def registerInstances (balancer : Text) (ids : List Text) : Action Unit :=
  call (.registerInstances balancer ids)

/-- The client of instances is released first. -/
def shutdown : Action Unit := do
  release .instances
  release .balancers

end AgentFleet.Cloud.Aws
