import AgentFleet.Readiness
import AgentFleet.Resolution
import AgentFleet.Roster.File

namespace AgentFleet
open AgentFleet.Action Cloud Decimal

structure ScaleResult where
  target : Int
  added : List Agent
  removed : List Agent
  /-- Instances that were created and did not become ready. -/
  timedOut : List Text
  /-- Agents that were removed without an instance to terminate. -/
  unresolved : List Agent
  deriving DecidableEq, Repr

def Cloud.LaunchTemplate.ofSettings (s : Settings) : Except Fault LaunchTemplate := do
  return ⟨← s.required "AWS_AMI", s.value "AWS_BOXID", s.value "AWS_KEY_NAME",
    s.value "SECURITY_GROUP", s.value "SUBNET_ID"⟩

def commaSeparated (texts : List Text) : Text :=
  Text.join ", " texts

def counted (l : List α) : Text :=
  Text.ofNat l.length

structure Scaler where
  provider : Provider
  template : LaunchTemplate
  poller : Poller
  strategy : Strategy

namespace Scaler

/-- The agent of a ready instance. The public address stands in for a private one. -/
def agentOf (i : Instance) : Agent :=
  let outer := i.publicAddress.getD []
  ⟨outer, (present? i.privateAddress).getD outer⟩

/-- What comes of an instance that was created. -/
inductive Enrollment
  | added (a : Agent)
  | known
  | timedOut
  deriving DecidableEq, Repr

/-- Wait for a new instance, and let it be an agent. -/
def enroll (s : Scaler) (id : Text) : Action Enrollment := do
  match ← (s.poller.waitUntilReady s.provider id).attempt with
  | .ok ready =>
    let a := agentOf ready
    let added ← Roster.add a
    info ("Instance " ++ ready.id ++ " registered as agent " ++ a.line)
    return if added then .added a else .known
  | .error f =>
    match f.trouble with
    | .notReady .. =>
      warn (f.message ++ ". The instance is not added to the agents file.")
      return .timedOut
    | _ => throw f

/-- Enroll instances in order: the agents that were added, and the ids that timed out. -/
def enrollAll (s : Scaler) : List Text → Action (List Agent × List Text)
  | [] => return ([], [])
  | id :: rest => do
    let enrollment ← s.enroll id
    let (added, timedOut) ← s.enrollAll rest
    match enrollment with
    | .added a => return (a :: added, timedOut)
    | .known => return (added, timedOut)
    | .timedOut => return (added, id :: timedOut)

def grow (s : Scaler) (target : Int) (count : Nat) : Action ScaleResult := do
  info ("Creating " ++ Text.ofNat count ++ " instance(s) from image " ++ s.template.image.shown ++
    " (" ++ s.template.instanceType.shown ++ ")")
  let created ← s.provider.createInstances count s.template
  let (added, timedOut) ← s.enrollAll (created.map (·.id))
  if timedOut ≠ [] then
    warn (counted timedOut ++ " of " ++ counted created ++ " instance(s) did not become ready: " ++
      commaSeparated timedOut)
  info ("Added " ++ counted added ++ " agent(s). The fleet has " ++ counted (← get).roster.agents ++
    " agent(s).")
  return ⟨target, added, [], timedOut, []⟩

/-- Terminate the instances of agents that were removed. -/
def dismiss (s : Scaler) (target : Int) (removed : List Agent) : Action ScaleResult := do
  info ("Removed " ++ counted removed ++ " agent(s) from " ++ (← get).roster.path ++ ": " ++
    commaSeparated (removed.map (·.line)))
  let found ← findInstances s.provider removed
  let ids ← idsOf found (fun a =>
    warn ("No live instance found for agent " ++ a.line ++ ". Skipping its termination.")) removed
  if ids = [] then info "No instances to terminate"
  else
    info ("Terminating instance(s) " ++ commaSeparated ids)
    s.provider.terminateInstances ids
  return ⟨target, [], removed, [], removed.filter fun a => (found.lookup a.publicAddress).isNone⟩

def shrink (s : Scaler) (target : Int) (count : Nat) : Action ScaleResult := do
  s.dismiss target (← Roster.take count s.strategy)

def scaleTo (s : Scaler) (target : Int) : Action ScaleResult := do
  if target < 0 then throw (.of (.misuse (.negativeTarget target)))
  let current := (← get).roster.agents.length
  info ("Scaling fleet from " ++ Text.ofNat current ++ " to " ++ Text.ofInt target ++ " agents")
  if current < target then s.grow target (target.toNat - current)
  else if target < current then s.shrink target (current - target.toNat)
  else
    info ("Fleet already has " ++ Text.ofNat current ++ " agents. Nothing to do.")
    return ⟨target, [], [], [], []⟩

end Scaler

/-- Scale as the settings say. The template is needed, and must be fit, only to grow. -/
def scaleBySettings (c : Provider) (s : Settings) (count : Int) : Action ScaleResult := do
  let interval ← ofExcept (s.whole "POLL_INTERVAL_SECONDS")
  let attempts ← ofExcept (s.whole "POLL_MAX_ATTEMPTS")
  let poller ← ofExcept (Poller.ofPolicy (.whole interval) attempts)
  let template ← if (← get).roster.agents.length < count then
      ofExcept (LaunchTemplate.ofSettings s)
    else pure .blank
  Scaler.scaleTo ⟨c, template, poller, .oldestFirst⟩ count

end AgentFleet
