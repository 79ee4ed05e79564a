import AgentFleet.Settings

namespace AgentFleet.Cloud

/-- An instance as the cloud describes it. An address is missing until one is assigned. -/
structure Instance where
  id : Text
  state : Option Text
  publicAddress : Option Text
  privateAddress : Option Text
  deriving DecidableEq, Repr

namespace State

def running : Text := "running"
def pending : Text := "pending"
def terminating : Text := "shutting-down"
def terminated : Text := "terminated"
def gone : List Text := [terminating, terminated]

end State

/-- A text, unless it is missing or empty. -/
def present? : Option Text → Option Text
  | some [] => none
  | a => a

namespace Instance

def isGone (i : Instance) : Bool :=
  match i.state with
  | some s => State.gone.contains s
  | none => false

/-- The address at which a live instance is found. -/
def liveAddress? (i : Instance) : Option Text :=
  if i.isGone then none else present? i.publicAddress

def isReady (i : Instance) : Bool :=
  i.state == some State.running && (present? i.publicAddress).isSome

end Instance

/-- What a new instance is made from. -/
structure LaunchTemplate where
  image : Setting
  instanceType : Setting
  keyName : Setting
  securityGroup : Setting
  subnet : Setting
  deriving DecidableEq, Repr

def LaunchTemplate.blank : LaunchTemplate :=
  ⟨.absent, .absent, .absent, .absent, .absent⟩

/-- Traffic to `portIn` of the balancer goes to `portOut` of an instance. -/
structure Listener where
  protocol : Setting
  portIn : Setting
  portOut : Setting
  deriving DecidableEq, Repr

structure Balancer where
  name : Text
  dnsName : Option Text
  instances : List Text
  deriving DecidableEq, Repr

def Balancer.shownName (b : Balancer) : Text :=
  b.dnsName.getD "None"

structure Credentials where
  accessKey : Text
  secretKey : Text
  deriving DecidableEq, Repr

end AgentFleet.Cloud
