import AgentFleet.Cloud.Aws.Calls

namespace AgentFleet.Cloud.Provider
open AgentFleet.Action

def createInstances (p : Provider) (count : Int) (t : LaunchTemplate) : Action (List Instance) :=
  match p with
  | .service => ask (.createInstances count t)
  | .aws => Aws.createInstances count t

/-- Look instances up by their ids, by their public addresses, or by both. -/
def describeInstances (p : Provider) (ids addresses : Option (List Text)) :
    Action (List Instance) :=
  match p with
  | .service => ask (.describeInstances ids addresses)
  | .aws => Aws.describeInstances (ids.getD []) (addresses.getD [])

def terminateInstances (p : Provider) (ids : List Text) : Action Unit :=
  match p with
  | .service => ask (.terminateInstances ids)
  | .aws => Aws.terminateInstances ids

def createBalancer (p : Provider) (name : Text) (zones : List Text) (l : Listener) :
    Action Balancer :=
  match p with
  | .service => ask (.createBalancer name zones l)
  | .aws => Aws.createBalancer name zones l

def describeBalancers (p : Provider) (names : List Text) : Action (List Balancer) :=
  match p with
  | .service => ask (.describeBalancers names)
  | .aws => Aws.describeBalancers names

def registerInstances (p : Provider) (balancer : Text) (ids : List Text) : Action Unit :=
  match p with
  | .service => ask (.registerInstances balancer ids)
  | .aws => Aws.registerInstances balancer ids

/-- A service holds nothing that has to be given back. -/
def shutdown : Provider → Action Unit
  | .service => pure ()
  | .aws => Aws.shutdown

end AgentFleet.Cloud.Provider
