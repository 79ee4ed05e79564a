import AgentFleet.Cloud.Basic

namespace AgentFleet.Cloud

/-- What the cloud can be asked to do. -/
inductive Operation
  | createInstances
  | describeInstances
  | terminateInstances
  | createBalancer
  | describeBalancers
  | registerInstances
  deriving DecidableEq, Repr

/-- Who carries the operations out. -/
inductive Provider
  | service
  | aws
  deriving DecidableEq, Repr

def Operation.name : Provider → Operation → String
  | .service, .createInstances => "create_instances"
  | .service, .createBalancer => "create_balancer"
  | .service, .describeBalancers => "describe_balancers"
  | .service, .registerInstances => "register_instances"
  | .aws, .createInstances => "run_instances"
  | .aws, .createBalancer => "create_load_balancer"
  | .aws, .describeBalancers => "describe_load_balancers"
  | .aws, .registerInstances => "register_instances_with_load_balancer"
  | _, .describeInstances => "describe_instances"
  | _, .terminateInstances => "terminate_instances"

namespace Service

inductive Request
  | createInstances (count : Int) (template : LaunchTemplate)
  | describeInstances (ids addresses : Option (List Text))
  | terminateInstances (ids : List Text)
  | createBalancer (name : Text) (zones : List Text) (listener : Listener)
  | describeBalancers (names : List Text)
  | registerInstances (balancer : Text) (ids : List Text)
  deriving DecidableEq, Repr

def Request.operation : Request → Operation
  | createInstances .. => .createInstances
  | describeInstances .. => .describeInstances
  | terminateInstances .. => .terminateInstances
  | createBalancer .. => .createBalancer
  | describeBalancers .. => .describeBalancers
  | registerInstances .. => .registerInstances

abbrev Answer : Operation → Type
  | .createInstances | .describeInstances => List Instance
  | .terminateInstances | .registerInstances => Unit
  | .createBalancer => Balancer
  | .describeBalancers => List Balancer

end Service

namespace Aws

/-- A network an instance is put in: a subnet that is named, else what the groups belong to. -/
inductive Placement
  | subnet (id : Setting)
  | securityGroups (names : List Setting)
  deriving DecidableEq, Repr

inductive Request
  | runInstances (image instanceType : Setting) (count : Int) (keyName : Setting)
      (placement : Placement)
  | describeInstances (ids addresses : List Text) (token : Option Text)
  | terminateInstances (ids : List Text)
  | createBalancer (name : Text) (zones : List Text) (listener : Listener)
  | describeBalancers (names : List Text)
  | registerInstances (balancer : Text) (ids : List Text)
  deriving DecidableEq, Repr

def Request.operation : Request → Operation
  | runInstances .. => .createInstances
  | describeInstances .. => .describeInstances
  | terminateInstances .. => .terminateInstances
  | createBalancer .. => .createBalancer
  | describeBalancers .. => .describeBalancers
  | registerInstances .. => .registerInstances

/-- AWS has its own forms of what the fleet speaks of; most parts may be missing. -/
structure InstanceDescription where
  id : Option Text
  state : Option Text
  publicAddress : Option Text
  privateAddress : Option Text
  deriving DecidableEq, Repr

/-- Instances come in reservations, and these in pages. A page names the one after it. -/
structure Page where
  reservations : List (List InstanceDescription)
  next : Option Text
  deriving DecidableEq, Repr

structure BalancerDescription where
  name : Option Text
  dnsName : Option Text
  instances : List (Option Text)
  deriving DecidableEq, Repr

abbrev Answer : Operation → Type
  | .createInstances => Option (List InstanceDescription)
  | .describeInstances => Page
  | .terminateInstances | .registerInstances => Unit
  | .createBalancer => Option Text
  | .describeBalancers => List BalancerDescription

/-- The two clients that AWS is reached through. -/
inductive Client
  | instances
  | balancers
  deriving DecidableEq, Repr

def Client.name : Client → String
  | instances => "ec2"
  | balancers => "elb"

end Aws

/-- Answers that are still to come, in order, for each operation. -/
abbrev Script (Answer : Operation → Type) :=
  (o : Operation) → List (Except Fault (Answer o))

def Script.with (s : Script α) (o : Operation) (answers : List (Except Fault (α o))) : Script α :=
  fun p => if h : o = p then h ▸ answers else s p

@[simp] theorem Script.with_self (s : Script α) (o : Operation)
    (answers : List (Except Fault (α o))) : s.with o answers o = answers := by
  simp [Script.with]

theorem Script.with_of_ne (s : Script α) {o p : Operation} (answers : List (Except Fault (α o)))
    (h : o ≠ p) : s.with o answers p = s p := by
  simp [Script.with, h]

end AgentFleet.Cloud
