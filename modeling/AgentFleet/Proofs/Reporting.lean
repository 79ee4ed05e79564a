import AgentFleet.Balancing
import AgentFleet.Scaling
import AgentFleet.Proofs.Failing
import AgentFleet.Proofs.Passing
import AgentFleet.Proofs.Polling
import AgentFleet.Proofs.RosterCalls
import AgentFleet.Proofs.Watching

namespace AgentFleet
open AgentFleet.Action Cloud

/-- The fleet reports the fault, or the cloud has not answered at all. -/
def Fault.Owned (f : Fault) : Prop :=
  f.trouble.isReported = true ∨ ∃ method, f = .of (.noReply method)

theorem Fault.not_owned {f : Fault} (hf : f.trouble.isReported = false)
    (hn : ∀ method, f ≠ .of (.noReply method)) : ¬ f.Owned := by
  rintro (h | ⟨method, h⟩)
  · rw [h] at hf
    cases hf
  · exact hn method h

/-- A file can hold addresses, if they are there. -/
def WritableAddresses (outer inner : Option Text) : Prop :=
  (∀ t ∈ outer, Text.isWritable t = true) ∧ ∀ t ∈ inner, Text.isWritable t = true

namespace Cloud.Aws

/-- The id is there, and the addresses are texts that a file can hold. -/
structure InstanceDescription.Regular (d : InstanceDescription) : Prop where
  id : ∃ id, d.id = some id
  addresses : WritableAddresses d.publicAddress d.privateAddress

structure BalancerDescription.Regular (d : BalancerDescription) : Prop where
  name : ∃ name, d.name = some name
  instances : ∀ i ∈ d.instances, ∃ id, i = some id

/-- An answer has all parts that an answer to the operation must have. -/
def Answer.Regular : (o : Operation) → Answer o → Prop
  | .createInstances, answer => ∃ descriptions, answer = some descriptions ∧
      ∀ d ∈ descriptions, d.Regular
  | .describeInstances, page => ∀ d ∈ page.reservations.flatten, d.Regular
  | .terminateInstances, _ | .registerInstances, _ => True
  | .createBalancer, dnsName => ∀ t ∈ dnsName, Text.isWritable t = true
  | .describeBalancers, descriptions => ∀ d ∈ descriptions, d.Regular

/-- Answers are regular, and what is refused is refused by AWS or its library. -/
def Regular (script : Script Answer) : Prop :=
  ∀ o, ∀ answer ∈ script o, match answer with
    | .ok a => Answer.Regular o a
    | .error f => f.trouble.isCloud = true

end Cloud.Aws

/-- Nothing about the situation is outside what the operations are made for, and a wait of so many
seconds can begin. -/
structure Situation.Workable (seconds : Decimal.Number) (s : Situation) : Prop where
  base : s.disk.base.Taken
  path : s.roster.path.Taken
  agents : ∀ a ∈ s.roster.agents, a.IsWritable
  answers : Aws.Regular s.aws
  begins : s.cancellation.refuses seconds = false

namespace Situation.Workable

variable {seconds : Decimal.Number} {s t : Situation}

/-- Only where paths start from, the roster, the answers and the wish to stop matter. -/
theorem congr (h : s.Workable seconds) (hd : t.disk.base = s.disk.base)
    (hr : t.roster = s.roster) (ha : t.aws = s.aws) (hc : t.cancellation = s.cancellation) :
    t.Workable seconds :=
  ⟨by rw [hd]; exact h.base, by rw [hr]; exact h.path, by rw [hr]; exact h.agents,
    by rw [ha]; exact h.answers, by rw [hc]; exact h.begins⟩

theorem idle (h : s.Workable seconds) (hi : s.Idle t) : t.Workable seconds :=
  ⟨by rw [hi.disk]; exact h.base, by rw [hi.roster]; exact h.path,
    by rw [hi.roster]; exact h.agents, by rw [hi.aws]; exact h.answers, hi.refuses h.begins⟩

end Situation.Workable

/-- An action keeps the situation workable, and fails only with faults that are owned. -/
abbrev Proper (seconds : Decimal.Number) (act : Action α) (Q : α → Prop) : Prop :=
  Ends (Situation.Workable seconds) act Q Fault.Owned

namespace Proper

variable {seconds : Decimal.Number}

theorem log (severity : Severity) (text : Except Fault Text) :
    Proper seconds (Action.log severity text) Any :=
  Ends.then_as fun s hs => by
    obtain ⟨t, hrun, hidle⟩ := log_idle severity text s
    exact ⟨pure (), t, hrun, hs.idle hidle, Ends.pure trivial⟩

theorem info (text : Text) : Proper seconds (Action.info text) Any :=
  log .info (.ok text)

theorem warn (text : Text) : Proper seconds (Action.warn text) Any :=
  log .warning (.ok text)

theorem wait (seconds : Decimal.Number) : Proper seconds (Action.wait seconds) Any :=
  Ends.then_as fun s hs => by
    obtain ⟨t, hidle, ⟨stop, hrun⟩ | ⟨hrefused, _⟩⟩ := wait_idle seconds s
    · exact ⟨pure stop, t, hrun, hs.idle hidle, Ends.pure trivial⟩
    · rw [hs.begins] at hrefused
      cases hrefused

section Calls

/-- A request is answered regularly, or refused by AWS, or not answered at all. -/
theorem send (r : Aws.Request) :
    Ends (Situation.Workable seconds) (Action.send r) (Aws.Answer.Regular r.operation)
      (fun f => f.trouble.isCloud = true ∨ ∃ method, f = .of (.noReply method)) := by
  have hreplied : ∀ s : Situation, s.Workable seconds → ∀ x, (Action.send r).outcome s = x →
      x ∈ s.aws r.operation ∨ x = .error (.of (.noReply (r.operation.name .aws))) := by
    intro s _ x hx
    rw [outcome_send] at hx
    unfold replied at hx
    cases ha : s.aws r.operation with
    | nil =>
      rw [ha] at hx
      exact .inr hx.symm
    | cons answer rest =>
      rw [ha] at hx
      exact .inl (hx ▸ List.mem_cons_self)
  refine ⟨Brings.of_parts (fun s hs => ?_) fun s hs a ha => ?_, fun s hs f hf => ?_⟩
  · rw [after_send]
    refine ⟨hs.base, hs.path, hs.agents, fun o answer hm => ?_, hs.begins⟩
    exact hs.answers o answer (Script.mem_of_mem_with_tail hm)
  · rcases hreplied s hs _ ha with hm | he
    · exact hs.answers _ _ hm
    · cases he
  · rcases hreplied s hs _ hf with hm | he
    · exact .inl (hs.answers _ _ hm)
    · cases he
      exact .inr ⟨_, rfl⟩

theorem owned_refusal (o : Operation) {f : Fault}
    (h : f.trouble.isCloud = true ∨ ∃ method, f = .of (.noReply method)) :
    (((Aws.refusal o f).map f.because).getD f).Owned := by
  rcases h with h | ⟨method, rfl⟩
  · unfold Aws.refusal
    rw [if_pos h]
    exact .inl rfl
  · exact .inr ⟨method, rfl⟩

theorem call (r : Aws.Request) : Proper seconds (Aws.call r) (Aws.Answer.Regular r.operation) :=
  (send r).explain fun _ h => owned_refusal r.operation h

theorem toInstance_regular {d : Aws.InstanceDescription} (h : d.Regular) :
    ∃ i, d.toInstance = .ok i ∧ WritableAddresses i.publicAddress i.privateAddress := by
  obtain ⟨id, hid⟩ := h.id
  refine ⟨⟨id, d.state, d.publicAddress, d.privateAddress⟩, ?_, h.addresses⟩
  unfold Aws.InstanceDescription.toInstance
  rw [hid]
  rfl

/-- Files can hold the addresses of all these instances. -/
abbrev Addressed (l : List Instance) : Prop :=
  ∀ i ∈ l, WritableAddresses i.publicAddress i.privateAddress

theorem described {l : List Aws.InstanceDescription} (h : ∀ d ∈ l, d.Regular) :
    Proper seconds (ofExcept (l.mapM (·.toInstance))) Addressed := by
  obtain ⟨instances, hl, haddressed⟩ := mapM_ok (fun _ => toInstance_regular) h
  rw [hl]
  exact Ends.pure haddressed

theorem describePages (ids addresses : List Text) (n : Nat) (token : Option Text) :
    Proper seconds (Aws.describePages ids addresses n token) Addressed := by
  induction n generalizing token with
  | zero => exact Ends.pure fun _ h => nomatch h
  | succ n ih =>
    refine (call (.describeInstances ids addresses token)).bind fun page hpage =>
      (described hpage).bind fun l hl => ?_
    split
    · exact Ends.pure hl
    · refine (ih _).bind fun more hm => Ends.pure fun i hi => ?_
      rcases List.mem_append.mp hi with hi | hi
      · exact hl i hi
      · exact hm i hi

theorem describeInstances {ids addresses : Option (List Text)}
    (h : ¬ (ids.getD [] = [] ∧ addresses.getD [] = [])) :
    Proper seconds (Provider.aws.describeInstances ids addresses) Addressed := by
  change Proper seconds (Aws.describeInstances _ _) _
  unfold Aws.describeInstances
  rw [if_neg h]
  exact Ends.get_bind fun s _ => describePages _ _ _ none

theorem createInstances (count : Int) (template : LaunchTemplate) :
    Proper seconds (Provider.aws.createInstances count template) Addressed := by
  refine (call (.runInstances ..)).bind fun answer hanswer => ?_
  obtain ⟨descriptions, rfl, hd⟩ := hanswer
  exact described hd

theorem terminateInstances (ids : List Text) :
    Proper seconds (Provider.aws.terminateInstances ids) Any :=
  (call (.terminateInstances ids)).mono (fun _ _ => trivial) fun _ h => h

theorem registerInstances (balancer : Text) (ids : List Text) :
    Proper seconds (Provider.aws.registerInstances balancer ids) Any :=
  (call (.registerInstances balancer ids)).mono (fun _ _ => trivial) fun _ h => h

theorem createBalancer (name : Text) (zones : List Text) (l : Listener) :
    Proper seconds (Provider.aws.createBalancer name zones l)
      (fun b => ∀ t ∈ b.dnsName, Text.isWritable t = true) :=
  (call (.createBalancer name zones l)).bind fun _ h => Ends.pure h

theorem toBalancer_regular {d : Aws.BalancerDescription} (h : d.Regular) :
    ∃ b, d.toBalancer = .ok b ∧ Any b := by
  obtain ⟨name, hname⟩ := h.name
  obtain ⟨ids, hids, _⟩ := mapM_ok (f := Aws.required "InstanceId") (Q := Any)
    (fun _ ⟨id, hid⟩ => ⟨id, by rw [hid]; rfl, trivial⟩) h.instances
  refine ⟨⟨name, d.dnsName, ids⟩, ?_, trivial⟩
  unfold Aws.BalancerDescription.toBalancer
  rw [hname, hids]
  rfl

theorem balancersOf {l : List Aws.BalancerDescription} (h : ∀ d ∈ l, d.Regular) :
    Proper seconds (ofExcept (l.mapM (·.toBalancer))) Any := by
  obtain ⟨balancers, hl, _⟩ := mapM_ok (fun _ => toBalancer_regular) h
  rw [hl]
  exact Ends.pure trivial

theorem describeBalancers (names : List Text) :
    Proper seconds (Provider.aws.describeBalancers names) Any := by
  refine (send (.describeBalancers names)).attempt.bind fun answer hanswer => ?_
  cases answer with
  | ok descriptions => exact balancersOf hanswer
  | error f =>
    have howned := owned_refusal .describeBalancers hanswer
    dsimp only
    split
    · exact Ends.pure trivial
    · split
      · rename_i t ht
        rw [ht] at howned
        exact Ends.throw howned
      · rename_i ht
        rw [ht] at howned
        exact Ends.throw howned

end Calls

end Proper

end AgentFleet
