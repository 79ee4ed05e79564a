import AgentFleet.Proofs.Paging
import AgentFleet.Proofs.Provisioning

namespace AgentFleet
open AgentFleet.Action Cloud

namespace Cloud

/-- What carries a request out. -/
def Provider.serve (c : Provider) : (r : Service.Request) → Action (Service.Answer r.operation)
  | .createInstances count template => c.createInstances count template
  | .describeInstances ids addresses => c.describeInstances ids addresses
  | .terminateInstances ids => c.terminateInstances ids
  | .createBalancer name zones l => c.createBalancer name zones l
  | .describeBalancers names => c.describeBalancers names
  | .registerInstances balancer ids => c.registerInstances balancer ids

namespace Aws

/-- What an operation comes to when one of its requests fails. -/
inductive Meaning (f : Fault) : (o : Operation) → Except Fault (Service.Answer o) → Prop
  | unknownBalancer {r : Rejection} (h : f.trouble = .rejected r)
      (hcode : r.code = some "LoadBalancerNotFound") : Meaning f .describeBalancers (.ok [])
  | rejected {o : Operation} {r : Rejection} (h : f.trouble = .rejected r)
      (hcode : o = .describeBalancers → r.code ≠ some "LoadBalancerNotFound") :
      Meaning f o (.error (f.because
        (.cloudCall (o.name .aws) (r.code.getD "Unknown" ++ ": " ++ r.message.getD r.text))))
  | library {o : Operation} {name : String} {text : Text}
      (h : f.trouble = .foreign .cloudLibrary name text) :
      Meaning f o (.error (f.because (.cloudCall (o.name .aws) text)))
  | other {o : Operation} (h : f.trouble.isCloud = false) : Meaning f o (.error f)

/-- The faults of an operation whose requests were all answered, as far as there are answers. -/
inductive Lapse (o : Operation) : Fault → Prop
  | silent : Lapse o (.of (.noReply (o.name .aws)))
  | nameless (key : Text) : Lapse o (.of (.missingKey key))
  | aimless : Lapse o (.of (.misuse .nothingToDescribe))

/-- What comes of an operation that uses these answers up. After a fault it uses up no more. -/
inductive Comes (o : Operation) : List (Except Fault (Answer o)) →
    Except Fault (Service.Answer o) → Prop
  | refused (used : List (Answer o)) {f : Fault} {result : Except Fault (Service.Answer o)}
      (h : Meaning f o result) : Comes o (used.map .ok ++ [.error f]) result
  | answered (used : List (Answer o)) {result : Except Fault (Service.Answer o)}
      (h : ∀ f, result = .error f → Lapse o f) : Comes o (used.map .ok) result

/-- An operation is carried out by requests to AWS alone, and comes to what their answers make of
it. -/
def Serves (o : Operation) (act : Action (Service.Answer o)) (s : Situation) : Prop :=
  ∃ requests, s.Sent o requests (act.after s) ∧
    Comes o ((s.aws o).take requests.length) (act.outcome s)

variable {f g : Fault} {o : Operation} {used : List (Except Fault (Answer o))}
  {result : Except Fault (Service.Answer o)} {s : Situation}

theorem Meaning.not_cloud (h : Meaning f o result) (hg : result = .error g) :
    g.trouble.isCloud = false := by
  cases h with
  | unknownBalancer => cases hg
  | rejected | library =>
    cases hg
    rfl
  | other h =>
    cases hg
    exact h

theorem Meaning.eq_error (h : Meaning f o result) (hf : f.trouble.isCloud = false) :
    result = .error f := by
  cases h with
  | unknownBalancer hr | rejected hr | library hr =>
    rw [hr] at hf
    cases hf
  | other => rfl

theorem Lapse.not_cloud (h : Lapse o f) : f.trouble.isCloud = false := by
  cases h <;> rfl

theorem Comes.not_cloud (h : Comes o used result) (hg : result = .error g) :
    g.trouble.isCloud = false := by
  cases h with
  | refused _ h => exact h.not_cloud hg
  | answered _ h => exact (h g hg).not_cloud

theorem meaning_toldAs (h : o = .describeBalancers → isUnknownBalancer f = false) :
    Meaning f o (.error (toldAs o f)) := by
  obtain ⟨trouble, causes⟩ := f
  cases trouble with
  | rejected r => exact .rejected rfl fun ho => by simpa [isUnknownBalancer] using h ho
  | «foreign» family name text =>
    cases family with
    | cloudLibrary => exact .library rfl
    | system | secureShell | other => exact .other rfl
  | _ => exact .other rfl

theorem meaning_unknownBalancer (h : isUnknownBalancer f = true) :
    Meaning f .describeBalancers (.ok []) := by
  obtain ⟨trouble, causes⟩ := f
  cases trouble with
  | rejected r => exact .unknownBalancer rfl (by simpa [isUnknownBalancer] using h)
  | _ => cases h

theorem Lapse.of_missing (h : ∃ key, f = .of (.missingKey key)) : Lapse o f := by
  obtain ⟨key, rfl⟩ := h
  exact .nameless key

theorem comes_of_reply (made : Except Fault (Answer o) → Except Fault (Service.Answer o))
    (hfault : ∀ f, Meaning f o (made (.error f)))
    (hanswer : ∀ a f, made (.ok a) = .error f → Lapse o f)
    (answers : List (Except Fault (Answer o))) :
    Comes o (answers.take 1) (made (replied answers (o.name .aws))) := by
  rcases answers with _ | ⟨f | a, rest⟩
  · refine .answered [] fun f hf => ?_
    cases ((hfault _).eq_error rfl).symm.trans hf
    exact .silent
  · exact .refused [] (hfault f)
  · exact .answered [a] fun f hf => hanswer a f hf

/-- All operations of one request but one are told of faults in the same way. What they make of the
answer needs no further request. -/
theorem serves_of_call (q : Request) (hq : q.operation ≠ .describeBalancers)
    {k : Answer q.operation → Action (Service.Answer q.operation)}
    (finish : Answer q.operation → Except Fault (Service.Answer q.operation))
    (hk : ∀ a t, k a t = (ofExcept (finish a) : Action _) t)
    (hfinish : ∀ a f, finish a = .error f → Lapse q.operation f) :
    Serves q.operation (call q >>= k) s := by
  have hafter : (call q >>= k).after s = (call q).after s := by
    rw [after_bind]
    cases (call q).outcome s with
    | error f => rfl
    | ok a =>
      refine (after_congr (hk a _)).trans ?_
      cases finish a <;> rfl
  have houtcome : (call q >>= k).outcome s =
      ((replied (s.aws q.operation) (q.operation.name .aws)).mapError (toldAs q.operation) >>=
        finish) := by
    rw [outcome_bind, ← outcome_call]
    cases (call q).outcome s with
    | error f => rfl
    | ok a =>
      refine (outcome_congr (hk a _)).trans ?_
      change _ = finish a
      cases finish a <;> rfl
  refine ⟨[q], ?_, ?_⟩
  · rw [hafter]
    exact sent_call q s
  · rw [houtcome]
    exact comes_of_reply (fun reply => reply.mapError (toldAs q.operation) >>= finish)
      (fun _ => meaning_toldAs fun h => absurd h hq) hfinish _

theorem serves_createInstances (count : Int) (t : LaunchTemplate) :
    Serves .createInstances (createInstances count t) s := by
  refine serves_of_call (.runInstances t.image t.instanceType count t.keyName (placement t)) nofun
    (fun answer => required "Instances" answer >>= fun ds => ds.mapM (·.toInstance))
    (fun answer _ => by cases answer <;> rfl) fun answer f h => ?_
  rcases except_bind_eq_error.mp h with h | ⟨ds, _, h⟩
  · exact .of_missing ⟨_, required_error h⟩
  · exact .of_missing (instances_error h)

theorem serves_createBalancer (name : Text) (zones : List Text) (l : Listener) :
    Serves .createBalancer (createBalancer name zones l) s :=
  serves_of_call (.createBalancer name zones l) nofun (fun dnsName => .ok ⟨name, dnsName, []⟩)
    (fun _ _ => rfl) nofun

theorem serves_terminateInstances (ids : List Text) :
    Serves .terminateInstances (terminateInstances ids) s := by
  rw [terminateInstances, ← bind_pure (call _)]
  exact serves_of_call (.terminateInstances ids) nofun .ok (fun _ _ => rfl) nofun

theorem serves_registerInstances (balancer : Text) (ids : List Text) :
    Serves .registerInstances (registerInstances balancer ids) s := by
  rw [registerInstances, ← bind_pure (call _)]
  exact serves_of_call (.registerInstances balancer ids) nofun .ok (fun _ _ => rfl) nofun

/-- What is made of the reply when balancers are described. -/
def balancersOf : Except Fault (List BalancerDescription) → Except Fault (List Balancer)
  | .ok descriptions => descriptions.mapM (·.toBalancer)
  | .error f => if isUnknownBalancer f then .ok [] else .error (toldAs .describeBalancers f)

theorem outcome_describeBalancers (names : List Text) (s : Situation) :
    (describeBalancers names).outcome s =
      balancersOf (replied (s.aws .describeBalancers) (Operation.describeBalancers.name .aws)) := by
  have hsend := outcome_send (.describeBalancers names) s
  change _ = replied (s.aws .describeBalancers) (Operation.describeBalancers.name .aws) at hsend
  rw [← hsend]
  cases hr : (send (.describeBalancers names)).outcome s with
  | ok descriptions =>
    refine (outcome_congr (bind_run (attempt_ok (run_ok hr)))).trans ?_
    dsimp only [balancersOf]
    cases descriptions.mapM (·.toBalancer) <;> rfl
  | error f =>
    refine (outcome_congr (bind_run (attempt_error (run_error hr)))).trans ?_
    dsimp only [balancersOf, toldAs]
    split
    · rfl
    · cases refusal .describeBalancers f <;> rfl

theorem serves_describeBalancers (names : List Text) :
    Serves .describeBalancers (describeBalancers names) s := by
  refine ⟨[.describeBalancers names], ?_, ?_⟩
  · rw [after_describeBalancers]
    exact sent_send (.describeBalancers names) s
  · rw [outcome_describeBalancers]
    refine comes_of_reply (o := .describeBalancers) balancersOf (fun f => ?_)
      (fun descriptions f h => ?_) _
    · dsimp only [balancersOf]
      cases hf : isUnknownBalancer f with
      | true => exact meaning_unknownBalancer hf
      | false => exact meaning_toldAs fun _ => hf
    · exact .of_missing (balancers_error h)

/-- A page before the others ends nothing. -/
theorem Comes.more {used : List (Except Fault (Answer .describeInstances))}
    {result : Except Fault (Service.Answer .describeInstances)}
    (h : Comes .describeInstances used result) (p : Page) (l : List Instance) :
    Comes .describeInstances (.ok p :: used) (result.map (l ++ ·)) := by
  cases h with
  | refused used h =>
    refine .refused (o := .describeInstances) (p :: used) ?_
    cases h with
    | rejected h hcode => exact .rejected h hcode
    | library h => exact .library h
    | other h => exact .other h
  | answered used h =>
    refine .answered (o := .describeInstances) (p :: used) fun f hf => ?_
    cases result with
    | ok more => cases hf
    | error g =>
      cases hf
      exact h _ rfl

theorem Pages.comes {ids addresses : List Text} {token : Option Text}
    {answers : List (Except Fault Page)} {requests : List Request}
    {result : Except Fault (List Instance)}
    (h : Pages ids addresses token answers requests result) :
    Comes .describeInstances (answers.take requests.length) result := by
  induction h with
  | silent =>
    refine .answered [] fun f hf => ?_
    cases hf
    exact .silent
  | failed => exact .refused [] (meaning_toldAs nofun)
  | nameless hp =>
    refine .answered [_] fun f hf => ?_
    cases hf
    exact .of_missing (instances_error hp)
  | last hp =>
    exact .answered [_] nofun
  | more _ _ _ ih => exact ih.more _ _

theorem serves_describeInstances (ids addresses : List Text) :
    Serves .describeInstances (describeInstances ids addresses) s := by
  by_cases hnone : ids = [] ∧ addresses = []
  · have hrun : describeInstances ids addresses s =
        .error (.of (.misuse .nothingToDescribe)) s := by
      rw [describeInstances, if_pos hnone]
      rfl
    refine ⟨[], ?_, ?_⟩
    · rw [after_of_error hrun]
      exact .refl _ s
    · rw [outcome, hrun]
      refine .answered [] fun f hf => ?_
      cases hf
      exact .aimless
  · have hrun := describeInstances_run (s := s) hnone
    obtain ⟨requests, hpages, hsent⟩ :=
      describePages_pages ids addresses _ none s (Nat.lt_succ_self _)
    refine ⟨requests, ?_, ?_⟩
    · rw [after_congr hrun]
      exact hsent
    · rw [outcome_congr hrun]
      exact hpages.comes

/-- Whatever fails a request of an operation, the fleet hears of it as a failed call of the cloud if
it is AWS or its library, and else as it is. An unknown balancer alone is taken for none. No fault
of AWS or its library gets out as it is. -/
theorem serve_contains (r : Service.Request) (s : Situation) :
    ∃ requests, s.Sent r.operation requests ((Provider.aws.serve r).after s) ∧
      Comes r.operation ((s.aws r.operation).take requests.length)
        ((Provider.aws.serve r).outcome s) ∧
      ∀ f, (Provider.aws.serve r).outcome s = .error f → f.trouble.isCloud = false := by
  have hserves : Serves r.operation (Provider.aws.serve r) s := by
    cases r with
    | createInstances count template => exact serves_createInstances count template
    | describeInstances ids addresses => exact serves_describeInstances _ _
    | terminateInstances ids => exact serves_terminateInstances ids
    | createBalancer name zones l => exact serves_createBalancer name zones l
    | describeBalancers names => exact serves_describeBalancers names
    | registerInstances balancer ids => exact serves_registerInstances balancer ids
  obtain ⟨requests, hsent, hcomes⟩ := hserves
  exact ⟨requests, hsent, hcomes, fun _ => hcomes.not_cloud⟩

end Aws

end Cloud

end AgentFleet
