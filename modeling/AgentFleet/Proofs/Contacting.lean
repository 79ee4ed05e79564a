import AgentFleet.Broadcast
import AgentFleet.Proofs.CloudCalls

namespace AgentFleet
open AgentFleet.Action

def Event.link? : Event → Option LinkEvent
  | .link step => some step
  | _ => none

def Event.isLogged : Event → Bool
  | .logged .. => true
  | _ => false

namespace Situation

/-- The steps on links, in order. -/
def links (s : Situation) : List LinkEvent :=
  s.events.filterMap Event.link?

/-- `t` is `s` after these steps on links, and with more in the log. -/
def Linked (steps : List LinkEvent) (s t : Situation) : Prop :=
  ∃ done : List Event, t = { s with history := done.reverse ++ s.history } ∧
    done.filterMap Event.link? = steps ∧ ∀ e ∈ done, e.link? = none → e.isLogged

namespace Linked

variable {steps more : List LinkEvent} {s t u : Situation}

theorem refl (s : Situation) : Linked [] s s :=
  ⟨[], rfl, rfl, by simp⟩

theorem trans (h : Linked steps s t) (h' : Linked more t u) : Linked (steps ++ more) s u := by
  obtain ⟨done, rfl, hsteps, hlogged⟩ := h
  obtain ⟨done', rfl, hmore, hlogged'⟩ := h'
  refine ⟨done ++ done', by simp, by simp [hsteps, hmore], fun e he => ?_⟩
  rcases List.mem_append.mp he with he | he
  · exact hlogged e he
  · exact hlogged' e he

theorem step (s : Situation) (step : LinkEvent) : Linked [step] s (s.record (.link step)) :=
  ⟨[.link step], rfl, rfl, by simp [Event.link?]⟩

theorem links_eq (h : Linked steps s t) : t.links = s.links ++ steps := by
  obtain ⟨done, rfl, rfl, _⟩ := h
  simp [links, events]

theorem hosts_eq (h : Linked steps s t) : t.hosts = s.hosts := by
  obtain ⟨_, rfl, _⟩ := h
  rfl

end Linked

theorem Told.linked {s t : Situation} (h : s.Told t) : Linked [] s t := by
  obtain ⟨told, rfl, hlogged⟩ := h
  refine ⟨told.reverse, by simp, List.filterMap_eq_nil_iff.mpr fun e he => ?_, fun e he _ => ?_⟩
  · obtain ⟨severity, text, rfl⟩ := hlogged e (List.mem_reverse.mp he)
    rfl
  · obtain ⟨severity, text, rfl⟩ := hlogged e (List.mem_reverse.mp he)
    rfl

end Situation

open Situation

namespace Action

/-- An action takes these steps on links, and this comes of it. -/
def Takes (act : Action α) (s : Situation) (steps : List LinkEvent) (result : Except Fault α) :
    Prop :=
  act.outcome s = result ∧ Linked steps s (act.after s)

namespace Takes

variable {act : Action α} {s : Situation} {steps more : List LinkEvent} {result : Except Fault α}

theorem ok {a : α} (h : Takes act s steps (.ok a)) : ∃ t, act s = .ok a t ∧ Linked steps s t :=
  ⟨_, run_ok h.1, h.2⟩

theorem error {f : Fault} (h : Takes act s steps (.error f)) :
    ∃ t, act s = .error f t ∧ Linked steps s t :=
  ⟨_, run_error h.1, h.2⟩

theorem of_told {a : α} {t : Situation} (h : act s = .ok a t) (ht : s.Told t) :
    Takes act s [] (.ok a) := by
  unfold Takes outcome after
  rw [h]
  exact ⟨rfl, ht.linked⟩

theorem pure (a : α) (s : Situation) : Takes (Pure.pure a) s [] (.ok a) :=
  ⟨rfl, .refl s⟩

theorem throw (f : Fault) (s : Situation) :
    Takes (MonadExcept.throw f : Action α) s [] (.error f) :=
  ⟨rfl, .refl s⟩

theorem ofExcept (x : Except Fault α) (s : Situation) :
    Takes (MonadExcept.ofExcept x) s [] x := by
  cases x with
  | ok a => exact pure a s
  | error f => exact throw f s

theorem record (step : LinkEvent) (s : Situation) :
    Takes (Action.record (.link step)) s [step] (.ok ()) :=
  ⟨rfl, .step s step⟩

theorem of_error {f : Fault} {t : Situation} (h : act s = .error f t) (hl : Linked steps s t) :
    Takes act s steps (.error f) := by
  unfold Takes outcome after
  rw [h]
  exact ⟨rfl, hl⟩

/-- The action goes on as another one does elsewhere. -/
theorem then_as {other : Action α} {t : Situation} (h : act s = other t) (hl : Linked steps s t)
    (ho : Takes other t more result) : Takes act s (steps ++ more) result := by
  unfold Takes
  rw [outcome_congr h, after_congr h]
  exact ⟨ho.1, hl.trans ho.2⟩

theorem get_bind {f : Situation → Action α} (h : Takes (f s) s steps result) :
    Takes (get >>= f) s steps result :=
  h

/-- The second action starts where the first one led to. There the hosts behave as before. -/
theorem bind {a : α} {f : α → Action β} {result : Except Fault β}
    (h : Takes act s steps (.ok a))
    (hf : ∀ t, t.hosts = s.hosts → Takes (f a) t more result) :
    Takes (act >>= f) s (steps ++ more) result := by
  obtain ⟨houtcome, hsteps⟩ := h
  obtain ⟨houtcome', hmore⟩ := hf _ hsteps.hosts_eq
  constructor
  · rw [outcome_bind, houtcome]
    exact houtcome'
  · rw [after_bind, houtcome]
    exact hsteps.trans hmore

/-- The second action takes no steps. -/
theorem last {a : α} {f : α → Action β} {result : Except Fault β}
    (h : Takes act s steps (.ok a)) (hf : ∀ t, t.hosts = s.hosts → Takes (f a) t [] result) :
    Takes (act >>= f) s steps result := by
  rw [← List.append_nil steps]
  exact h.bind hf

theorem bind_error {f : α → Action β} {e : Fault} (h : Takes act s steps (.error e)) :
    Takes (act >>= f) s steps (.error e) := by
  obtain ⟨houtcome, hsteps⟩ := h
  constructor
  · rw [outcome_bind, houtcome]
    rfl
  · rw [after_bind, houtcome]
    exact hsteps

theorem attempt (h : Takes act s steps result) : Takes act.attempt s steps (.ok result) := by
  cases result with
  | ok a =>
    obtain ⟨t, hrun, hsteps⟩ := h.ok
    unfold Takes outcome after
    rw [attempt_ok hrun]
    exact ⟨rfl, hsteps⟩
  | error f =>
    obtain ⟨t, hrun, hsteps⟩ := h.error
    unfold Takes outcome after
    rw [attempt_error hrun]
    exact ⟨rfl, hsteps⟩

theorem always {after : Action Unit} {closing : Except Fault Unit} (h : Takes act s steps result)
    (hafter : ∀ t, t.hosts = s.hosts → Takes after t more closing) :
    Takes (act.always after) s (steps ++ more) (closing >>= fun _ => result) := by
  refine h.attempt.bind fun t ht => ?_
  cases closing with
  | ok _ => exact (hafter t ht).last fun u _ => Takes.ofExcept result u
  | error f => exact (hafter t ht).bind_error

theorem explain_ok {a : α} (meaning : Fault → Option Trouble) (h : Takes act s steps (.ok a)) :
    Takes (act.explain meaning) s steps (.ok a) :=
  h.attempt.last fun t _ => .pure a t

theorem explain_error {f : Fault} (meaning : Fault → Option Trouble)
    (h : Takes act s steps (.error f)) :
    Takes (act.explain meaning) s steps (.error (((meaning f).map f.because).getD f)) := by
  refine h.attempt.last fun t _ => ?_
  dsimp only
  cases meaning f with
  | none => exact .throw f t
  | some trouble => exact .throw _ t

end Takes

end Action

/-- What is done on a link to an agent when it is opened. One that does not open for trouble of its
own is closed at once. -/
def Connector.openSteps (c : Connector) (h : Host) (a : Agent) : List LinkEvent :=
  .connected a.publicAddress c.user c.timeout c.keyFile :: .opened a.publicAddress ::
    match h.opening with
    | .ok () => []
    | .error f => if f.trouble.isConnection then [.closed a.publicAddress] else []

/-- What comes of opening a link to an agent. -/
def Connector.opened (c : Connector) (h : Host) (a : Agent) : Except Fault Link :=
  match h.opening with
  | .ok () => .ok ⟨a, c.control⟩
  | .error f =>
    if f.trouble.isConnection then
      h.closing >>= fun _ => .error (f.because (.link (.notConnected a.publicAddress f.message)))
    else .error f

/-- What comes of handing a message over. -/
def Link.sent (l : Link) (h : Host) (m : Message) : Except Fault Outcome :=
  match h.running with
  | .ok outcome =>
    if outcome.exitCode ≠ 0 then
      .error (.of (.link (.notAccepted l.agent.publicAddress m.type outcome.exitCode
        (Text.strip outcome.errors))))
    else .ok outcome
  | .error f =>
    .error (if f.trouble.isConnection then
      f.because (.link (.notReached l.agent.publicAddress f.message)) else f)

theorem connectionTrouble_getD (t : Text → LinkTrouble) (f : Fault) :
    ((connectionTrouble t f).map f.because).getD f =
      if f.trouble.isConnection then f.because (.link (t f.message)) else f := by
  unfold connectionTrouble
  split
  · rfl
  · rfl

variable (s : Situation)

theorem closeHost_takes (host : Text) :
    Takes (closeHost host) s [.closed host] (s.hosts host).closing := by
  refine (Takes.record _ s).last fun t ht => ?_
  rw [← ht]
  exact Takes.ofExcept _ t

theorem connect_takes (c : Connector) (a : Agent) :
    Takes (c.connect a) s (c.openSteps (s.hosts a.publicAddress) a)
      (c.opened (s.hosts a.publicAddress) a) := by
  refine (Takes.record _ s).bind fun t ht => (Takes.record _ t).bind fun u hu => ?_
  rw [← ht, ← hu]
  unfold Connector.opened
  change Takes (match (u.hosts a.publicAddress).opening with | .ok () => _ | .error f => _) u _ _
  cases (u.hosts a.publicAddress).opening with
  | ok _ => exact .pure _ u
  | error f =>
    dsimp only [connectionTrouble]
    cases f.trouble.isConnection with
    | false => exact .throw f u
    | true =>
      have hclose := closeHost_takes u a.publicAddress
      cases hclosing : (u.hosts a.publicAddress).closing with
      | ok _ =>
        rw [hclosing] at hclose
        exact hclose.bind fun v _ => .throw _ v
      | error g =>
        rw [hclosing] at hclose
        exact hclose.bind_error

theorem send_takes (l : Link) (m : Message) :
    Takes (l.send m) s [.ran l.agent.publicAddress (m.command l.control.shown)]
      (l.sent (s.hosts l.agent.publicAddress) m) := by
  have hrun : Takes (l.run (m.command l.control.shown)) s
      [.ran l.agent.publicAddress (m.command l.control.shown)]
      (s.hosts l.agent.publicAddress).running := by
    refine (Takes.record _ s).last fun t ht => ?_
    rw [← ht]
    exact Takes.ofExcept _ t
  unfold Link.sent
  cases hr : (s.hosts l.agent.publicAddress).running with
  | ok outcome =>
    rw [hr] at hrun
    have h := hrun.explain_ok (connectionTrouble (.notReached l.agent.publicAddress))
    refine h.last fun t _ => ?_
    dsimp only
    split
    · exact .throw _ t
    · exact .pure _ t
  | error f =>
    rw [hr] at hrun
    have h := hrun.explain_error (connectionTrouble (.notReached l.agent.publicAddress))
    rw [connectionTrouble_getD] at h
    exact h.bind_error

/-- Besides the delivery a broadcast only tells what it does. -/
theorem broadcast_takes {c : Connector} {d : Delivery} {m : Message} {s : Situation}
    {steps : List LinkEvent} {result : Except Fault Nat} (hne : s.roster.agents ≠ [])
    (h : ∀ t, t.hosts = s.hosts → Takes (d.deliver c m s.roster.agents) t steps result) :
    Takes (broadcast c d m) s steps result := by
  unfold broadcast
  refine Takes.get_bind ?_
  rw [if_neg hne]
  obtain ⟨t, hinfo, htold⟩ := info_told ("Sending message " ++ m.type ++ " to " ++
    Text.ofNat s.roster.agents.length ++ " agent(s)") s
  refine (Takes.of_told hinfo htold).bind fun t ht => ?_
  cases result with
  | error f => exact (h t ht).bind_error
  | ok n =>
    refine (h t ht).last fun u _ => ?_
    obtain ⟨v, hinfo, htold⟩ := info_told "Message sent!" u
    exact (Takes.of_told hinfo htold).last fun w _ => .pure n w

theorem broadcast_takes_none {c : Connector} {d : Delivery} {m : Message} {s : Situation}
    (h : s.roster.agents = []) : Takes (broadcast c d m) s [] (.ok 0) := by
  unfold broadcast
  refine Takes.get_bind ?_
  rw [if_pos h]
  obtain ⟨t, hwarn, htold⟩ := warn_told
    ("No agents registered in " ++ s.roster.path ++ ". Nothing to send.") s
  exact (Takes.of_told hwarn htold).last fun u _ => .pure 0 u

end AgentFleet
