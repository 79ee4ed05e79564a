import AgentFleet.Proofs.Contacting

namespace AgentFleet
open AgentFleet.Action AgentFleet.Connector Situation

section Reached

variable (failure? : Agent → Option Fault)

/-- The agents up to the first that fails. -/
def reached (agents : List Agent) : List Agent :=
  agents.take (agents.findIdx (fun a => (failure? a).isSome) + 1)

/-- The failure of the first agent that fails. -/
def firstFailure? (agents : List Agent) : Option Fault :=
  agents.findSome? fun a => (failure? a).map (undelivered a)

variable {failure?} {a : Agent}

theorem reached_cons_some {f : Fault} (h : failure? a = some f) (rest : List Agent) :
    reached failure? (a :: rest) = [a] := by
  simp [reached, List.findIdx_cons, h]

theorem reached_cons_none (h : failure? a = none) (rest : List Agent) :
    reached failure? (a :: rest) = a :: reached failure? rest := by
  simp [reached, List.findIdx_cons, h]

theorem firstFailure?_cons_some {f : Fault} (h : failure? a = some f) (rest : List Agent) :
    firstFailure? failure? (a :: rest) = some (undelivered a f) := by
  simp [firstFailure?, h]

theorem firstFailure?_cons_none (h : failure? a = none) (rest : List Agent) :
    firstFailure? failure? (a :: rest) = firstFailure? failure? rest := by
  simp [firstFailure?, h]

theorem firstFailure?_eq (agents : List Agent) :
    firstFailure? failure? agents =
      agents[agents.findIdx fun a => (failure? a).isSome]?.bind fun a =>
        (failure? a).map (undelivered a) := by
  induction agents with
  | nil => rfl
  | cons a rest ih =>
    rw [List.findIdx_cons]
    cases h : failure? a with
    | some f => simp [firstFailure?_cons_some h, h]
    | none => simp [firstFailure?_cons_none h, ih]

end Reached

namespace Connector

/-- The failure of an agent to take a message, when a link to it is opened or used. -/
def failure? (c : Connector) (m : Message) (s : Situation) (a : Agent) : Option Fault :=
  match (c.connect a).outcome s with
  | .error f => some f
  | .ok link =>
    match (link.send m).outcome s with
    | .error f => some f
    | .ok _ => none

/-- The steps on a link to an agent up to the handing over of a message. -/
def steps (c : Connector) (m : Message) (s : Situation) (a : Agent) : List LinkEvent :=
  c.openSteps (s.hosts a.publicAddress) a ++
    if (s.hosts a.publicAddress).opening.isOk then
      [.ran a.publicAddress (m.command c.control.shown)]
    else []

/-- The agents to which a link opens. -/
def linked (s : Situation) (agents : List Agent) : List Agent :=
  agents.filter fun a => (s.hosts a.publicAddress).opening.isOk

variable {c : Connector} {m : Message} {s t : Situation} {a : Agent} {agents : List Agent}

theorem failure?_congr (h : t.hosts = s.hosts) : c.failure? m t = c.failure? m s := by
  funext a
  unfold failure?
  rw [(connect_takes t c a).1, (connect_takes s c a).1, h]
  cases c.opened (s.hosts a.publicAddress) a with
  | error f => rfl
  | ok link =>
    dsimp only
    rw [(send_takes t link m).1, (send_takes s link m).1, h]

theorem steps_congr (h : t.hosts = s.hosts) : c.steps m t = c.steps m s := by
  funext a
  simp only [steps, h]

theorem linked_congr (h : t.hosts = s.hosts) : linked t agents = linked s agents := by
  unfold linked
  rw [h]

theorem opened_eq_ok {h : Host} {link : Link} (ho : c.opened h a = .ok link) :
    link = ⟨a, c.control⟩ ∧ h.opening.isOk = true := by
  unfold opened at ho
  cases hopen : h.opening with
  | ok _ =>
    rw [hopen] at ho
    cases ho
    exact ⟨rfl, rfl⟩
  | error f =>
    rw [hopen] at ho
    dsimp only at ho
    split at ho
    · obtain ⟨_, _, ho⟩ := except_bind_eq_ok.mp ho
      cases ho
    · cases ho

theorem opened_eq_error {h : Host} {f : Fault} (ho : c.opened h a = .error f) :
    h.opening.isOk = false := by
  unfold opened at ho
  cases hopen : h.opening with
  | ok _ =>
    rw [hopen] at ho
    cases ho
  | error g => rfl

/-- A link to an agent does not open, or it opens and the message is handed over. -/
theorem contact_cases (c : Connector) (m : Message) (s : Situation) (a : Agent) :
    (∃ f, c.failure? m s a = some f ∧ (s.hosts a.publicAddress).opening.isOk = false ∧
      Takes (c.connect a) s (c.steps m s a) (.error f)) ∨
    ∃ result, (c.failure? m s a = match result with
        | .ok _ => none
        | .error f => some f) ∧
      (s.hosts a.publicAddress).opening.isOk = true ∧
      c.steps m s a = c.openSteps (s.hosts a.publicAddress) a ++
        [.ran a.publicAddress (m.command c.control.shown)] ∧
      Takes (c.connect a) s (c.openSteps (s.hosts a.publicAddress) a) (.ok ⟨a, c.control⟩) ∧
      ∀ t, t.hosts = s.hosts → Takes (Link.send ⟨a, c.control⟩ m) t
        [.ran a.publicAddress (m.command c.control.shown)] result := by
  have hconnect := connect_takes s c a
  unfold failure? steps
  rw [hconnect.1]
  cases hopened : c.opened (s.hosts a.publicAddress) a with
  | error f =>
    have hopens := opened_eq_error hopened
    rw [hopened] at hconnect
    refine .inl ⟨f, rfl, hopens, ?_⟩
    simpa [hopens] using hconnect
  | ok link =>
    obtain ⟨rfl, hopens⟩ := opened_eq_ok hopened
    rw [hopened] at hconnect
    have hsend : ∀ t, t.hosts = s.hosts → Takes (Link.send ⟨a, c.control⟩ m) t
        [.ran a.publicAddress (m.command c.control.shown)]
        ((Link.mk a c.control).sent (s.hosts a.publicAddress) m) := by
      intro t ht
      rw [← ht]
      exact send_takes t ⟨a, c.control⟩ m
    refine .inr ⟨_, ?_, hopens, by rw [hopens]; rfl, hconnect, hsend⟩
    dsimp only
    rw [(hsend s rfl).1]
    cases (Link.mk a c.control).sent (s.hosts a.publicAddress) m with
    | ok outcome => rfl
    | error f => rfl

end Connector

namespace Sequential

variable (c : Connector) (m : Message)

/-- Those are contacted that come before the first failure, and the one that fails. -/
theorem sendEach_takes (agents : List Agent) (s : Situation) :
    Takes (sendEach c m agents) s ((reached (c.failure? m s) agents).flatMap (c.steps m s))
      (.ok ((linked s (reached (c.failure? m s) agents)).map (⟨·, c.control⟩),
        firstFailure? (c.failure? m s) agents)) := by
  induction agents generalizing s with
  | nil => exact .pure _ s
  | cons a rest ih =>
    rcases contact_cases c m s a with
      ⟨f, hf, hopens, hconnect⟩ | ⟨result, hf, hopens, hsteps, hconnect, hsend⟩
    · rw [reached_cons_some hf, firstFailure?_cons_some hf, List.flatMap_singleton]
      simp only [linked, List.filter_cons, hopens, List.filter_nil]
      exact hconnect.attempt.last fun t _ => .pure _ t
    · cases result with
      | error f =>
        rw [reached_cons_some hf, firstFailure?_cons_some hf, List.flatMap_singleton, hsteps]
        simp only [linked, List.filter_cons, hopens, List.filter_nil]
        exact hconnect.attempt.bind fun t ht => (hsend t ht).attempt.last fun u _ => .pure _ u
      | ok outcome =>
        rw [reached_cons_none hf, firstFailure?_cons_none hf, List.flatMap_cons, hsteps,
          List.append_assoc]
        simp only [linked, List.filter_cons, hopens]
        refine hconnect.attempt.bind fun t ht => (hsend t ht).attempt.bind fun u hu => ?_
        -- The rest is sent to from elsewhere, where the hosts behave as here.
        have hhosts := hu.trans ht
        have hrest := ih u
        simp only [steps_congr hhosts, linked_congr hhosts, failure?_congr hhosts] at hrest
        exact hrest.last fun v _ => .pure _ v

theorem closeEach_takes (links : List Link) (s : Situation) :
    Takes (closeEach links) s (links.map fun l => .closed l.agent.publicAddress) (.ok ()) := by
  induction links generalizing s with
  | nil => exact .pure _ s
  | cons l rest ih =>
    have hclose := closeHost_takes s l.agent.publicAddress
    refine hclose.attempt.bind fun t _ => ?_
    cases (s.hosts l.agent.publicAddress).closing with
    | ok _ => exact ih t
    | error f =>
      obtain ⟨u, hwarn, htold⟩ := warn_told
        ("Failed to close connection to " ++ l.agent.publicAddress ++ ": " ++ f.message) t
      exact (Takes.of_told hwarn htold).bind fun u _ => ih u

theorem deliver_takes (agents : List Agent) (s : Situation) :
    Takes (deliver c m agents) s
      ((reached (c.failure? m s) agents).flatMap (c.steps m s) ++
        (linked s (reached (c.failure? m s) agents)).map (.closed ·.publicAddress))
      (match firstFailure? (c.failure? m s) agents with
        | none => .ok agents.length
        | some f => .error f) := by
  unfold deliver
  refine (sendEach_takes c m agents s).bind fun t _ => ?_
  dsimp only
  have hclose := closeEach_takes
    ((linked s (reached (c.failure? m s) agents)).map (⟨·, c.control⟩)) t
  rw [List.map_map] at hclose
  refine hclose.last fun u _ => ?_
  cases firstFailure? (c.failure? m s) agents with
  | none => exact .pure _ u
  | some f => exact .throw f u

end Sequential

theorem broadcast_sequential_takes (c : Connector) (m : Message) (s : Situation) :
    Takes (broadcast c .sequential m) s
      ((reached (c.failure? m s) s.roster.agents).flatMap (c.steps m s) ++
        (linked s (reached (c.failure? m s) s.roster.agents)).map (.closed ·.publicAddress))
      (match firstFailure? (c.failure? m s) s.roster.agents with
        | none => .ok s.roster.agents.length
        | some f => .error f) := by
  by_cases hne : s.roster.agents = []
  · have h := broadcast_takes_none (c := c) (d := .sequential) (m := m) hne
    rw [hne]
    exact h
  · refine broadcast_takes hne fun t ht => ?_
    have h := Sequential.deliver_takes c m s.roster.agents t
    simp only [steps_congr ht, linked_congr ht, failure?_congr ht] at h
    exact h

/-- Links are made for the agents up to the first that fails, in order. The message is handed over
to those to which a link opens. These links are closed after that, in order, whatever comes of it;
one that does not open is closed at once where the trouble is its own. -/
theorem broadcast_sequential (c : Connector) (m : Message) (s : Situation) :
    let agents := s.roster.agents
    let k := agents.findIdx fun a => (c.failure? m s a).isSome
    let opened := (agents.take (k + 1)).filter fun a => (s.hosts a.publicAddress).opening.isOk
    Linked ((agents.take (k + 1)).flatMap (c.steps m s) ++ opened.map (.closed ·.publicAddress))
        s ((broadcast c .sequential m).after s) ∧
      (k = agents.length → (broadcast c .sequential m).outcome s = .ok agents.length) ∧
      ∀ a, agents[k]? = some a → ∃ f, c.failure? m s a = some f ∧
        (broadcast c .sequential m).outcome s = .error (undelivered a f) := by
  obtain ⟨houtcome, hlinked⟩ := broadcast_sequential_takes c m s
  rw [firstFailure?_eq] at houtcome
  refine ⟨hlinked, fun hk => ?_, fun a ha => ?_⟩
  · rw [hk, List.getElem?_eq_none (Nat.le_refl _)] at houtcome
    exact houtcome
  · obtain ⟨hlt, hget⟩ := List.getElem?_eq_some_iff.mp ha
    have hfails := List.findIdx_getElem (w := hlt)
    rw [hget] at hfails
    obtain ⟨f, hf⟩ := Option.isSome_iff_exists.mp hfails
    rw [ha, Option.bind_some, hf] at houtcome
    exact ⟨f, hf, houtcome⟩

end AgentFleet
