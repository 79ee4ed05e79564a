import AgentFleet.Proofs.OneWorker
import AgentFleet.Proofs.Sequence

namespace AgentFleet
open AgentFleet.Action AgentFleet.Connector Situation

theorem undelivered_inj {a b : Agent} {f g : Fault} (h : undelivered a f = undelivered b g) :
    a = b ∧ f = g := by
  obtain ⟨trouble, causes⟩ := f
  obtain ⟨trouble', causes'⟩ := g
  simp only [undelivered, Fault.because, Fault.mk.injEq, Trouble.notDelivered.injEq,
    List.cons.injEq] at h
  obtain ⟨⟨rfl, _⟩, rfl, rfl⟩ := h
  exact ⟨rfl, rfl⟩

section Reached

variable {p q : Agent → Option Fault}

/-- Where one way of failing is a failure in the other way, too, the first failures are the same
just if nobody fails otherwise before or there. -/
theorem firstFailure?_eq_iff (h : ∀ a f, p a = some f → q a ≠ none) (agents : List Agent) :
    firstFailure? p agents = firstFailure? q agents ↔ ∀ a ∈ reached p agents, p a = q a := by
  induction agents with
  | nil => simp [reached]; rfl
  | cons a rest ih =>
    cases hp : p a with
    | some f =>
      obtain ⟨g, hq⟩ := Option.ne_none_iff_exists'.mp (h a f hp)
      rw [firstFailure?_cons_some hp, firstFailure?_cons_some hq, reached_cons_some hp]
      simp only [List.mem_singleton, forall_eq, hp, hq, Option.some.injEq]
      refine ⟨fun he => (undelivered_inj he).2, fun he => by rw [he]⟩
    | none =>
      rw [firstFailure?_cons_none hp, reached_cons_none hp]
      cases hq : q a with
      | none =>
        rw [firstFailure?_cons_none hq, ih]
        simp [hp, hq]
      | some g =>
        rw [firstFailure?_cons_some hq]
        refine ⟨fun he => ?_, fun he => ?_⟩
        · obtain ⟨b, _, hb⟩ := List.exists_of_findSome?_eq_some he
          obtain ⟨f, hpb, hf⟩ := Option.map_eq_some_iff.mp hb
          rw [(undelivered_inj hf).1, hp] at hpb
          cases hpb
        · have := he a List.mem_cons_self
          rw [hp, hq] at this
          cases this

theorem reached_congr {agents : List Agent} (h : ∀ a ∈ reached p agents, p a = q a) :
    reached p agents = reached q agents := by
  induction agents with
  | nil => rfl
  | cons a rest ih =>
    cases hp : p a with
    | some f =>
      have hq := h a (by simp [reached_cons_some hp])
      rw [reached_cons_some hp, reached_cons_some (hq.symm.trans hp)]
    | none =>
      rw [reached_cons_none hp] at h ⊢
      have hq := h a List.mem_cons_self
      rw [reached_cons_none (hq.symm.trans hp), ih fun b hb => h b (List.mem_cons_of_mem _ hb)]

end Reached

namespace Connector

/-- The failure of an agent, a failure to close its link included; that displaces one before it. -/
def visitFailure? (c : Connector) (m : Message) (s : Situation) (a : Agent) : Option Fault :=
  if (s.hosts a.publicAddress).opening.isOk then
    match (s.hosts a.publicAddress).closing with
    | .ok () => c.failure? m s a
    | .error f => some f
  else c.failure? m s a

def visitSteps (c : Connector) (m : Message) (s : Situation) (a : Agent) : List LinkEvent :=
  c.steps m s a ++
    if (s.hosts a.publicAddress).opening.isOk then [.closed a.publicAddress] else []

theorem visit_eq (k : Contact Situation κ) (a : Agent) :
    k.visit a = k.connect a >>= fun link => Action.always (k.use link) (k.close link) := by
  funext s
  change _ = EStateM.bind (k.connect a) (fun link => Action.always (k.use link) (k.close link)) s
  unfold Contact.visit EStateM.bind
  cases k.connect a s with
  | error f t => rfl
  | ok link t =>
    dsimp only
    change _ = EStateM.bind (attempt (k.use link)) _ t
    unfold EStateM.bind attempt
    cases k.use link t with
    | ok _ u =>
      change _ = EStateM.bind (k.close link) _ u
      unfold EStateM.bind
      dsimp only
      cases k.close link u with
      | ok _ v => rfl
      | error g v => rfl
    | error f u =>
      change _ = EStateM.bind (k.close link) _ u
      unfold EStateM.bind
      dsimp only
      cases k.close link u with
      | ok _ v => rfl
      | error g v => rfl

theorem visit_takes (c : Connector) (m : Message) (s : Situation) (a : Agent) :
    Takes ((c.contact m).visit a) s (c.visitSteps m s a)
      (match c.visitFailure? m s a with
        | none => .ok ()
        | some f => .error f) := by
  rw [visit_eq]
  unfold visitFailure? visitSteps
  rcases contact_cases c m s a with
    ⟨f, hf, hopens, hconnect⟩ | ⟨result, hf, hopens, hsteps, hconnect, hsend⟩
  · rw [hopens, hf]
    simp only [Bool.false_eq_true, if_false, List.append_nil]
    exact hconnect.bind_error
  · have huse : ∀ t, t.hosts = s.hosts → Takes ((c.contact m).use ⟨a, c.control⟩) t
        [.ran a.publicAddress (m.command c.control.shown)] (result.map fun _ => ()) := by
      intro t ht
      cases result with
      | ok outcome => exact (hsend t ht).last fun u _ => .pure () u
      | error f => exact (hsend t ht).bind_error
    have hclose : ∀ t, t.hosts = s.hosts → Takes (Link.close ⟨a, c.control⟩) t
        [.closed a.publicAddress] (s.hosts a.publicAddress).closing := by
      intro t ht
      rw [← ht]
      exact closeHost_takes t a.publicAddress
    rw [hopens, hf, hsteps, List.append_assoc]
    refine hconnect.bind fun t ht => ?_
    have h := (huse t ht).always fun u hu => hclose u (hu.trans ht)
    cases hc : (s.hosts a.publicAddress).closing with
    | ok _ =>
      rw [hc] at h
      cases result with
      | ok outcome => exact h
      | error f => exact h
    | error g =>
      rw [hc] at h
      exact h

theorem eq_visitFailure?_iff {c : Connector} {m : Message} {s : Situation} {a : Agent} :
    c.failure? m s a = c.visitFailure? m s a ↔
      ((s.hosts a.publicAddress).opening.isOk → ∀ f, (s.hosts a.publicAddress).closing = .error f →
        c.failure? m s a = some f) := by
  unfold visitFailure?
  cases (s.hosts a.publicAddress).opening.isOk with
  | false => simp
  | true =>
    cases (s.hosts a.publicAddress).closing with
    | ok _ => simp
    | error g => simp

/-- Who fails without regard to the closing fails with regard to it, too. -/
theorem visitFailure?_ne_none {c : Connector} {m : Message} {s : Situation} {a : Agent} {f : Fault}
    (h : c.failure? m s a = some f) : c.visitFailure? m s a ≠ none := by
  unfold visitFailure?
  split
  · split
    · simp [h]
    · simp
  · simp [h]

theorem visitFailure?_congr {c : Connector} {m : Message} {s t : Situation}
    (h : t.hosts = s.hosts) : c.visitFailure? m t = c.visitFailure? m s := by
  funext a
  unfold visitFailure?
  rw [failure?_congr h, h]

theorem visitSteps_congr {c : Connector} {m : Message} {s t : Situation}
    (h : t.hosts = s.hosts) : c.visitSteps m t = c.visitSteps m s := by
  funext a
  unfold visitSteps
  rw [steps_congr h, h]

theorem inTurn_takes (c : Connector) (m : Message) (s : Situation) (agents : List Agent) :
    Takes ((c.contact m).inTurn agents) s
      ((reached (c.visitFailure? m s) agents).flatMap (c.visitSteps m s))
      (match firstFailure? (c.visitFailure? m s) agents with
        | none => .ok ()
        | some f => .error f) := by
  induction agents generalizing s with
  | nil => exact .pure () s
  | cons a rest ih =>
    have hvisit := visit_takes c m s a
    cases hf : c.visitFailure? m s a with
    | some f =>
      rw [hf] at hvisit
      obtain ⟨t, hrun, hsteps⟩ := hvisit.error
      rw [reached_cons_some hf, firstFailure?_cons_some hf, List.flatMap_singleton]
      exact .of_error (Contact.inTurn_error hrun rest) hsteps
    | none =>
      rw [hf] at hvisit
      obtain ⟨t, hrun, hsteps⟩ := hvisit.ok
      rw [reached_cons_none hf, firstFailure?_cons_none hf, List.flatMap_cons]
      have hrest := ih t
      rw [visitFailure?_congr hsteps.hosts_eq, visitSteps_congr hsteps.hosts_eq] at hrest
      exact .then_as (Contact.inTurn_ok hrun rest) hsteps hrest

end Connector

theorem broadcast_one_takes (c : Connector) (m : Message) (s : Situation) :
    Takes (broadcast c (.parallel 1 Nat.one_pos) m) s
      ((reached (c.visitFailure? m s) s.roster.agents).flatMap (c.visitSteps m s))
      (match firstFailure? (c.visitFailure? m s) s.roster.agents with
        | none => .ok s.roster.agents.length
        | some f => .error f) := by
  by_cases hne : s.roster.agents = []
  · have h := broadcast_takes_none (c := c) (d := .parallel 1 Nat.one_pos) (m := m) hne
    rw [hne]
    exact h
  · refine broadcast_takes hne fun t ht => ?_
    have h := inTurn_takes c m t s.roster.agents
    rw [visitFailure?_congr ht, visitSteps_congr ht] at h
    change Takes (Parallel.deliver (c.contact m) 1 s.roster.agents) t _ _
    rw [Parallel.deliver_one]
    cases hf : firstFailure? (c.visitFailure? m s) s.roster.agents with
    | none =>
      rw [hf] at h
      exact h.last fun u _ => .pure _ u
    | some f =>
      rw [hf] at h
      exact h.bind_error

/-- The command that is run on a host. -/
def LinkEvent.command? : LinkEvent → Option (Text × Text)
  | .ran host command => some (host, command)
  | _ => none

/-- The commands that were run on hosts, in order. -/
def Situation.commands (s : Situation) : List (Text × Text) :=
  s.links.filterMap LinkEvent.command?

theorem commands_visitSteps (c : Connector) (m : Message) (s : Situation) (a : Agent) :
    (c.visitSteps m s a).filterMap LinkEvent.command? =
      (c.steps m s a).filterMap LinkEvent.command? := by
  unfold visitSteps
  split
  · simp [LinkEvent.command?]
  · simp

/-- One worker leaves no choice. It ends like a delivery in sequence just if, up to the first agent
that fails, every link that is opened can be closed, or fails to close as it has failed before. Then
the message is handed over to the same agents. -/
theorem broadcast_agree_iff (c : Connector) (m : Message) (s : Situation) :
    let agents := s.roster.agents
    let k := agents.findIdx fun a => (c.failure? m s a).isSome
    let sequential := broadcast c .sequential m
    let parallel := broadcast c (.parallel 1 Nat.one_pos) m
    (sequential.outcome s = parallel.outcome s ↔ ∀ a ∈ agents.take (k + 1),
      (s.hosts a.publicAddress).opening.isOk → ∀ f, (s.hosts a.publicAddress).closing = .error f →
        c.failure? m s a = some f) ∧
    (sequential.outcome s = parallel.outcome s →
      (sequential.after s).commands = (parallel.after s).commands) ∧
    ∀ t deeds p, (Pool.start agents t).Run (c.contact m) 1 deeds p → p.isOver = true →
      p = (Pool.start agents t).settle (c.contact m) 1 := by
  obtain ⟨hseq, hseqSteps⟩ := broadcast_sequential_takes c m s
  obtain ⟨hpar, hparSteps⟩ := broadcast_one_takes c m s
  have hfirst : (broadcast c .sequential m).outcome s =
        (broadcast c (.parallel 1 Nat.one_pos) m).outcome s ↔
      ∀ a ∈ reached (c.failure? m s) s.roster.agents, c.failure? m s a = c.visitFailure? m s a := by
    rw [hseq, hpar, ← firstFailure?_eq_iff fun a f h => visitFailure?_ne_none h]
    cases firstFailure? (c.failure? m s) s.roster.agents <;>
      cases firstFailure? (c.visitFailure? m s) s.roster.agents <;> simp
  refine ⟨hfirst.trans ?_, fun halike => ?_, fun t deeds p hrun hover => hrun.eq_settle hover⟩
  · exact forall₂_congr fun a _ => eq_visitFailure?_iff
  · have hreached := reached_congr (hfirst.mp halike)
    unfold Situation.commands
    rw [hseqSteps.links_eq, hparSteps.links_eq, ← hreached]
    have hclosed : ((linked s (reached (c.failure? m s) s.roster.agents)).map
        fun a => LinkEvent.closed a.publicAddress).filterMap LinkEvent.command? = [] := by
      refine List.filterMap_eq_nil_iff.mpr fun e he => ?_
      obtain ⟨a, _, rfl⟩ := List.mem_map.mp he
      rfl
    simp only [List.filterMap_append, List.filterMap_flatMap, commands_visitSteps, hclosed,
      List.append_nil]

/-- Every link opens and takes a message, and cannot be closed. -/
def unclosable : Situation :=
  { Situation.bare ⟨.root, [], []⟩ ⟨"f", [⟨"a", "x"⟩]⟩ with
    hosts := fun _ =>
      { Host.sound with closing := .error (.of (.foreign .system "OSError" "close failed")) } }

/-- A link that cannot be closed makes a difference. -/
theorem broadcast_agree_iff_unclosable :
    (broadcast ⟨.absent, none, .text "ctl", .absent⟩ .sequential ⟨"stop", .null⟩).outcome
        unclosable ≠
      (broadcast ⟨.absent, none, .text "ctl", .absent⟩ (.parallel 1 Nat.one_pos)
        ⟨"stop", .null⟩).outcome unclosable := by
  intro halike
  have h := (broadcast_agree_iff _ _ unclosable).1.mp halike ⟨"a", "x"⟩ List.mem_cons_self rfl _ rfl
  cases h

end AgentFleet
