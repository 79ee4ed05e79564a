import AgentFleet.Proofs.Pooling
import AgentFleet.Proofs.Sequence

namespace AgentFleet
open AgentFleet.Action AgentFleet.Connector Situation

/-- Nothing breaks on a host but the connection to it. -/
structure Host.BreaksOnly (h : Host) : Prop where
  opening : ∀ f, h.opening = .error f → f.trouble.isConnection = true
  running : ∀ f, h.running = .error f → f.trouble.isConnection = true
  closing : ∀ f, h.closing = .error f → f.trouble.isConnection = true

/-- What a broken connection is by itself is not yet trouble with an agent. -/
theorem Trouble.kind_ne_link {t : Trouble} (h : t.isConnection = true) : t.kind ≠ .link := by
  cases t with
  | disk fault => simp [kind]
  | foreign family name text => simp [kind]
  | stated kind text => simp [isConnection, isSystem] at h
  | link what => simp [isConnection, isSystem] at h
  | _ => simp [kind]

section Blamed

variable {c : Connector} {m : Message} {h : Host} {a : Agent} {l : Link} {f : Fault}

/-- A link that does not open is trouble with the agent, unless it cannot be closed either. -/
theorem Connector.opened_blames (hb : h.BreaksOnly) (ho : c.opened h a = .error f) :
    h.opening.isOk = false ∧ (f.trouble.kind = .link ↔ h.closing.isOk = true) := by
  apply And.intro (opened_eq_error ho)
  unfold opened at ho
  cases hopen : h.opening with
  | ok _ =>
    rw [hopen] at ho
    cases ho
  | error g =>
    rw [hopen] at ho
    dsimp only at ho
    rw [if_pos (hb.opening g hopen)] at ho
    cases hclose : h.closing with
    | ok _ =>
      rw [hclose] at ho
      cases ho
      simp [Fault.because, Trouble.kind, Except.isOk, Except.toBool]
    | error g' =>
      rw [hclose] at ho
      cases ho
      simp [Trouble.kind_ne_link (hb.closing f hclose), Except.isOk, Except.toBool]

theorem Link.sent_blames (hb : h.BreaksOnly) (hs : l.sent h m = .error f) :
    f.trouble.kind = .link := by
  unfold sent at hs
  cases hrun : h.running with
  | ok outcome =>
    rw [hrun] at hs
    dsimp only at hs
    split at hs
    · cases hs
      rfl
    · cases hs
  | error g =>
    rw [hrun] at hs
    dsimp only at hs
    rw [if_pos (hb.running g hrun)] at hs
    cases hs
    rfl

end Blamed

/-- Whether a delivery blames what breaks at a host on the agent. Where links are closed in the end,
only one that does not open can come with an error of closing it. -/
def Delivery.Blames (h : Host) : Delivery → Prop
  | sequential => h.opening.isOk = true ∨ h.closing.isOk = true
  | parallel .. => h.closing.isOk = true

section Sequential

variable {c : Connector} {m : Message} {s : Situation} {a : Agent} {f : Fault}

theorem Connector.failure?_blames (hb : ∀ address, (s.hosts address).BreaksOnly)
    (hf : c.failure? m s a = some f) :
    f.trouble.kind = .link ↔ Delivery.sequential.Blames (s.hosts a.publicAddress) := by
  unfold failure? at hf
  rw [(connect_takes s c a).1] at hf
  cases hopened : c.opened (s.hosts a.publicAddress) a with
  | error g =>
    rw [hopened] at hf
    cases hf
    obtain ⟨hopening, hkind⟩ := opened_blames (hb _) hopened
    simp [Delivery.Blames, hopening, hkind]
  | ok link =>
    obtain ⟨rfl, hopening⟩ := opened_eq_ok hopened
    rw [hopened] at hf
    dsimp only at hf
    rw [(send_takes s ⟨a, c.control⟩ m).1] at hf
    cases hsent : (Link.mk a c.control).sent (s.hosts a.publicAddress) m with
    | error g =>
      rw [hsent] at hf
      cases hf
      simp [Delivery.Blames, hopening, Link.sent_blames (hb _) hsent]
    | ok outcome =>
      rw [hsent] at hf
      cases hf

end Sequential

namespace Action.Takes

variable {act : Action α} {s t : Situation} {steps : List LinkEvent} {result : Except Fault α}

theorem of_run_ok {a : α} (h : Takes act s steps result) (hr : act s = .ok a t) :
    result = .ok a ∧ t.hosts = s.hosts := by
  obtain ⟨houtcome, hlinked⟩ := h
  unfold outcome at houtcome
  unfold after at hlinked
  rw [hr] at houtcome hlinked
  exact ⟨houtcome.symm, hlinked.hosts_eq⟩

theorem of_run_error {f : Fault} (h : Takes act s steps result) (hr : act s = .error f t) :
    result = .error f ∧ t.hosts = s.hosts := by
  obtain ⟨houtcome, hlinked⟩ := h
  unfold outcome at houtcome
  unfold after at hlinked
  rw [hr] at houtcome hlinked
  exact ⟨houtcome.symm, hlinked.hosts_eq⟩

end Action.Takes

theorem Connector.use_takes (c : Connector) (m : Message) (l : Link) (s : Situation) :
    Takes ((c.contact m).use l) s [.ran l.agent.publicAddress (m.command l.control.shown)]
      ((l.sent (s.hosts l.agent.publicAddress) m).map fun _ => ()) := by
  have hsend := send_takes s l m
  cases hsent : l.sent (s.hosts l.agent.publicAddress) m with
  | ok outcome =>
    rw [hsent] at hsend
    exact hsend.last fun t _ => .pure () t
  | error f =>
    rw [hsent] at hsend
    exact hsend.bind_error

/-- What an errand to an agent has come upon, by whether its link can be closed. -/
def Stage.Blames (a : Agent) (closes : Bool) : Stage Link → Prop
  | .linked l => l.agent = a
  | .used l failure => l.agent = a ∧ ∀ f, failure = some f → f.trouble.kind = .link
  | .failing f | .ended (.error f) => f.trouble.kind = .link ↔ closes = true
  | _ => True

section Steps

variable {c : Connector} {m : Message} {first : Situation} {a : Agent} {workers : Nat}
  {stage stage' : Stage Link} {failed failed' : Bool} {w w' : Situation} {act : Act}

/-- A step of an errand leaves the hosts as they are. A failure to close a link displaces what the
errand has come upon before. -/
theorem Stage.Blames.step (hb : ∀ address, (first.hosts address).BreaksOnly)
    (hw : w.hosts = first.hosts)
    (h : stage.Blames a (first.hosts a.publicAddress).closing.isOk)
    (hs : stage.Step (c.contact m) a failed w act failed' w' stage') :
    w'.hosts = first.hosts ∧ stage'.Blames a (first.hosts a.publicAddress).closing.isOk := by
  cases hs with
  | start => exact ⟨hw, trivial⟩
  | clear => exact ⟨hw, trivial⟩
  | skip => exact ⟨hw, trivial⟩
  | connect hc =>
    obtain ⟨hopened, hhosts⟩ := (connect_takes w c a).of_run_ok hc
    obtain ⟨rfl, _⟩ := opened_eq_ok hopened
    exact ⟨hhosts.trans hw, rfl⟩
  | connectFailed hc =>
    obtain ⟨hopened, hhosts⟩ := (connect_takes w c a).of_run_error hc
    rw [hw] at hopened
    exact ⟨hhosts.trans hw, (opened_blames (hb _) hopened).2⟩
  | use hu =>
    obtain ⟨_, hhosts⟩ := (use_takes c m _ w).of_run_ok hu
    exact ⟨hhosts.trans hw, h, by simp⟩
  | @useFailed _ _ _ link f hu =>
    obtain ⟨hused, hhosts⟩ := (use_takes c m link w).of_run_error hu
    have hsent : link.sent (w.hosts link.agent.publicAddress) m = .error f := by
      cases hsent : link.sent (w.hosts link.agent.publicAddress) m with
      | ok outcome => simp [hsent, Except.map] at hused
      | error g => simpa [hsent, Except.map] using hused
    rw [hw] at hsent
    apply And.intro (hhosts.trans hw)
    apply And.intro h
    intro g hg
    cases hg
    exact Link.sent_blames (hb _) hsent
  | finish hc =>
    obtain ⟨_, hhosts⟩ := (closeHost_takes w _).of_run_ok hc
    exact ⟨hhosts.trans hw, trivial⟩
  | @close _ _ _ link f hc =>
    obtain ⟨hlink, hkind⟩ := h
    obtain ⟨hclosing, hhosts⟩ := (closeHost_takes w _).of_run_ok hc
    rw [hw, hlink] at hclosing
    apply And.intro (hhosts.trans hw)
    simp [Stage.Blames, hkind f rfl, hclosing, Except.isOk, Except.toBool]
  | @closeFailed _ _ _ link failure f hc =>
    obtain ⟨hlink, _⟩ := h
    obtain ⟨hclosing, hhosts⟩ := (closeHost_takes w _).of_run_error hc
    rw [hw, hlink] at hclosing
    apply And.intro (hhosts.trans hw)
    have hne := Trouble.kind_ne_link ((hb _).closing f hclosing)
    simp [Stage.Blames, hne, hclosing, Except.isOk, Except.toBool]
  | report => exact ⟨hw, h⟩

/-- All along a run: the hosts are as at first, and so much is known of every errand. -/
structure Pool.Blaming (first : Situation) (p : Pool Situation Link) : Prop where
  hosts : p.world.hosts = first.hosts
  errands : ∀ e ∈ p.errands,
    e.stage.Blames e.agent (first.hosts e.agent.publicAddress).closing.isOk

namespace Pool.Blaming

variable {p q : Pool Situation Link} {agents : List Agent} {deeds : List (Nat × Act)}

theorem step (hb : ∀ address, (first.hosts address).BreaksOnly) (h : Blaming first p) {place : Nat}
    (hm : p.move? (c.contact m) workers place = some (act, q)) : Blaming first q := by
  obtain ⟨e, stage, he, hs, hq, _⟩ := move?_iff.mp hm
  obtain ⟨hhosts, hstage⟩ := (h.errands e (List.mem_of_getElem? he)).step hb h.hosts hs
  apply Blaming.mk hhosts
  intro e' he'
  rw [hq] at he'
  rcases List.mem_or_eq_of_mem_set he' with he' | rfl
  · exact h.errands e' he'
  · exact hstage

theorem of_run (hb : ∀ address, (first.hosts address).BreaksOnly) (hw : w.hosts = first.hosts)
    (hr : (start agents w).Run (c.contact m) workers deeds p) : Blaming first p := by
  induction hr with
  | refl =>
    apply Blaming.mk hw
    intro e he
    obtain ⟨a, _, rfl⟩ := List.mem_map.mp he
    exact trivial
  | step _ place hm ih => exact ih.step hb hm

/-- What a pool fails with comes of an agent whose errand has ended in it. -/
theorem verdict (h : Blaming first p) (hagents : p.errands.map (·.agent) = agents) {f : Fault}
    (hv : Parallel.verdict p.results = .error f) :
    ∃ a ∈ agents, ∃ g, f = undelivered a g ∧
      (g.trouble.kind = .link ↔ (first.hosts a.publicAddress).closing.isOk = true) := by
  obtain ⟨i, a, g, hi, _, rfl⟩ := Parallel.verdict_eq_error.mp hv
  obtain ⟨e, he, hresult⟩ := List.mem_filterMap.mp (List.mem_of_getElem? hi)
  obtain ⟨result, hended, hpair⟩ := Option.map_eq_some_iff.mp hresult
  cases hpair
  have hstage : e.stage = .ended (.error g) := by
    cases hs : e.stage with
    | ended r => simpa [hs, Stage.result?] using hended
    | _ => simp [hs, Stage.result?] at hended
  have hblames := h.errands e he
  rw [hstage] at hblames
  exact ⟨e.agent, hagents ▸ List.mem_map_of_mem he, g, rfl, hblames⟩

end Pool.Blaming

end Steps

section Deliveries

variable {c : Connector} {m : Message} {s t : Situation} {agents : List Agent} {f : Fault}

theorem Delivery.deliver_blames (hb : ∀ address, (s.hosts address).BreaksOnly)
    (ht : t.hosts = s.hosts) (d : Delivery) (h : (d.deliver c m agents).outcome t = .error f) :
    ∃ a ∈ agents, ∃ g, f = undelivered a g ∧
      (g.trouble.kind = .link ↔ d.Blames (s.hosts a.publicAddress)) := by
  cases d with
  | sequential =>
    rw [deliver, (Sequential.deliver_takes c m agents t).1, failure?_congr ht] at h
    cases hfirst : firstFailure? (c.failure? m s) agents with
    | none =>
      rw [hfirst] at h
      cases h
    | some g =>
      rw [hfirst] at h
      cases h
      obtain ⟨a, ha, hfails⟩ := List.exists_of_findSome?_eq_some hfirst
      obtain ⟨g, hg, rfl⟩ := Option.map_eq_some_iff.mp hfails
      exact ⟨a, ha, g, rfl, failure?_blames hb hg⟩
  | parallel workers positive =>
    obtain ⟨deeds, hrun, _⟩ := Pool.settle_run (k := c.contact m) positive agents t
    apply (Pool.Blaming.of_run hb ht hrun).verdict hrun.accounted.same
    unfold outcome at h
    rw [deliver, Parallel.deliver_run] at h
    cases hv : Parallel.verdict ((Pool.start agents t).settle (c.contact m) workers).results with
    | ok n =>
      rw [hv] at h
      cases h
    | error g =>
      rw [hv] at h
      cases h
      rfl

/-- A broadcast adds nothing to what its delivery fails with. -/
theorem broadcast_fails {d : Delivery} (h : (broadcast c d m).outcome s = .error f) :
    ∃ t, t.hosts = s.hosts ∧ (d.deliver c m s.roster.agents).outcome t = .error f := by
  by_cases hne : s.roster.agents = []
  · rw [(broadcast_takes_none hne).1] at h
    cases h
  · obtain ⟨t, hinfo, htold⟩ := info_told ("Sending message " ++ m.type ++ " to " ++
      Text.ofNat s.roster.agents.length ++ " agent(s)") s
    have hrun := run_error h
    unfold broadcast at hrun
    rw [get_bind_run] at hrun
    dsimp only at hrun
    rw [if_neg hne, bind_run hinfo] at hrun
    apply Exists.intro t
    apply And.intro htold.linked.hosts_eq
    rcases bind_eq_error.mp hrun with hrun | ⟨n, u, _, hrun⟩
    · unfold outcome
      rw [hrun]
    · obtain ⟨v, hv, _⟩ := info_told "Message sent!" u
      rw [bind_run hv] at hrun
      cases hrun

end Deliveries

/-- Where nothing breaks but connections, what comes of opening a link is trouble with the agent
unless the link cannot be closed either; what comes of handing a message over always is, and what
comes of closing a link never is. So a broadcast in sequence blames the agent that it names unless
the link to it neither opens nor closes, and one by several workers, in whatever order they take
their steps, just if the link can be closed. -/
theorem broadcast_blames_iff (c : Connector) (m : Message) (s : Situation)
    (hb : ∀ address, (s.hosts address).BreaksOnly) :
    (∀ a f, (c.connect a).outcome s = .error f →
      (f.trouble.kind = .link ↔ (s.hosts a.publicAddress).closing.isOk = true)) ∧
    (∀ l f, (Link.send l m).outcome s = .error f → f.trouble.kind = .link) ∧
    (∀ l f, (Link.close l).outcome s = .error f → f.trouble.kind ≠ .link ∧
      (s.hosts l.agent.publicAddress).closing = .error f) ∧
    (∀ d f, (broadcast c d m).outcome s = .error f →
      ∃ a ∈ s.roster.agents, ∃ g, f = undelivered a g ∧
        (g.trouble.kind = .link ↔ d.Blames (s.hosts a.publicAddress))) ∧
    ∀ workers t deeds p f, t.hosts = s.hosts →
      (Pool.start s.roster.agents t).Run (c.contact m) workers deeds p →
      Parallel.verdict p.results = .error f →
      ∃ a ∈ s.roster.agents, ∃ g, f = undelivered a g ∧
        (g.trouble.kind = .link ↔ (s.hosts a.publicAddress).closing.isOk = true) := by
  refine ⟨fun a f h => ?_, fun l f h => ?_, fun l f h => ?_, fun d f h => ?_, ?_⟩
  · rw [(connect_takes s c a).1] at h
    exact (opened_blames (hb _) h).2
  · rw [(send_takes s l m).1] at h
    exact Link.sent_blames (hb _) h
  · have hclosing : (s.hosts l.agent.publicAddress).closing = .error f :=
      (closeHost_takes s _).1.symm.trans h
    exact ⟨Trouble.kind_ne_link ((hb _).closing f hclosing), hclosing⟩
  · obtain ⟨t, ht, hdeliver⟩ := broadcast_fails h
    exact d.deliver_blames hb ht hdeliver
  · intro workers t deeds p f ht hrun hv
    exact (Pool.Blaming.of_run hb ht hrun).verdict hrun.accounted.same hv

/-- A link that neither opens nor closes. -/
def cutOff : Situation :=
  { Situation.bare ⟨.root, [], []⟩ ⟨"f", [⟨"a", "x"⟩]⟩ with
    hosts := fun _ =>
      { Host.sound with
        opening := .error (.of (.foreign .secureShell "SSHException" "no route"))
        closing := .error (.of (.foreign .system "OSError" "close failed")) } }

theorem cutOff_breaksOnly (address : Text) : (cutOff.hosts address).BreaksOnly := by
  constructor
  · intro f hf
    cases hf
    rfl
  · intro f hf
    cases hf
  · intro f hf
    cases hf
    rfl

/-- The agent is named, and not blamed. -/
theorem broadcast_blames_iff_cutOff :
    ∃ g, (broadcast ⟨.absent, none, .text "ctl", .absent⟩ .sequential ⟨"stop", .null⟩).outcome
        cutOff = .error (undelivered ⟨"a", "x"⟩ g) ∧ g.trouble.kind ≠ .link := by
  have hfails : (broadcast ⟨.absent, none, .text "ctl", .absent⟩ .sequential
      ⟨"stop", .null⟩).outcome cutOff = .error (undelivered ⟨"a", "x"⟩
        (.of (.foreign .system "OSError" "close failed"))) := by
    rfl
  obtain ⟨_, _, _, hbroadcast, _⟩ := broadcast_blames_iff ⟨.absent, none, .text "ctl", .absent⟩
    ⟨"stop", .null⟩ cutOff cutOff_breaksOnly
  obtain ⟨a, ha, g, hg, hkind⟩ := hbroadcast .sequential _ hfails
  cases List.mem_singleton.mp ha
  apply Exists.intro g
  apply And.intro (hfails.trans (congrArg Except.error hg))
  intro hlink
  rcases hkind.mp hlink with h | h
  · cases h
  · cases h

end AgentFleet
