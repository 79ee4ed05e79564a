import AgentFleet.Command
import AgentFleet.Proofs.Appending
import AgentFleet.Proofs.CloudCalls
import AgentFleet.Proofs.Pooling
import AgentFleet.Proofs.RosterCalls

namespace AgentFleet
open AgentFleet.Action Cloud

section Recording

variable {I : Situation → Prop}

/-- The line is appended in any case. Only what is no refusal of the system is passed on. -/
theorem recordName_appends (path dnsName : Text) (s : Situation) :
    recordName path dnsName s =
      (match (s.disk.append (s.disk.expand path) (dnsName ++ "\n")).1 with
      | .ok () => pure ()
      | .error f =>
        if f.isSystem then
          warn ("Unable to record DNS name " ++ dnsName ++ " in " ++ path ++ ": " ++ f.message)
        else throw (.of (.disk f)) : Action Unit)
        { s with disk := (s.disk.append (s.disk.expand path) (dnsName ++ "\n")).2 } := by
  unfold recordName
  rw [get_bind_run]
  rfl

theorem keeps_recordName {path dnsName : Text} (hwarn : ∀ text, Keeps I (warn text) Any)
    (h : ∀ s, I s →
      I { s with disk := (s.disk.append (s.disk.expand path) (dnsName ++ "\n")).2 }) :
    Keeps I (recordName path dnsName) Any := by
  refine Brings.of_after fun s hs => ?_
  rw [after_congr (recordName_appends path dnsName s)]
  refine Brings.after (Q := Any) ?_ (h s hs)
  split
  · exact Brings.pure trivial
  · split
    · exact hwarn _
    · exact Brings.throw

/-- To make sure of a balancer takes no more than to ask about balancers, to tell, and to record a
name. -/
theorem keeps_ensureBalancer {p : Provider} {file : NameFile}
    (hinfo : ∀ text, Keeps I (info text) Any)
    (hdescribe : ∀ names, Keeps I (p.describeBalancers names) Any)
    (hcreate : ∀ name zones l, Keeps I (p.createBalancer name zones l) Any)
    (hrecord : ∀ path, present? file = some path →
      ∀ dnsName, Keeps I (recordName path dnsName) Any)
    (name : Text) (zones : List Text) (l : Listener) :
    Keeps I (ensureBalancer p file name zones l) Any := by
  have hfind : Keeps I (findBalancer p name) Any :=
    (hdescribe [name]).bind fun _ _ => Brings.pure trivial
  refine hfind.bind fun found _ => ?_
  cases found with
  | some b => exact (hinfo _).bind fun _ _ => Brings.pure trivial
  | none =>
    refine Brings.bind Brings.ofAny fun l _ => (hinfo _).bind fun _ _ =>
      ((hcreate name zones l).explain _).bind fun created _ => ?_
    dsimp only
    split
    · rename_i hpath _
      exact (hrecord _ hpath _).bind fun _ _ => Brings.pure trivial
    · exact Brings.pure trivial

end Recording

/-- A client was given back. -/
def Event.isRelease : Event → Bool
  | .released _ => true
  | _ => false

/-- The cloud was asked for something, or one of its clients was given back. -/
def Event.isOfCloud : Event → Bool
  | .asked .. | .sent .. => true
  | e => e.isRelease

/-- What lasts: requests to the cloud keep it, and so does whatever else is done or wished for while
disk and roster stay as they are, short of giving a client back. -/
structure Lasting (I : Situation → Prop) : Prop where
  record : ∀ s e, e.isOfCloud = false → I s → I (s.record e)
  cancellation : ∀ s c, I s → I { s with cancellation := c }
  ask : ∀ r, Keeps I (Action.ask r) Any
  send : ∀ r, Keeps I (Action.send r) Any

namespace Lasting

variable {I : Situation → Prop}

/-- What was done may be anything but that a client was given back, and the answers that were taken
may be any. -/
theorem of_record (record : ∀ s e, e.isRelease = false → I s → I (s.record e))
    (answers : ∀ s service aws, I s → I { s with service, aws })
    (cancellation : ∀ s c, I s → I { s with cancellation := c }) : Lasting I := by
  constructor
  case record =>
    intro s e he
    refine record s e ?_
    cases e with
    | asked | sent => cases he
    | _ => exact he
  case cancellation => exact cancellation
  case ask =>
    refine fun r => Brings.of_after fun s h => ?_
    rw [after_ask]
    exact answers _ _ s.aws (record s _ rfl h)
  case send =>
    refine fun r => Brings.of_after fun s h => ?_
    rw [after_send]
    exact answers _ s.service _ (record s _ rfl h)

variable (lasting : Lasting I)

include lasting

theorem note {e : Event} (he : e.isOfCloud = false) : Keeps I (Action.record e) Any :=
  Brings.modify fun s => lasting.record s e he

theorem log (severity : Severity) (text : Except Fault Text) :
    Keeps I (Action.log severity text) Any := by
  unfold Action.log
  refine Brings.get_bind fun s _ => ?_
  split
  · split
    · exact lasting.note rfl
    · exact lasting.note rfl
  · exact Brings.pure trivial

theorem info (text : Text) : Keeps I (Action.info text) Any :=
  lasting.log .info (.ok text)

theorem warn (text : Text) : Keeps I (Action.warn text) Any :=
  lasting.log .warning (.ok text)

theorem turn (g : Cancellation → Cancellation) :
    Keeps I (modify fun s => { s with cancellation := g s.cancellation }) Any :=
  Brings.modify fun s => lasting.cancellation s _

theorem signal (number : Int) : Keeps I (Action.signal number) Any := by
  unfold Action.signal
  refine Brings.get_bind fun s _ => ?_
  split
  · exact (lasting.warn _).bind fun _ _ => lasting.turn ({ · with isSet := true })
  · exact Brings.pure trivial

theorem signalDue (c : Cancellation) : Keeps I (Action.signalDue c) Any := by
  unfold Action.signalDue
  split
  · split
    · exact lasting.signal _
    · exact Brings.pure trivial
  · exact Brings.pure trivial

theorem pass : Keeps I Action.pass Any := by
  have hlast : ∀ c : Cancellation, Keeps I
      (do
        Action.signalDue c
        return (← get).cancellation.isSet : Action Bool) Any := fun c =>
    (lasting.signalDue c).bind fun _ _ => Brings.get_bind fun _ _ => Brings.pure trivial
  unfold Action.pass
  refine (lasting.turn fun c => { c with waits := c.waits + 1 }).bind fun _ _ =>
    Brings.get_bind fun s _ => ?_
  dsimp only
  split
  · exact (lasting.turn ({ · with isSet := true })).bind fun _ _ => hlast _
  · exact hlast _

theorem wait (seconds : Decimal.Number) : Keeps I (Action.wait seconds) Any := by
  unfold Action.wait
  refine (lasting.note rfl).bind fun _ _ => Brings.get_bind fun s _ => ?_
  split
  · exact Brings.throw
  · exact lasting.pass

theorem call (r : Aws.Request) : Keeps I (Aws.call r) Any :=
  (lasting.send r).explain _

variable (p : Provider)

theorem describeInstances (ids addresses : Option (List Text)) :
    Keeps I (p.describeInstances ids addresses) Any := by
  cases p with
  | service => exact lasting.ask _
  | aws =>
    by_cases hnone : ids.getD [] = [] ∧ addresses.getD [] = []
    · change Keeps I (Aws.describeInstances (ids.getD []) (addresses.getD [])) Any
      unfold Aws.describeInstances
      rw [if_pos hnone]
      exact fun _ h => h
    · exact Brings.of_after fun s h => Aws.after_describeInstances hnone
        ((lasting.call _).after h) fun _ => lasting.call _

theorem createInstances (count : Int) (template : LaunchTemplate) :
    Keeps I (p.createInstances count template) Any := by
  cases p with
  | service => exact lasting.ask _
  | aws =>
    exact (lasting.call _).bind fun _ _ => Brings.bind Brings.ofAny fun _ _ => Brings.ofAny

theorem terminateInstances (ids : List Text) : Keeps I (p.terminateInstances ids) Any := by
  cases p with
  | service => exact lasting.ask _
  | aws => exact lasting.call _

theorem createBalancer (name : Text) (zones : List Text) (l : Listener) :
    Keeps I (p.createBalancer name zones l) Any := by
  cases p with
  | service => exact lasting.ask _
  | aws => exact (lasting.call (.createBalancer name zones l)).bind fun _ _ => Brings.pure trivial

theorem describeBalancers (names : List Text) : Keeps I (p.describeBalancers names) Any := by
  cases p with
  | service => exact lasting.ask _
  | aws =>
    refine (lasting.send (.describeBalancers names)).attempt.bind fun answer _ => ?_
    cases answer with
    | ok descriptions => exact Brings.ofAny
    | error f =>
      dsimp only
      split
      · exact Brings.pure trivial
      · split
        · exact Brings.throw
        · exact Brings.throw

theorem registerInstances (balancer : Text) (ids : List Text) :
    Keeps I (p.registerInstances balancer ids) Any := by
  cases p with
  | service => exact lasting.ask _
  | aws => exact lasting.call _

theorem look (id : Text) : Keeps I (Poller.look p id) Any :=
  (lasting.describeInstances p _ _).bind fun _ _ => Brings.pure trivial

theorem rounds (poller : Poller) (bound : Decimal.Number) (id : Text) (left : Nat) :
    Keeps I (poller.rounds bound p id left) Any := by
  induction left with
  | zero => exact Brings.bind Brings.ofAny fun _ _ => Brings.throw
  | succ n ih =>
    refine (lasting.wait poller.interval).bind fun stop _ => ?_
    dsimp only
    split
    · exact fun _ h => h
    · refine (lasting.look p id).bind fun found _ => ?_
      cases found with
      | some i => exact Brings.pure trivial
      | none => exact ih

theorem waitUntilReady (poller : Poller) (id : Text) :
    Keeps I (poller.waitUntilReady p id) Any :=
  Brings.bind Brings.ofAny fun bound _ =>
    (lasting.log .info _).bind fun _ _ => lasting.rounds p poller bound id _

theorem findInstances (agents : List Agent) : Keeps I (AgentFleet.findInstances p agents) Any := by
  unfold AgentFleet.findInstances
  split
  · exact Brings.pure trivial
  · exact (lasting.describeInstances p _ _).bind fun _ _ => Brings.pure trivial

omit lasting in
theorem idsOf (found : Found) {missing : Agent → Action Unit}
    (h : ∀ a, Keeps I (missing a) Any) (agents : List Agent) :
    Keeps I (AgentFleet.idsOf found missing agents) Any := by
  induction agents with
  | nil => exact Brings.pure trivial
  | cons a rest ih =>
    unfold AgentFleet.idsOf
    split
    · exact ih.bind fun _ _ => Brings.pure trivial
    · exact (h a).bind fun _ _ => ih

theorem registerMembers (name : Text) (ids : List Text) :
    Keeps I (AgentFleet.registerMembers p name ids) Any := by
  unfold AgentFleet.registerMembers
  split
  · exact lasting.info _
  · exact (lasting.info _).bind fun _ _ => lasting.registerInstances p name ids

theorem dismiss (scaler : Scaler) (target : Int) (removed : List Agent) :
    Keeps I (scaler.dismiss target removed) Any := by
  unfold Scaler.dismiss
  refine Brings.get_bind fun s _ => (lasting.info _).bind fun _ _ =>
    (lasting.findInstances scaler.provider removed).bind fun found _ =>
      (idsOf found (fun a => lasting.warn _) removed).bind fun ids _ => ?_
  dsimp only
  split
  · exact (lasting.info _).bind fun _ _ => Brings.pure trivial
  · exact (lasting.info _).bind fun _ _ =>
      (lasting.terminateInstances scaler.provider ids).bind fun _ _ => Brings.pure trivial

theorem recordName {path dnsName : Text}
    (h : ∀ s, I s →
      I { s with disk := (s.disk.append (s.disk.expand path) (dnsName ++ "\n")).2 }) :
    Keeps I (AgentFleet.recordName path dnsName) Any :=
  keeps_recordName lasting.warn h

section Balancing

variable {file : NameFile} (hrecord : ∀ path, present? file = some path →
  ∀ dnsName, Keeps I (AgentFleet.recordName path dnsName) Any)

include hrecord

theorem ensureBalancer (name : Text) (zones : List Text) (l : Listener) :
    Keeps I (AgentFleet.ensureBalancer p file name zones l) Any :=
  keeps_ensureBalancer lasting.info (lasting.describeBalancers p)
    (lasting.createBalancer p) hrecord name zones l

theorem addAgents (name : Text) (zones : List Text) (l : Listener) :
    Keeps I (AgentFleet.addAgents p file name zones l) Any := by
  unfold AgentFleet.addAgents
  exact (lasting.ensureBalancer p hrecord name zones l).bind fun _ _ =>
    Brings.get_bind fun s _ => (lasting.findInstances p _).bind fun found _ =>
      (idsOf found (fun a => lasting.warn _) _).bind fun ids _ =>
        (lasting.registerMembers p name ids).bind fun _ _ => Brings.pure trivial

end Balancing

theorem balanceBySettings (c : Settings) (name : Text)
    (hrecord : ∀ dnsName, Keeps I (AgentFleet.recordName Default.balancerFile dnsName) Any) :
    Keeps I (AgentFleet.balanceBySettings p c name) Any := by
  unfold AgentFleet.balanceBySettings
  dsimp only
  have hadd : Keeps I (do
      let portIn ← ofExcept (c.whole "ELB_PORT_IN")
      let portOut ← ofExcept (c.whole "ELB_PORT_OUT")
      AgentFleet.addAgents p (some Default.balancerFile) name (c.list "ELB_ZONES")
        ⟨c.value "ELB_PROTOCOL", .whole portIn, .whole portOut⟩) Any := by
    refine Brings.bind Brings.ofAny fun _ _ => Brings.bind Brings.ofAny fun _ _ =>
      lasting.addAgents p (fun path hpath => ?_) name _ _
    cases hpath
    exact hrecord
  split
  · exact fun _ h => h
  · exact hadd

section Scaling

variable (scaler : Scaler)

section Enrolling

variable (henroll : ∀ id, Keeps I (scaler.enroll id) Any)

include henroll

omit lasting in
theorem enrollAll (ids : List Text) : Keeps I (scaler.enrollAll ids) Any := by
  induction ids with
  | nil => exact Brings.pure trivial
  | cons id rest ih =>
    refine (henroll id).bind fun enrollment _ => ih.bind fun result _ => ?_
    obtain ⟨added, timedOut⟩ := result
    cases enrollment <;> exact Brings.pure trivial

theorem grow (target : Int) (count : Nat) : Keeps I (scaler.grow target count) Any := by
  unfold Scaler.grow
  refine (lasting.info _).bind fun _ _ =>
    (lasting.createInstances scaler.provider _ _).bind fun created _ =>
      (enrollAll scaler henroll _).bind fun result _ => ?_
  have hlast : Keeps I
      (do
        Action.info ("Added " ++ counted result.1 ++ " agent(s). The fleet has " ++
          counted (← get).roster.agents ++ " agent(s).")
        return ⟨target, result.1, [], result.2, []⟩ : Action ScaleResult) Any :=
    Brings.get_bind fun _ _ => (lasting.info _).bind fun _ _ => Brings.pure trivial
  obtain ⟨added, timedOut⟩ := result
  dsimp only
  split
  · exact (lasting.warn _).bind fun _ _ => hlast
  · exact hlast

/-- Only to add an agent to the roster, and to take agents out, may have a bearing. -/
theorem scaleTo (htake : ∀ count, Keeps I (Roster.take count scaler.strategy) Any) (target : Int) :
    Keeps I (scaler.scaleTo target) Any := by
  unfold Scaler.scaleTo
  split
  · exact fun _ h => h
  · refine Brings.get_bind fun s _ => (lasting.info _).bind fun _ _ => ?_
    split
    · exact lasting.grow scaler henroll _ _
    · split
      · exact (htake _).bind fun removed _ => lasting.dismiss scaler target removed
      · exact (lasting.info _).bind fun _ _ => Brings.pure trivial

end Enrolling

/-- Whoever is ready may be added. -/
theorem enroll {id : Text} {Q : Instance → Prop}
    (hwait : Keeps I (scaler.poller.waitUntilReady scaler.provider id) Q)
    (hadd : ∀ i, Q i → Keeps I (Roster.add (Scaler.agentOf i)) Any) :
    Keeps I (scaler.enroll id) Any := by
  unfold Scaler.enroll
  refine hwait.attempt.bind fun result hready => ?_
  cases result with
  | ok i =>
    exact (hadd i (hready i rfl)).bind fun added _ => (lasting.info _).bind fun _ _ =>
      Brings.pure trivial
  | error f =>
    dsimp only
    split
    · exact (lasting.warn _).bind fun _ _ => Brings.pure trivial
    · exact Brings.throw

omit lasting in
theorem commit (h : ∀ s disk roster, I s → I { s with disk, roster }) (agents : List Agent) :
    Keeps I (Roster.commit agents) Any := by
  refine Brings.of_after fun s hs => ?_
  cases hr : Roster.commit agents s with
  | ok _ t =>
    rw [after_of_ok hr]
    obtain ⟨disk, _, rfl⟩ := Roster.commit_ok hr
    exact h s disk _ hs
  | error f t =>
    rw [after_of_error hr, Roster.commit_error hr]
    exact h s _ s.roster hs

omit lasting in
theorem add (hcommit : ∀ agents, Keeps I (Roster.commit agents) Any) (a : Agent) :
    Keeps I (Roster.add a) Any := by
  unfold Roster.add
  refine Brings.get_bind fun s _ => ?_
  dsimp only
  split
  · exact Brings.pure trivial
  · exact (hcommit _).bind fun _ _ => Brings.pure trivial

omit lasting in
theorem take (hcommit : ∀ agents, Keeps I (Roster.commit agents) Any) (count : Int)
    (strategy : Strategy) : Keeps I (Roster.take count strategy) Any := by
  have htake : Keeps I (do
      let agents := (← get).roster.agents
      let n := min count.toNat agents.length
      if n = 0 then return []
      let picked ← ofExcept (strategy.pick n agents)
      Roster.commit (agents.filter (· ∉ picked))
      return picked) Any := by
    refine Brings.get_bind fun s _ => ?_
    dsimp only
    split
    · exact Brings.pure trivial
    · exact Brings.bind Brings.ofAny fun picked _ => (hcommit _).bind fun _ _ => Brings.pure trivial
  unfold Roster.take
  split
  · exact fun _ h => h
  · exact htake

theorem scaleBySettings (hcommit : ∀ agents, Keeps I (Roster.commit agents) Any) (c : Settings)
    (count : Int) : Keeps I (AgentFleet.scaleBySettings p c count) Any := by
  have hscale : ∀ scaler : Scaler, Keeps I (scaler.scaleTo count) Any := fun scaler =>
    lasting.scaleTo scaler (fun id => lasting.enroll scaler
      (lasting.waitUntilReady scaler.provider scaler.poller id) fun _ _ => add hcommit _)
      (fun _ => take hcommit _ _) count
  unfold AgentFleet.scaleBySettings
  refine Brings.bind Brings.ofAny fun interval _ => Brings.bind Brings.ofAny fun attempts _ =>
    Brings.bind Brings.ofAny fun poller _ => Brings.get_bind fun s _ => ?_
  split
  · exact Brings.bind Brings.ofAny fun template _ => hscale _
  · exact hscale _

end Scaling

section Broadcasting

variable (c : Connector) (m : Message)

theorem closeHost (host : Text) : Keeps I (AgentFleet.closeHost host) Any :=
  (lasting.note rfl).bind fun _ _ => Brings.get_bind fun _ _ => Brings.ofAny

theorem connect (a : Agent) : Keeps I (c.connect a) Any := by
  unfold Connector.connect
  refine (lasting.note rfl).bind fun _ _ => (lasting.note rfl).bind fun _ _ =>
    Brings.get_bind fun s _ => ?_
  split
  · exact Brings.pure trivial
  · split
    · exact (lasting.closeHost _).bind fun _ _ => Brings.throw
    · exact Brings.throw

theorem sendTo (l : Link) : Keeps I (l.send m) Any := by
  have hrun : ∀ command, Keeps I (l.run command) Any := fun command =>
    (lasting.note rfl).bind fun _ _ => Brings.get_bind fun _ _ => Brings.ofAny
  unfold Link.send
  refine ((hrun _).explain _).bind fun outcome _ => ?_
  split
  · exact fun _ h => h
  · exact Brings.pure trivial

theorem sendEach (agents : List Agent) : Keeps I (Sequential.sendEach c m agents) Any := by
  induction agents with
  | nil => exact Brings.pure trivial
  | cons a rest ih =>
    refine (lasting.connect c a).attempt.bind fun link _ => ?_
    cases link with
    | error f => exact Brings.pure trivial
    | ok link =>
      refine (lasting.sendTo m link).attempt.bind fun outcome _ => ?_
      cases outcome with
      | error f => exact Brings.pure trivial
      | ok outcome => exact ih.bind fun result _ => Brings.pure trivial

theorem closeEach (links : List Link) : Keeps I (Sequential.closeEach links) Any := by
  induction links with
  | nil => exact Brings.pure trivial
  | cons l rest ih =>
    refine (lasting.closeHost l.agent.publicAddress).attempt.bind fun closed _ => ?_
    cases closed with
    | error f => exact (lasting.warn _).bind fun _ _ => ih
    | ok _ => exact ih

/-- Whatever a step of an errand does to the world, it does by way of the contact. -/
theorem move {workers place : Nat} {act : Act} {p q : Pool Situation Link} (h : I p.world)
    (hm : p.move? (c.contact m) workers place = some (act, q)) : I q.world := by
  obtain ⟨e, stage, _, hstep, _⟩ := Pool.move?_iff.mp hm
  have hconnect : Keeps I ((c.contact m).connect e.agent) Any := lasting.connect c e.agent
  have huse : ∀ link, Keeps I ((c.contact m).use link) Any := fun link =>
    (lasting.sendTo m link).bind fun _ _ => Brings.pure trivial
  have hclose : ∀ link, Keeps I ((c.contact m).close link) Any := fun link =>
    lasting.closeHost link.agent.publicAddress
  generalize e.stage = before, p.failed = failed, p.world = w, q.failed = failed', q.world = w'
    at h hstep ⊢
  cases hstep with
  | start | clear | skip | report => exact h
  | connect hr => exact (hconnect.ok h hr).1
  | connectFailed hr => exact hconnect.error h hr
  | use hr => exact ((huse _).ok h hr).1
  | useFailed hr => exact (huse _).error h hr
  | finish hr | close hr => exact ((hclose _).ok h hr).1
  | closeFailed hr => exact (hclose _).error h hr

theorem advance {workers : Nat} (n : Nat) {p : Pool Situation Link} (h : I p.world) :
    I (p.advance (c.contact m) workers n).world := by
  induction n generalizing p with
  | zero => exact h
  | succ n ih =>
    unfold Pool.advance
    split
    · rename_i hm
      exact ih (lasting.move c m h hm)
    · exact h

theorem deliver (d : Delivery) (agents : List Agent) : Keeps I (d.deliver c m agents) Any := by
  cases d with
  | sequential =>
    refine (lasting.sendEach c m agents).bind fun result _ => ?_
    obtain ⟨links, failure⟩ := result
    refine (lasting.closeEach links).bind fun _ _ => ?_
    cases failure with
    | some f => exact Brings.throw
    | none => exact Brings.pure trivial
  | parallel workers _ =>
    refine Brings.of_after fun s h => ?_
    have hsettled : I ((Pool.start agents s).settle (c.contact m) workers).world :=
      lasting.advance c m _ (p := Pool.start agents s) h
    have hrun := Parallel.deliver_run (c.contact m) workers agents s
    change I (Action.after (Parallel.deliver (c.contact m) workers agents) s)
    split at hrun
    · rwa [after_of_ok hrun]
    · rwa [after_of_error hrun]

theorem broadcast (d : Delivery) : Keeps I (AgentFleet.broadcast c d m) Any := by
  unfold AgentFleet.broadcast
  refine Brings.get_bind fun s _ => ?_
  dsimp only
  split
  · exact (lasting.warn _).bind fun _ _ => Brings.pure trivial
  · exact (lasting.info _).bind fun _ _ => (lasting.deliver c m d _).bind fun _ _ =>
      (lasting.info _).bind fun _ _ => Brings.pure trivial

end Broadcasting

end Lasting

namespace Situation

/-- Beside the name file the disk is as it was. -/
structure Beside (file : NameFile) (first s : Situation) : Prop where
  named : ∀ path, present? file = some path →
    first.disk.SameBeside (first.disk.expand path) s.disk
  unnamed : present? file = none → s.disk = first.disk

variable {file : NameFile} {first s : Situation}

theorem Beside.of_disk (h : s.disk = first.disk) : Beside file first s :=
  ⟨fun _ _ => h ▸ .refl _ _, fun _ => h⟩

/-- Nothing but the disk counts. -/
theorem Beside.congr (h : Beside file first s) {t : Situation} (hd : t.disk = s.disk) :
    Beside file first t :=
  ⟨fun path hpath => hd ▸ h.named path hpath, fun hnone => hd.trans (h.unnamed hnone)⟩

/-- What leads elsewhere than to the name file leads to what was there. -/
theorem Beside.same_other (h : Beside file first s) {other : Text}
    (hother : ∀ p, first.disk.Leads other p → ∀ path, present? file = some path →
      ¬ first.disk.Leads (first.disk.expand path) p) :
    (∀ c, s.disk.read other = .ok c ↔ first.disk.read other = .ok c) ∧
      s.disk.hasPath other = first.disk.hasPath other := by
  cases hfile : present? file with
  | none =>
    rw [h.unnamed hfile]
    exact ⟨fun _ => .rfl, rfl⟩
  | some path =>
    have hbeside := h.named path hfile
    have helse := fun p hp => hother p hp path hfile
    exact ⟨hbeside.read_other helse, hbeside.hasPath_other helse⟩

theorem lasting_beside (file : NameFile) (first : Situation) : Lasting (Beside file first) :=
  .of_record (fun _ _ _ h => h.congr rfl) (fun _ _ _ h => h.congr rfl) fun _ _ h => h.congr rfl

theorem beside_recordName (first : Situation) (path : Text) (hfile : present? file = some path)
    (dnsName : Text) : Keeps (Beside file first) (recordName path dnsName) Any := by
  refine (lasting_beside file first).recordName fun s h => ?_
  refine ⟨fun other hother => ?_, fun hnone => ?_⟩
  · cases hfile.symm.trans hother
    have hbeside := h.named path hfile
    refine hbeside.trans ?_
    rw [hbeside.expand]
    exact .append _ _ s.disk
  · cases hfile.symm.trans hnone

end Situation

end AgentFleet
