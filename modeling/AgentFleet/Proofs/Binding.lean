import AgentFleet.Proofs.Lasting
import AgentFleet.Proofs.Provisioning
import AgentFleet.Proofs.Showing
import AgentFleet.Proofs.Shrinking

namespace AgentFleet
open AgentFleet.Action Cloud

/-- The steps of putting agents behind a balancer. -/
inductive BindStep
  | asked (call : CloudCall)
  | registered (balancer : Text) (ids : List Text)
  | warned (text : Text)
  deriving DecidableEq, Repr

/-- What is asked about anything but balancers. -/
def Event.instanceStep? : Event → Option BindStep
  | .asked (.describeBalancers ..) .. | .asked (.createBalancer ..) ..
  | .sent (.describeBalancers ..) .. | .sent (.createBalancer ..) .. => none
  | .asked (.registerInstances balancer ids) .. => some (.registered balancer ids)
  | .sent (.registerInstances balancer ids) .. => some (.registered balancer ids)
  | e => e.call?.map .asked

def Event.bindStep? : Event → Option BindStep
  | .logged .warning text => some (.warned text)
  | e => e.instanceStep?

open Situation

namespace Cloud.Provider

variable (c : Provider) (s : Situation)

theorem describeBalancers_unseen (names : List Text) :
    s.Shows Event.instanceStep? [] ((c.describeBalancers names).after s) := by
  cases c with
  | service =>
    change s.Shows _ _ ((ask (.describeBalancers names)).after s)
    rw [after_ask]
    exact .of_event rfl rfl
  | aws =>
    change s.Shows _ _ ((Aws.describeBalancers names).after s)
    rw [Aws.after_describeBalancers, after_send]
    exact .of_event rfl rfl

theorem createBalancer_unseen (name : Text) (zones : List Text) (l : Listener) :
    s.Shows Event.instanceStep? [] ((c.createBalancer name zones l).after s) := by
  cases c with
  | service =>
    change s.Shows _ _ ((ask (.createBalancer name zones l)).after s)
    rw [after_ask]
    exact .of_event rfl rfl
  | aws =>
    change s.Shows _ _ ((Aws.createBalancer name zones l).after s)
    rw [Aws.after_createBalancer, after_send]
    exact .of_event rfl rfl

theorem registerInstances_shows (balancer : Text) (ids : List Text) :
    s.Shows Event.bindStep? [.registered balancer ids]
      ((c.registerInstances balancer ids).after s) := by
  cases c with
  | service =>
    change s.Shows _ _ ((ask (.registerInstances balancer ids)).after s)
    rw [after_ask]
    exact .of_event rfl rfl
  | aws =>
    change s.Shows _ _ ((Aws.call (.registerInstances balancer ids)).after s)
    rw [Aws.call, after_explain, after_send]
    exact .of_event rfl rfl

end Cloud.Provider

/-- To make sure of a balancer nothing is asked about instances. -/
theorem BalancerCall.run_unseen (c : Provider) (file : NameFile) (call : BalancerCall)
    (s : Situation) : s.Shows Event.instanceStep? [] ((call.run c file).after s) := by
  have hlog : ∀ severity text,
      Keeps (s.Shows Event.instanceStep? []) (log severity (.ok text)) Any := by
    refine fun severity text => Brings.of_after fun t ht => ?_
    obtain ⟨u, hu, htold⟩ := log_told severity text t
    rw [after_of_ok hu]
    exact ht.onward (htold.unseen fun _ _ => rfl)
  have hrun : Keeps (s.Shows Event.instanceStep? []) (call.run c file) Any := by
    refine keeps_ensureBalancer (hlog .info) ?_ ?_ ?_ call.name call.zones call.listener
    · exact fun names => Brings.of_after fun t ht => ht.onward (c.describeBalancers_unseen t names)
    · exact fun name zones l => Brings.of_after fun t ht =>
        ht.onward (c.createBalancer_unseen t name zones l)
    · exact fun path _ dnsName => keeps_recordName (hlog .warning) fun t ht => ht.congr rfl rfl
  exact hrun.after (.refl s)

/-- What is told of an agent without an instance. -/
def unboundText (name : Text) (a : Agent) : Text :=
  "No live instance found for agent " ++ a.line ++ ". It is not added to load balancer " ++ name ++
    "."

/-- The warnings about agents without an instance, where warnings are admitted. -/
def unboundWarnings (level : LogLevel) (name : Text) (agents : List Agent) : List BindStep :=
  if level.admits .warning then agents.map fun a => .warned (unboundText name a) else []

theorem unboundWarnings_cons (level : LogLevel) (name : Text) (a : Agent) (rest : List Agent) :
    unboundWarnings level name (a :: rest) =
      unboundWarnings level name [a] ++ unboundWarnings level name rest := by
  unfold unboundWarnings
  split <;> rfl

theorem idsOf_warns (found : Found) (name : Text) (agents : List Agent) (s : Situation) :
    s.Shows Event.bindStep?
      (unboundWarnings s.level name
        (agents.filter fun a => (found.lookup a.publicAddress).isNone))
      ((idsOf found (fun a => warn (unboundText name a)) agents).after s) := by
  -- the situation changes on the way, by what is told; the level, which decides that, does not
  induction agents generalizing s with
  | nil =>
    have hnone : unboundWarnings s.level name [] = [] := ite_self _
    rw [List.filter_nil, hnone]
    exact .refl s
  | cons a rest ih =>
    unfold idsOf
    cases h : found.lookup a.publicAddress with
    | some i =>
      rw [List.filter_cons_of_neg (by simp [h])]
      have hrest := ih s
      dsimp only
      rw [after_bind]
      cases (idsOf found (fun a => warn (unboundText name a)) rest).outcome s with
      | ok ids => exact hrest
      | error f => exact hrest
    | none =>
      rw [List.filter_cons_of_pos (by simp [h]), unboundWarnings_cons]
      obtain ⟨t, hwarn, htold⟩ := warn_told (unboundText name a) s
      have hwarned := log_shows Event.bindStep? .warning (unboundText name a) s
      have ht : (log .warning (.ok (unboundText name a))).after s = t := after_of_ok hwarn
      rw [ht] at hwarned
      have hlevel : t.level = s.level := by
        obtain ⟨_, rfl, _⟩ := htold
        rfl
      dsimp only
      rw [after_congr (bind_run hwarn), ← hlevel]
      refine Shows.trans ?_ (ih t)
      rw [hlevel]
      exact hwarned

/-- What is left of putting agents behind a balancer once it is there. -/
def enlist (c : Provider) (name : Text) : Action (List Text) := do
  let agents := (← get).roster.agents
  let found ← findInstances c agents
  let ids ← idsOf found (fun a => warn (unboundText name a)) agents
  registerMembers c name ids
  return ids

/-- What may come of agents whose balancer is there, and the steps it takes. Without agents nothing
is asked. Otherwise their instances are looked up in one call; each agent without one is warned
about; and the instances that were found, if there are any, are registered in one call. -/
inductive Binding (c : Provider) (name : Text) (s : Situation) :
    Except Fault (List Text) → List BindStep → Prop
  | nobody (hn : s.roster.agents = []) : Binding c name s (.ok []) []
  | undescribed {f : Fault} (hn : s.roster.agents ≠ [])
      (hd : described c s.roster.agents s = .error f) :
      Binding c name s (.error f) [.asked (describeCall s.roster.agents)]
  | noneFound {response : List Instance} (hn : s.roster.agents ≠ [])
      (hd : described c s.roster.agents s = .ok response)
      (hids : idsAt response s.roster.agents = []) :
      Binding c name s (.ok []) (.asked (describeCall s.roster.agents) ::
        unboundWarnings s.level name (unresolvedAt response s.roster.agents))
  | found {response : List Instance} (hn : s.roster.agents ≠ [])
      (hd : described c s.roster.agents s = .ok response)
      (hids : idsAt response s.roster.agents ≠ []) :
      Binding c name s
        (((c.registerInstances name (idsAt response s.roster.agents)).outcome s).map fun _ =>
          idsAt response s.roster.agents)
        (.asked (describeCall s.roster.agents) ::
          unboundWarnings s.level name (unresolvedAt response s.roster.agents) ++
          [.registered name (idsAt response s.roster.agents)])

/-- Each id at an address is that of a live instance there. -/
theorem live_of_mem_idsAt {response : List Instance} {agents : List Agent} {id : Text}
    (h : id ∈ idsAt response agents) : ∃ a ∈ agents, ∃ i ∈ response,
      i.id = id ∧ i.isGone = false ∧ i.publicAddress = some a.publicAddress := by
  obtain ⟨a, ha, i, hi, hid⟩ := mem_idsAt.mp h
  obtain ⟨hmem, hlive⟩ := of_lastAt hi
  unfold Instance.liveAddress? at hlive
  split at hlive
  · cases hlive
  · rename_i hgone
    exact ⟨a, ha, i, hmem, hid, by simpa using hgone, mem_of_present? hlive⟩

/-- What is registered belongs to instances that are live. -/
theorem Binding.registered_live {c : Provider} {name balancer : Text} {s : Situation}
    {result : Except Fault (List Text)} {steps : List BindStep} {ids : List Text}
    (h : Binding c name s result steps) (hreg : .registered balancer ids ∈ steps) :
    balancer = name ∧ ids ≠ [] ∧ ∃ response, described c s.roster.agents s = .ok response ∧
      ∀ id ∈ ids, ∃ a ∈ s.roster.agents, ∃ i ∈ response,
        i.id = id ∧ i.isGone = false ∧ i.publicAddress = some a.publicAddress := by
  have hwarnings : ∀ level agents,
      BindStep.registered balancer ids ∉ unboundWarnings level name agents := by
    intro level agents
    unfold unboundWarnings
    split <;> simp
  cases h with
  | nobody hn => cases hreg
  | undescribed hn hd => simp at hreg
  | noneFound hn hd hids => simp [hwarnings] at hreg
  | @found response hn hd hids =>
    have hlast : balancer = name ∧ ids = idsAt response s.roster.agents := by
      simpa [hwarnings] using hreg
    obtain ⟨rfl, rfl⟩ := hlast
    exact ⟨rfl, hids, response, hd, fun id hid => live_of_mem_idsAt hid⟩

section Enlisting

variable {c : Provider} {name : Text} {s : Situation} {response : List Instance}

theorem described_shows (c : Provider) (s : Situation) (hn : s.roster.agents ≠ []) :
    s.Shows Event.bindStep? [.asked (describeCall s.roster.agents)]
      (afterDescribed c s.roster.agents s) ∧
    (afterDescribed c s.roster.agents s).level = s.level := by
  have hconsulted := @Provider.consulted_describeInstances s c none
    (some (s.roster.agents.map (·.publicAddress))) (by simpa using hn)
  refine ⟨hconsulted.shows (fun call => some (BindStep.asked call)) fun e he => ?_, ?_⟩
  · cases e with
    | asked r => cases r <;> first | rfl | cases he
    | sent r =>
      cases r with
      | describeInstances ids addresses token => exact Option.map_eq_bind
      | _ => cases he
    | _ => cases he
  · unfold afterDescribed
    rw [hconsulted.same]

/-- Members are registered in one call, if there are any. -/
theorem registerMembers_binds (c : Provider) (name : Text) (ids : List Text) (s : Situation) :
    (registerMembers c name ids).outcome s =
        (if ids = [] then .ok () else (c.registerInstances name ids).outcome s) ∧
      s.Shows Event.bindStep? (if ids = [] then [] else [.registered name ids])
        ((registerMembers c name ids).after s) := by
  have hinfo : ∀ text, ∃ t, info text s = .ok () t ∧ s.Told t ∧ s.Shows Event.bindStep? [] t := by
    intro text
    obtain ⟨t, ht, htold⟩ := info_told text s
    have hshows := log_shows Event.bindStep? .info text s
    rw [show (log .info (.ok text)).after s = t from after_of_ok ht] at hshows
    exact ⟨t, ht, htold, by simpa [Event.bindStep?, Event.instanceStep?, Event.call?] using hshows⟩
  unfold registerMembers
  by_cases hids : ids = []
  · rw [if_pos hids, if_pos hids, if_pos hids]
    obtain ⟨t, ht, _, hshows⟩ := hinfo ("No instances to add to load balancer " ++ name)
    rw [outcome, after_of_ok ht, ht]
    exact ⟨rfl, hshows⟩
  · rw [if_neg hids, if_neg hids, if_neg hids]
    obtain ⟨t, ht, htold, hshows⟩ := hinfo ("Adding instance(s) " ++ Text.join ", " ids ++
      " to load balancer " ++ name)
    rw [outcome_congr (bind_run ht), after_congr (bind_run ht),
      (c.alike_registerInstances name ids s t (htold.sameAnswers _)).1]
    exact ⟨rfl, hshows.trans (c.registerInstances_shows t name ids)⟩

/-- Once the instances are described, the ids are told from them, and registered if there are
any. -/
theorem enlist_described (hn : s.roster.agents ≠ [])
    (hd : described c s.roster.agents s = .ok response) :
    ∃ t, s.SameAnswers .registerInstances t ∧
      s.Shows Event.bindStep? (.asked (describeCall s.roster.agents) ::
        unboundWarnings s.level name (unresolvedAt response s.roster.agents)) t ∧
      enlist c name s = (do
        registerMembers c name (idsAt response s.roster.agents)
        return idsAt response s.roster.agents : Action (List Text)) t := by
  obtain ⟨t, hids, htold⟩ := idsOf_told (.ofList response) (unboundText name) s.roster.agents
    (afterDescribed c s.roster.agents s)
  have hwarned := idsOf_warns (.ofList response) name s.roster.agents
    (afterDescribed c s.roster.agents s)
  obtain ⟨hasked, hlevel⟩ := described_shows c s hn
  rw [after_of_ok hids, hlevel] at hwarned
  simp only [lookup_ofList, ← unresolvedAt_eq] at hids hwarned
  refine ⟨t, ?_, hasked.trans hwarned, ?_⟩
  · have hcalled := (called_described c s hn).trans (htold.called _)
    exact hcalled.sameAnswers (by decide)
  · unfold enlist
    rw [get_bind_run, bind_run (findInstances_ok hn hd), bind_run hids]
    rfl

/-- Agents whose balancer is there are put behind it, and nothing else is asked. -/
theorem enlist_binding (c : Provider) (name : Text) (s : Situation) :
    ∃ steps, Binding c name s ((enlist c name).outcome s) steps ∧
      s.Shows Event.bindStep? steps ((enlist c name).after s) := by
  by_cases hn : s.roster.agents = []
  · have hrun : enlist c name s = (do
        registerMembers c name []
        return [] : Action (List Text)) s := by
      unfold enlist findInstances
      rw [get_bind_run, hn]
      rfl
    obtain ⟨houtcome, hshows⟩ := registerMembers_binds c name [] s
    rw [outcome_congr hrun, after_congr hrun, outcome_bind, after_bind, houtcome]
    exact ⟨[], .nobody hn, hshows⟩
  cases hd : described c s.roster.agents s with
  | error f =>
    have hrun : enlist c name s = .error f (afterDescribed c s.roster.agents s) := by
      unfold enlist
      rw [get_bind_run]
      exact bind_run_error (findInstances_error hn hd)
    rw [outcome, after_of_error hrun, hrun]
    exact ⟨_, .undescribed hn hd, (described_shows c s hn).1⟩
  | ok response =>
    obtain ⟨t, hsame, hwarned, hrun⟩ := @enlist_described c name s response hn hd
    obtain ⟨houtcome, hshows⟩ := registerMembers_binds c name (idsAt response s.roster.agents) t
    rw [outcome_congr hrun, after_congr hrun, outcome_bind, after_bind, houtcome]
    by_cases hids : idsAt response s.roster.agents = []
    · simp only [hids, if_true] at hshows ⊢
      exact ⟨_, .noneFound hn hd hids, hwarned.onward hshows⟩
    · simp only [hids, if_false] at hshows ⊢
      -- what was asked and told so far takes nothing from the answers to the registration
      rw [← (c.alike_registerInstances name _ s t hsame).1]
      refine ⟨_, .found hn hd hids, ?_⟩
      have hall := hwarned.trans hshows
      cases (c.registerInstances name (idsAt response s.roster.agents)).outcome s with
      | ok _ => exact hall
      | error f => exact hall

end Enlisting

namespace BalancerCall

/-- Put all agents behind the balancer. -/
def serve (call : BalancerCall) (c : Provider) (file : NameFile) : Action (List Text) :=
  addAgents c file call.name call.zones call.listener

theorem serve_eq (call : BalancerCall) (c : Provider) (file : NameFile) :
    call.serve c file = call.run c file >>= fun _ => enlist c call.name := rfl

/-- What holds of a call to put agents behind a balancer that starts at `s`, ends at `t` and comes
to a result. -/
structure Serves (c : Provider) (file : NameFile) (call : BalancerCall) (s t : Situation)
    (result : Except Fault (List Text)) : Prop where
  /-- To make sure of the balancer nothing is asked about instances. -/
  unseen : s.Shows Event.instanceStep? [] ((call.run c file).after s)
  same : ((call.run c file).after s).roster = s.roster ∧
    ((call.run c file).after s).level = s.level
  unensured : ∀ f, (call.run c file).outcome s = .error f →
    result = .error f ∧ t = (call.run c file).after s
  ensured : ∀ b, (call.run c file).outcome s = .ok b → ∃ steps,
    Binding c call.name ((call.run c file).after s) result steps ∧
    ((call.run c file).after s).Shows Event.bindStep? steps t ∧
    ∀ balancer ids, .registered balancer ids ∈ steps → balancer = call.name ∧ ids ≠ [] ∧
      ∃ response, described c s.roster.agents ((call.run c file).after s) = .ok response ∧
        ∀ id ∈ ids, ∃ a ∈ s.roster.agents, ∃ i ∈ response,
          i.id = id ∧ i.isGone = false ∧ i.publicAddress = some a.publicAddress
  roster_eq : t.roster = s.roster
  /-- What does not lead to the name file leads to what was there. -/
  elsewhere : ∀ other, (∀ p, s.disk.Leads other p → ∀ path, present? file = some path →
      ¬ s.disk.Leads (s.disk.expand path) p) →
    (∀ contents, t.disk.read other = .ok contents ↔ s.disk.read other = .ok contents) ∧
      t.disk.hasPath other = s.disk.hasPath other

/-- Whatever a call comes to, the agents are put behind the balancer only once that is there, each
with the instance that was found last at its address; the agents are the same after it, and so are
all files but that of names. -/
theorem serves (c : Provider) (file : NameFile) (call : BalancerCall) (s : Situation) :
    call.Serves c file s ((call.serve c file).after s) ((call.serve c file).outcome s) := by
  have lasting : Lasting fun t => t.roster = s.roster ∧ t.level = s.level :=
    .of_record (fun _ _ _ h => h) (fun _ _ _ h => h) fun _ _ h => h
  have hrecord : ∀ path, present? file = some path → ∀ dnsName,
      Keeps (fun t : Situation => t.roster = s.roster ∧ t.level = s.level)
        (recordName path dnsName) Any := fun _ _ _ => lasting.recordName fun _ h => h
  have hrun := lasting.ensureBalancer c hrecord call.name call.zones call.listener
  have hserve := lasting.addAgents c hrecord call.name call.zones call.listener
  have hsame := hrun.after ⟨rfl, rfl⟩
  have hbeside : Beside file s ((call.serve c file).after s) :=
    ((lasting_beside file s).addAgents c (beside_recordName s) call.name call.zones
      call.listener).after (.of_disk rfl)
  constructor
  case unseen => exact run_unseen c file call s
  case same => exact hsame
  case unensured =>
    intro f hf
    rw [serve_eq, outcome_bind, after_bind, hf]
    exact ⟨rfl, rfl⟩
  case ensured =>
    intro b hb
    obtain ⟨steps, hbinding, hshows⟩ := enlist_binding c call.name ((call.run c file).after s)
    rw [serve_eq, outcome_bind, after_bind, hb]
    refine ⟨steps, hbinding, hshows, fun balancer ids hreg => ?_⟩
    have hlive := hbinding.registered_live hreg
    rwa [show ((call.run c file).after s).roster = s.roster from hsame.1] at hlive
  case roster_eq => exact (hserve.after ⟨rfl, rfl⟩).1
  case elsewhere => exact fun other hother => hbeside.same_other hother

/-- All traffic of the web goes to the agents. -/
def toAgents : BalancerCall :=
  ⟨"b", ["z"], ⟨.text "tcp", .whole 80, .whole 8080⟩⟩

/-- A balancer is still to come. Of three agents the first one has two instances, and the second one
had one. -/
def threeToBind : Situation :=
  { Situation.bare ⟨.root, [([[97]], .file (.text "p,x\nq,y\nr,z\n"))], []⟩
      ⟨"a", [⟨"p", "x"⟩, ⟨"q", "y"⟩, ⟨"r", "z"⟩]⟩ with
    service := fun
      | .describeBalancers => [.ok []]
      | .createBalancer => [.ok ⟨"b", some "d", []⟩]
      | .describeInstances => [.ok [⟨"i-1", some State.running, some "p", none⟩,
          ⟨"i-2", some State.running, some "p", none⟩,
          ⟨"i-3", some State.terminated, some "q", none⟩]]
      | .registerInstances => [.ok ()]
      | _ => [] }

theorem threeToBind_elsewhere (p : Disk.Place) (h : threeToBind.disk.Leads "a" p) (path : Text)
    (hpath : present? (some "names") = some path) :
    ¬ threeToBind.disk.Leads (threeToBind.disk.expand path) p := by
  have ha : threeToBind.disk.Leads "a" [[97]] := by
    unfold Disk.Store.Leads
    decide
  cases hpath
  rw [h.unique ha]
  unfold Disk.Store.Leads
  decide

/-- The instance that is described last is registered, the other two agents are warned about, and
the agents file stays. -/
theorem serves_threeToBind :
    (toAgents.serve .service (some "names")).outcome threeToBind = .ok ["i-2"] ∧
    ((toAgents.run .service (some "names")).after threeToBind).Shows Event.bindStep?
      [.asked (.describe [] ["p", "q", "r"]), .warned (unboundText "b" ⟨"q", "y"⟩),
        .warned (unboundText "b" ⟨"r", "z"⟩), .registered "b" ["i-2"]]
      ((toAgents.serve .service (some "names")).after threeToBind) ∧
    ((toAgents.serve .service (some "names")).after threeToBind).disk.read "a" =
      .ok (.text "p,x\nq,y\nr,z\n") := by
  have h := serves .service (some "names") toAgents threeToBind
  have hensured : (toAgents.run .service (some "names")).outcome threeToBind =
      .ok ⟨"b", some "d", []⟩ := by
    decide +kernel
  have hresult : (toAgents.serve .service (some "names")).outcome threeToBind = .ok ["i-2"] := by
    decide +kernel
  obtain ⟨steps, hbinding, hshows, _⟩ := h.ensured _ hensured
  refine ⟨hresult, ?_, (h.elsewhere "a" threeToBind_elsewhere).1 _ |>.mpr (by decide)⟩
  obtain ⟨hroster, hlevel⟩ := h.same
  have hdescribed : described .service threeToBind.roster.agents
      ((toAgents.run .service (some "names")).after threeToBind) =
        .ok [⟨"i-1", some State.running, some "p", none⟩,
          ⟨"i-2", some State.running, some "p", none⟩,
          ⟨"i-3", some State.terminated, some "q", none⟩] := by
    decide +kernel
  generalize (toAgents.run .service (some "names")).after threeToBind = u at *
  generalize (toAgents.serve .service (some "names")).outcome threeToBind = result at hbinding
  cases hbinding with
  | nobody hn =>
    rw [hroster] at hn
    cases hn
  | undescribed hn hd =>
    rw [hroster] at hd
    cases hd.symm.trans hdescribed
  | noneFound hn hd hids =>
    rw [hroster] at hd hids
    cases hd.symm.trans hdescribed
    cases hids
  | found hn hd hids =>
    rw [hroster] at hd
    cases hd.symm.trans hdescribed
    rw [hroster, hlevel] at hshows
    exact hshows

/-- The balancer is there. An agent without an address stands beside an instance without one. -/
def addressless : Situation :=
  { Situation.bare ⟨.root, [], []⟩ ⟨"a", [⟨"", "x"⟩]⟩ with
    service := fun
      | .describeBalancers => [.ok [⟨"b", none, []⟩]]
      | .describeInstances => [.ok [⟨"i", some State.running, some "", none⟩]]
      | .registerInstances => [.ok ()]
      | _ => [] }

/-- Where names are written to the agents file, that does not stay; and no instance is found at an
address that is empty. -/
theorem serve_shared :
    threeToBind.roster.agents.Nodup ∧
    threeToBind.disk.read threeToBind.roster.path = .ok (.text "p,x\nq,y\nr,z\n") ∧
    ((toAgents.serve .service (some "a")).after threeToBind).disk.read threeToBind.roster.path =
      .ok (.text "p,x\nq,y\nr,z\nd\n") ∧
    (toAgents.serve .service none).outcome addressless = .ok [] := by
  decide +kernel

end BalancerCall

end AgentFleet
