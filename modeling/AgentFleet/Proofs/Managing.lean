import AgentFleet.Proofs.Growing
import AgentFleet.Proofs.Reading
import AgentFleet.Proofs.Reporting
import AgentFleet.Proofs.Rounds

namespace AgentFleet
open AgentFleet.Action Cloud

variable {seconds : Decimal.Number}

namespace Roster

theorem commit_proper {agents : List Agent} (ha : ∀ a ∈ agents, a.IsWritable) :
    Proper seconds (commit agents) Any :=
  Ends.then_as fun s hs => by
    have hrun := commit_run agents s
    cases hr : s.disk.replace (s.disk.target s.roster.path) (agentLines agents) with
    | mk result disk =>
      rw [hr] at hrun
      cases result with
      | ok _ =>
        obtain ⟨p, _, hwritten⟩ := Disk.Store.replace_ok hr
        refine ⟨pure (), _, hrun, ⟨?_, hs.path, ha, hs.answers, hs.begins⟩, Ends.pure trivial⟩
        rw [hwritten.base]
        exact hs.base
      | error f =>
        have hsystem := Disk.Store.replace_error_system (Disk.Store.taken_target hs.base hs.path)
          (isWritable_agentLines ha) hr
        refine ⟨throw _, _, hrun, hs.congr (by rw [Disk.Store.replace_error hr]; rfl) rfl rfl rfl,
          Ends.throw (.inl ?_)⟩
        rw [saveFault, if_pos hsystem]
        rfl

theorem add_proper {a : Agent} (ha : a.IsWritable) : Proper seconds (add a) Any := by
  refine Ends.get_bind fun s hs => ?_
  dsimp only
  split
  · exact Ends.pure trivial
  · refine (commit_proper fun b hb => ?_).bind fun _ _ => Ends.pure trivial
    rcases List.mem_append.mp hb with hb | hb
    · exact hs.agents b hb
    · rw [List.mem_singleton.mp hb]
      exact ha

theorem removeOldest_proper (count : Nat) : Proper seconds (take count .oldestFirst) Any := by
  unfold take
  rw [if_neg (by omega)]
  refine Ends.get_bind fun s hs => ?_
  dsimp only
  split
  · exact Ends.pure trivial
  · refine (Ends.pure trivial : Proper seconds (Pure.pure _) Any).bind fun _ _ => ?_
    refine (commit_proper fun a ha => ?_).bind fun _ _ => Ends.pure trivial
    exact hs.agents a (List.mem_of_mem_filter ha)

end Roster

/-- There is no number for how long the waits take together, or it has too many digits to be
told. -/
def Poller.Untold (p : Poller) (f : Fault) : Prop :=
  p.bound = .error f ∨ ∃ longest, p.bound = .ok longest ∧ told longest = .error f

/-- An action that may wait keeps the situation workable, too, where the waits can begin. It fails
only with faults that are owned, or with numbers that are not told. -/
abbrev Poller.Waits (p : Poller) (act : Action α) (Q : α → Prop) : Prop :=
  Ends (Situation.Workable p.interval) act Q fun f => f.Owned ∨ p.Untold f

theorem Proper.waits {p : Poller} {act : Action α} {Q : α → Prop}
    (h : Proper p.interval act Q) : p.Waits act Q :=
  h.mono (fun _ hq => hq) fun _ hf => .inl hf

namespace Poller

variable {p : Poller}

theorem ofPolicy_eq_error {f : Fault} {interval attempts : Int} :
    ofPolicy (.whole interval) attempts = .error f ↔
      interval < 0 ∧ f = .of (.misuse .negativeInterval) ∨
        0 ≤ interval ∧ attempts < 1 ∧ f = .of (.misuse .noAttempts) := by
  have hsign : (Decimal.Number.whole interval).isNegative = decide (interval < 0) := rfl
  unfold ofPolicy
  rw [hsign]
  by_cases hi : interval < 0
  · have hi' : ¬ 0 ≤ interval := by omega
    simp [hi, hi', eq_comm]
  · have hi' : 0 ≤ interval := by omega
    by_cases ha : attempts < 1
    · simp [hi, hi', ha, eq_comm]
    · simp [hi, ha]

theorem eq_of_ofPolicy {interval : Decimal.Number} {attempts : Int}
    (h : ofPolicy interval attempts = .ok p) : p = ⟨interval, attempts⟩ ∧ 1 ≤ attempts := by
  unfold ofPolicy at h
  split at h
  · cases h
  · split at h
    · cases h
    · rename_i hless
      exact ⟨(Except.ok.inj h).symm, Int.not_lt.mp hless⟩

theorem look_proper (id : Text) :
    Proper seconds (look .aws id) fun found =>
      ∀ i ∈ found, WritableAddresses i.publicAddress i.privateAddress :=
  (Proper.describeInstances (by simp)).bind fun _ hl => Ends.pure fun i hi =>
    hl i (List.mem_of_find?_eq_some hi)

theorem rounds_waits {longest : Decimal.Number} (hb : p.bound = .ok longest) (id : Text)
    (left : Nat) : p.Waits (p.rounds longest .aws id left) fun i =>
      WritableAddresses i.publicAddress i.privateAddress := by
  induction left with
  | zero =>
    exact Ends.bind (Q := Any) (Ends.ofExcept (fun _ _ => trivial) fun f hf =>
      .inr (.inr ⟨longest, hb, hf⟩))
      fun _ _ => Ends.throw (.inl (.inl rfl))
  | succ n ih =>
    refine (Proper.wait p.interval).waits.bind fun stop _ => ?_
    dsimp only
    split
    · exact Ends.throw (.inl (.inl rfl))
    · refine ((look_proper id).waits).bind fun found hfound => ?_
      cases found with
      | some i => exact Ends.pure (hfound i rfl)
      | none => exact ih

theorem waitUntilReady_waits (p : Poller) (id : Text) :
    p.Waits (p.waitUntilReady .aws id) fun i =>
      WritableAddresses i.publicAddress i.privateAddress := by
  refine Ends.bind (Q := fun longest => p.bound = .ok longest)
    (Ends.ofExcept (fun _ h => h) fun _ h => .inr (.inl h)) fun longest hb => ?_
  exact ((Proper.log .info (waiting p id longest)).waits).bind fun _ _ => rounds_waits hb id _

end Poller

theorem findInstances_proper (agents : List Agent) :
    Proper seconds (findInstances .aws agents) Any := by
  unfold findInstances
  split
  · exact Ends.pure trivial
  · rename_i hne
    exact (Proper.describeInstances (by simp [hne])).bind fun _ _ => Ends.pure trivial

theorem idsOf_proper (found : Found) (missing : Agent → Text) (agents : List Agent) :
    Proper seconds (idsOf found (fun a => warn (missing a)) agents) Any := by
  induction agents with
  | nil => exact Ends.pure trivial
  | cons a rest ih =>
    unfold idsOf
    split
    · exact ih.bind fun _ _ => Ends.pure trivial
    · exact (Proper.warn _).bind fun _ _ => ih

namespace Scaler

variable {s : Scaler} {target : Int} {t u : Situation} {longest : Decimal.Number} {f : Fault}

theorem isWritable_agentOf {i : Instance} (h : WritableAddresses i.publicAddress i.privateAddress) :
    (agentOf i).IsWritable := by
  have houter : Text.isWritable (i.publicAddress.getD []) = true := by
    cases hi : i.publicAddress with
    | none => rfl
    | some t => exact h.1 t hi
  refine ⟨houter, ?_⟩
  unfold agentOf
  cases hi : i.privateAddress with
  | none => exact houter
  | some t =>
    cases t with
    | nil => exact houter
    | cons p r => exact h.2 _ hi

theorem enroll_waits (hp : s.provider = .aws) (id : Text) :
    s.poller.Waits (s.enroll id) Any := by
  unfold enroll
  rw [hp]
  refine (s.poller.waitUntilReady_waits id).attempt.bind fun x hx => ?_
  cases x with
  | ok i =>
    refine Proper.waits ?_
    exact (Roster.add_proper (isWritable_agentOf hx)).bind fun _ _ =>
      (Proper.info _).bind fun _ _ => Ends.pure trivial
  | error f =>
    dsimp only
    split
    · exact ((Proper.warn _).waits).bind fun _ _ => Ends.pure trivial
    · exact Ends.throw hx

theorem enrollAll_waits (hp : s.provider = .aws) (ids : List Text) :
    s.poller.Waits (s.enrollAll ids) Any := by
  induction ids with
  | nil => exact Ends.pure trivial
  | cons id rest ih =>
    refine (enroll_waits hp id).bind fun enrollment _ => ih.bind fun _ _ => ?_
    cases enrollment with
    | added a => exact Ends.pure trivial
    | known => exact Ends.pure trivial
    | timedOut => exact Ends.pure trivial

theorem grow_waits (hp : s.provider = .aws) (target : Int) (count : Nat) :
    s.poller.Waits (s.grow target count) Any := by
  have hend : ∀ (added : List Agent) (timedOut : List Text), s.poller.Waits (do
      info ("Added " ++ counted added ++ " agent(s). The fleet has " ++
        counted (← get).roster.agents ++ " agent(s).")
      return ⟨target, added, [], timedOut, []⟩ : Action ScaleResult) Any := fun _ _ =>
    Ends.get_bind fun _ _ => ((Proper.info _).waits).bind fun _ _ => Ends.pure trivial
  unfold grow
  rw [hp]
  refine ((Proper.info _).waits).bind fun _ _ =>
    ((Proper.createInstances _ _).waits).bind fun created _ =>
      (enrollAll_waits hp _).bind fun enrolled _ => ?_
  dsimp only
  split
  · exact ((Proper.warn _).waits).bind fun _ _ => hend _ _
  · exact hend _ _

theorem dismiss_proper (hp : s.provider = .aws) (target : Int) (removed : List Agent) :
    Proper seconds (s.dismiss target removed) Any := by
  unfold dismiss
  rw [hp]
  refine Ends.get_bind fun _ _ => (Proper.info _).bind fun _ _ =>
    (findInstances_proper removed).bind fun found _ =>
      (idsOf_proper found _ removed).bind fun ids _ => ?_
  dsimp only
  split
  · exact (Proper.info _).bind fun _ _ => Ends.pure trivial
  · exact (Proper.info _).bind fun _ _ => (Proper.terminateInstances _).bind fun _ _ =>
      Ends.pure trivial

/-- Where the fleet is not to grow, nothing is waited for. -/
theorem scaleTo_proper (hp : s.provider = .aws) (hs : s.strategy = .oldestFirst) (h0 : 0 ≤ target)
    (hgrow : ¬ t.roster.agents.length < target) :
    ∃ act, s.scaleTo target t = act t ∧ Proper seconds act Any := by
  unfold scaleTo
  rw [if_neg (by omega)]
  simp only [get_bind_run, if_neg hgrow]
  refine ⟨_, rfl, (Proper.info _).bind fun _ _ => ?_⟩
  split
  · unfold shrink
    rw [hs]
    exact (Roster.removeOldest_proper _).bind fun _ _ => dismiss_proper hp _ _
  · exact (Proper.info _).bind fun _ _ => Ends.pure trivial

theorem scaleTo_waits (hp : s.provider = .aws) (hgrow : t.roster.agents.length < target) :
    ∃ act, s.scaleTo target t = act t ∧ s.poller.Waits act Any := by
  unfold scaleTo
  rw [if_neg (by omega)]
  simp only [get_bind_run, if_pos hgrow]
  exact ⟨_, rfl, ((Proper.info _).waits).bind fun _ _ => grow_waits hp _ _⟩

/-- The fleet is to grow and instances are created for it, but a wait for one cannot begin. -/
structure Refused (s : Scaler) (target : Int) (t : Situation) : Prop where
  grows : t.roster.agents.length < target
  created : ∃ first rest, (s.creation t target).outcome t = .ok (first :: rest)
  wait : t.cancellation.refuses s.poller.interval = true

theorem Refused.congr (h : s.Refused target t) (hr : u.roster = t.roster)
    (ha : t.SameAnswers .createInstances u) (hc : u.cancellation.refuses = t.cancellation.refuses) :
    s.Refused target u := by
  obtain ⟨first, rest, hcreated⟩ := h.created
  refine ⟨by rw [hr]; exact h.grows, ⟨first, rest, ?_⟩, by rw [hc]; exact h.wait⟩
  rw [← hcreated, creation, creation, hr]
  exact (s.provider.alike_createInstances _ s.template t u ha).1.symm

/-- Then the wait for the first of them is where the scaling ends. -/
theorem scaleTo_unwaited (h : s.Refused target t) (hb : s.poller.bound = .ok longest)
    (h1 : 1 ≤ s.poller.attempts) :
    (s.scaleTo target).outcome t = .error (.of .waitTooLong) := by
  obtain ⟨first, rest, hcreated⟩ := h.created
  have houtcome := (scaleTo_created h.grows hcreated).1
  have hcalled := (s.start_called h.grows).2
  generalize (s.start target).after t = u at houtcome hcalled
  have hwait : u.cancellation.refuses s.poller.interval = true := by
    rw [hcalled.cancellation]
    exact h.wait
  have hended := run_error (Poller.waitUntilReady_refused hb h1 hwait s.provider first.id)
  have hall : s.enrollAll ((first :: rest).map (·.id)) u = .error (.of .waitTooLong) _ :=
    bind_run_error (enroll_broken hended rfl)
  rw [houtcome, outcome, hall]
  rfl

/-- A scaling with a policy of waiting that is fit fails only with what is reported, with a bound
that is not told, or with a wait that cannot begin. -/
theorem scaleTo_fails (hp : s.provider = .aws) (hs : s.strategy = .oldestFirst) (h0 : 0 ≤ target)
    (hb : s.poller.bound = .ok longest) (h1 : 1 ≤ s.poller.attempts) (ht : t.Workable (.whole 0))
    (h : (s.scaleTo target).outcome t = .error f) :
    f.Owned ∨ s.poller.Untold f ∨ s.Refused target t ∧ f = .of .waitTooLong := by
  by_cases hgrow : t.roster.agents.length < target
  · cases hw : t.cancellation.refuses s.poller.interval with
    | false =>
      obtain ⟨act, hrun, hact⟩ := scaleTo_waits hp hgrow
      rw [outcome_congr hrun] at h
      exact (hact.fails t ⟨ht.base, ht.path, ht.agents, ht.answers, hw⟩ f h).imp_right .inl
    | true =>
      cases hc : (s.creation t target).outcome t with
      | error g =>
        rw [(scaleTo_uncreated hgrow hc).1] at h
        cases h
        rw [creation, hp] at hc
        exact .inl ((Proper.createInstances _ _).fails t ht f hc)
      | ok created =>
        cases created with
        | nil =>
          rw [(scaleTo_created hgrow hc).1] at h
          cases h
        | cons first rest =>
          have hrefused : s.Refused target t := ⟨hgrow, ⟨first, rest, hc⟩, hw⟩
          rw [scaleTo_unwaited hrefused hb h1] at h
          cases h
          exact .inr (.inr ⟨hrefused, rfl⟩)
  · obtain ⟨act, hrun, hact⟩ := scaleTo_proper hp hs h0 hgrow
    rw [outcome_congr hrun] at h
    exact .inl (hact.fails t ht f h)

end Scaler

section Balancing

theorem recordName_proper {file dnsName : Text} (hf : file.Taken)
    (hd : Text.isWritable dnsName = true) : Proper seconds (recordName file dnsName) Any :=
  Ends.then_as fun s hs => by
    have hw : Text.isWritable (dnsName ++ "\n") = true := by
      rw [isWritable_append, hd]
      decide
    have hbase := s.disk.append_base (s.disk.expand file) (dnsName ++ "\n")
    have hsystem := fun f => Disk.Store.append_error_system (s := s.disk) (f := f)
      (Disk.Store.taken_expand hs.base hf) hw
    refine ⟨_, _, recordName_appends file dnsName s, hs.congr hbase rfl rfl rfl, ?_⟩
    split
    · exact Ends.pure trivial
    · rename_i f hf
      rw [if_pos (hsystem f hf)]
      exact Proper.warn _

theorem ensureBalancer_proper {file : NameFile} (hf : ∀ path ∈ file, path.Taken) (name : Text)
    (zones : List Text) {l : Listener} (hl : ∃ l', Listener.numbered l = .ok l') :
    Proper seconds (ensureBalancer .aws file name zones l) Any := by
  obtain ⟨l, hl⟩ := hl
  unfold ensureBalancer
  rw [hl]
  have hfind : Proper seconds (findBalancer .aws name) Any :=
    (Proper.describeBalancers [name]).bind fun _ _ => Ends.pure trivial
  have hcreate : Proper seconds
      ((Provider.aws.createBalancer name zones l).explain (notCreated name))
      fun b => ∀ t ∈ b.dnsName, Text.isWritable t = true := by
    refine (Proper.createBalancer name zones l).explain fun f hf => ?_
    unfold notCreated
    split
    · exact .inl rfl
    · exact hf
  refine hfind.bind fun found _ => ?_
  cases found with
  | some b => exact (Proper.info _).bind fun _ _ => Ends.pure trivial
  | none =>
    refine Ends.bind (Ends.pure rfl : Proper seconds (pure l) (· = l)) fun _ he =>
      (Proper.info _).bind fun _ _ => he ▸ hcreate.bind fun created hcreated => ?_
    dsimp only
    split
    · rename_i path dnsName hpath hdns
      exact (recordName_proper (hf path (mem_of_present? hpath))
        (hcreated dnsName (mem_of_present? hdns))).bind fun _ _ => Ends.pure trivial
    · exact Ends.pure trivial

theorem registerMembers_proper (name : Text) (ids : List Text) :
    Proper seconds (registerMembers .aws name ids) Any := by
  unfold registerMembers
  split
  · exact Proper.info _
  · exact (Proper.info _).bind fun _ _ => Proper.registerInstances name ids

theorem addAgents_proper {file : NameFile} (hf : ∀ path ∈ file, path.Taken) (name : Text)
    (zones : List Text) {l : Listener} (hl : ∃ l', Listener.numbered l = .ok l') :
    Proper seconds (addAgents .aws file name zones l) Any :=
  (ensureBalancer_proper hf name zones hl).bind fun _ _ => Ends.get_bind fun _ _ =>
    (findInstances_proper _).bind fun found _ => (idsOf_proper found _ _).bind fun ids _ =>
      (registerMembers_proper name ids).bind fun _ _ => Ends.pure trivial

end Balancing

section BySettings

variable {c : Settings}

/-- How the settings have instances waited for. -/
def Settings.poller (c : Settings) : Except Fault Poller := do
  let interval ← c.whole "POLL_INTERVAL_SECONDS"
  let attempts ← c.whole "POLL_MAX_ATTEMPTS"
  Poller.ofPolicy (.whole interval) attempts

theorem default_pollInterval :
    ∃ n, Default.settings.lookup ("POLL_INTERVAL_SECONDS" : Text) = some (.whole n) :=
  ⟨_, rfl⟩

theorem default_pollAttempts :
    ∃ n, Default.settings.lookup ("POLL_MAX_ATTEMPTS" : Text) = some (.whole n) :=
  ⟨_, rfl⟩

/-- Of a policy nobody reports that it has waits that are negative, or no attempts. -/
theorem Settings.poller_unreported (hc : c.OfTexts) {f : Fault}
    (hf : f.trouble.isReported = false) : c.poller = .error f ↔
      ∃ interval attempts, c.whole "POLL_INTERVAL_SECONDS" = .ok interval ∧
        c.whole "POLL_MAX_ATTEMPTS" = .ok attempts ∧
        Poller.ofPolicy (.whole interval) attempts = .error f := by
  unfold Settings.poller
  constructor
  · intro h
    rcases except_bind_eq_error.mp h with h | ⟨interval, hi, h⟩
    · rw [Settings.whole_error hc default_pollInterval h] at hf
      cases hf
    rcases except_bind_eq_error.mp h with h | ⟨attempts, ha, h⟩
    · rw [Settings.whole_error hc default_pollAttempts h] at hf
      cases hf
    exact ⟨interval, attempts, hi, ha, h⟩
  · rintro ⟨interval, attempts, hi, ha, h⟩
    rw [hi, ha]
    exact h

theorem scaleBySettings_eq (p : Provider) (c : Settings) (count : Int) :
    scaleBySettings p c count = (do
      let poller ← ofExcept c.poller
      let template ← if (← get).roster.agents.length < count then
          ofExcept (LaunchTemplate.ofSettings c)
        else pure .blank
      Scaler.scaleTo ⟨p, template, poller, .oldestFirst⟩ count) := by
  unfold scaleBySettings Settings.poller
  cases c.whole "POLL_INTERVAL_SECONDS" with
  | error f => rfl
  | ok interval =>
    cases c.whole "POLL_MAX_ATTEMPTS" with
    | error f => rfl
    | ok attempts => rfl

theorem scaleBySettings_unpolled {p : Provider} {count : Int} {f : Fault} (h : c.poller = .error f)
    (s : Situation) : scaleBySettings p c count s = .error f s := by
  rw [scaleBySettings_eq, h]
  exact bind_run_error (ofExcept_error_run f)

theorem scaleBySettings_polled {p : Provider} {count : Int} {poller : Poller}
    (h : c.poller = .ok poller) (s : Situation) : scaleBySettings p c count s = (do
      let template ← if s.roster.agents.length < count then
          ofExcept (LaunchTemplate.ofSettings c)
        else pure .blank
      Scaler.scaleTo ⟨p, template, poller, .oldestFirst⟩ count : Action ScaleResult) s := by
  rw [scaleBySettings_eq, h]
  rfl

theorem scaleBySettings_growing {p : Provider} {count : Int} {poller : Poller} {s : Situation}
    {template : LaunchTemplate} (h : c.poller = .ok poller)
    (ht : LaunchTemplate.ofSettings c = .ok template) (hgrow : s.roster.agents.length < count) :
    scaleBySettings p c count s = Scaler.scaleTo ⟨p, template, poller, .oldestFirst⟩ count s := by
  rw [scaleBySettings_polled h, if_pos hgrow, ht]
  exact bind_run (ofExcept_ok_run _)

theorem scaleBySettings_kept {p : Provider} {count : Int} {poller : Poller} {s : Situation}
    (h : c.poller = .ok poller) (hkept : ¬ s.roster.agents.length < count) :
    scaleBySettings p c count s = Scaler.scaleTo ⟨p, .blank, poller, .oldestFirst⟩ count s := by
  rw [scaleBySettings_polled h, if_neg hkept]
  exact bind_run rfl

theorem ofSettings_owned {f : Fault} (h : LaunchTemplate.ofSettings c = .error f) : f.Owned := by
  rcases except_bind_eq_error.mp h with h | ⟨_, _, h⟩
  · unfold Settings.required at h
    dsimp only at h
    split at h
    · cases h
      exact .inl rfl
    · cases h
  · cases h

theorem Settings.eq_of_poller {p : Poller} (h : c.poller = .ok p) :
    ∃ interval attempts, c.whole "POLL_INTERVAL_SECONDS" = .ok interval ∧
      c.whole "POLL_MAX_ATTEMPTS" = .ok attempts ∧ 1 ≤ attempts ∧
      p = ⟨.whole interval, attempts⟩ := by
  obtain ⟨interval, hi, h⟩ := except_bind_eq_ok.mp h
  obtain ⟨attempts, ha, h⟩ := except_bind_eq_ok.mp h
  obtain ⟨hp, h1⟩ := Poller.eq_of_ofPolicy h
  exact ⟨interval, attempts, hi, ha, h1, hp⟩

/-- Scaling as the settings say fails only with what is reported, for the policy of waiting, with a
bound that is not told, or with a wait that cannot begin. -/
theorem scaleBySettings_fails {t : Situation} {f : Fault} {count : Nat} (ht : t.Workable (.whole 0))
    (h : (scaleBySettings .aws c count).outcome t = .error f) :
    f.Owned ∨ c.poller = .error f ∨ ∃ p, c.poller = .ok p ∧ (p.Untold f ∨
      ∃ template, LaunchTemplate.ofSettings c = .ok template ∧
        Scaler.Refused ⟨.aws, template, p, .oldestFirst⟩ count t ∧ f = .of .waitTooLong) := by
  cases hp : c.poller with
  | error g =>
    rw [outcome, scaleBySettings_unpolled hp] at h
    cases h
    exact .inr (.inl rfl)
  | ok p =>
    obtain ⟨interval, attempts, _, _, h1, rfl⟩ := Settings.eq_of_poller hp
    by_cases hgrow : t.roster.agents.length < (count : Int)
    · cases htemplate : LaunchTemplate.ofSettings c with
      | error g =>
        rw [outcome, scaleBySettings_polled hp, if_pos hgrow, htemplate] at h
        cases h
        exact .inl (ofSettings_owned htemplate)
      | ok template =>
        rw [outcome_congr (scaleBySettings_growing hp htemplate hgrow)] at h
        rcases Scaler.scaleTo_fails rfl rfl (by omega) rfl h1 ht h with h | h | h
        · exact .inl h
        · exact .inr (.inr ⟨_, rfl, .inl h⟩)
        · exact .inr (.inr ⟨_, rfl, .inr ⟨template, rfl, h⟩⟩)
    · obtain ⟨act, hrun, hact⟩ := Scaler.scaleTo_proper
        (s := ⟨.aws, .blank, ⟨.whole interval, attempts⟩, .oldestFirst⟩) rfl rfl (by omega) hgrow
      rw [outcome_congr ((scaleBySettings_kept hp hgrow).trans hrun)] at h
      exact .inl (hact.fails t ht f h)

theorem balanceBySettings_proper (hc : c.OfTexts) (name : Text) :
    Proper seconds (balanceBySettings .aws c name) Any := by
  unfold balanceBySettings
  dsimp only
  have hwhole : ∀ key, (∃ n, Default.settings.lookup key = some (.whole n)) →
      Proper seconds (ofExcept (c.whole key)) Any := fun key hd =>
    Ends.ofExcept (fun _ _ => trivial) fun _ h => .inl (Settings.whole_error hc hd h)
  split
  · exact Ends.bind (Q := fun _ => False) (Ends.throw (.inl rfl)) fun _ h => h.elim
  · refine (hwhole "ELB_PORT_IN" ⟨_, rfl⟩).bind fun portIn _ =>
      (hwhole "ELB_PORT_OUT" ⟨_, rfl⟩).bind fun portOut _ => ?_
    exact addAgents_proper (by rintro path ⟨⟩; decide) name _ ⟨_, rfl⟩

end BySettings

end AgentFleet
