import AgentFleet.Proofs.Connecting
import AgentFleet.Proofs.Managing
import AgentFleet.Proofs.Performing

namespace AgentFleet
open AgentFleet.Action AgentFleet.Command Cloud

/-- The command asks AWS. -/
def Command.usesCloud : Command → Bool
  | scale _ | balance _ => true
  | _ => false

namespace Invocation

/-- The file that the settings are from, unless nothing was given in its place. -/
def settingsPath (i : Invocation) : Text :=
  (i.settingsFile.getD .nothing).getD Default.settingsFile

/-- The faults of a command that nobody reports, from its files, the policy of waiting and the
library that loads the configuration of connections. -/
inductive Escapes (i : Invocation) (s : Situation) : Fault → Prop
  | noSettingsFile (h : i.settingsFile = some .nothing) : Escapes i s (.of .notPath)
  | settingsFile (hg : i.settingsFile ≠ some .nothing)
      (h : Undecoded s.disk (s.disk.expand i.settingsPath) (Settings.parse i.settingsPath)) :
      Escapes i s (.of .notText)
  | noAgentsFile {c : Settings} (hc : i.settings s.disk = .ok c) (h : i.agentsFile = .nothing) :
      Escapes i s (.of .notPath)
  | agentsFile {c : Settings} {path : Text} (hc : i.settings s.disk = .ok c)
      (hp : i.agentsFile = .value path)
      (h : Undecoded s.disk (s.disk.expand path) (Roster.parse path)) :
      Escapes i s (.of .notText)
  /-- The credentials are not read: their file holds no text, or its path is none to the system. -/
  | credentialsFile {c : Settings} {r : Roster} {f : Fault} (hr : i.reading s.disk = .ok (c, r))
      (hu : i.command.usesCloud = true)
      (h : Unread s.disk (s.disk.expand (credentialsFile s.disk c))
        (Settings.parse (credentialsFile s.disk c)) f) :
      Escapes i s f
  /-- The policy of waiting is unfit: it has negative waits, or no attempts. -/
  | policy {c : Settings} {r : Roster} {k : Credentials} {count : Nat} {interval attempts : Int}
      {f : Fault} (hr : i.reading s.disk = .ok (c, r)) (hs : i.command = .scale count)
      (hk : Credentials.load s.disk (credentialsFile s.disk c) = .ok k)
      (ho : opened s.sessions = .ok ())
      (hi : c.whole "POLL_INTERVAL_SECONDS" = .ok interval)
      (ha : c.whole "POLL_MAX_ATTEMPTS" = .ok attempts)
      (h : interval < 0 ∧ f = .of (.misuse .negativeInterval) ∨
        0 ≤ interval ∧ attempts < 1 ∧ f = .of (.misuse .noAttempts)) :
      Escapes i s f
  /-- New instances are to be waited for, each time longer than the longest wait. -/
  | wait {c : Settings} {r : Roster} {k : Credentials} {count : Nat} {p : Poller}
      {template : LaunchTemplate} (hr : i.reading s.disk = .ok (c, r))
      (hs : i.command = .scale count)
      (hk : Credentials.load s.disk (credentialsFile s.disk c) = .ok k)
      (ho : opened s.sessions = .ok ()) (hp : c.poller = .ok p)
      (ht : LaunchTemplate.ofSettings c = .ok template)
      (h : Scaler.Refused ⟨.aws, template, p, .oldestFirst⟩ count { s with roster := r }) :
      Escapes i s (.of .waitTooLong)
  /-- The file of the configuration is not there to be read, or the library does not take it. -/
  | configuration {c : Settings} {r : Roster} {m : Message} {d : Given Delivery} {timeout : Int}
      {f : Fault} (hr : i.reading s.disk = .ok (c, r)) (hb : i.command = .broadcast m d)
      (ht : c.whole "AGENT_CONNECT_TIMEOUT" = .ok timeout)
      (h : configure s.configuration s.disk (c.value "AGENT_SSH_CONFIG_FILE").given = .error f) :
      Escapes i s f
  /-- The file of the private key is not there to be read. -/
  | keyFile {c : Settings} {r : Roster} {m : Message} {d : Given Delivery} {timeout : Int}
      {f : Fault} (hr : i.reading s.disk = .ok (c, r)) (hb : i.command = .broadcast m d)
      (ht : c.whole "AGENT_CONNECT_TIMEOUT" = .ok timeout)
      (hc : configure s.configuration s.disk (c.value "AGENT_SSH_CONFIG_FILE").given = .ok ())
      (h : identityFile s.disk (c.value "AGENT_IDENTITY_FILE").given = .error f) :
      Escapes i s f

/-- A command is to wait for instances so long altogether that it has too many digits to be told. -/
def Untold (i : Invocation) (disk : Disk.Store) (f : Fault) : Prop :=
  ∃ count c interval attempts, i.command = .scale count ∧ i.settings disk = .ok c ∧
    c.whole "POLL_INTERVAL_SECONDS" = .ok interval ∧ c.whole "POLL_MAX_ATTEMPTS" = .ok attempts ∧
    Poller.told (.whole (interval * attempts)) = .error f

/-- Nothing about a command is outside what it is made for: the system takes its paths, files hold
what their bytes are taken for, and AWS and its library answer regularly. -/
structure Regular (i : Invocation) (s : Situation) : Prop where
  files : s.disk.Faithful
  base : s.disk.base.Taken
  path : ∀ path, i.agentsFile = .value path → path.Taken
  answers : Aws.Regular s.aws
  sessions : ∀ f, .error f ∈ s.sessions → ∃ name text, f.trouble = .foreign .cloudLibrary name text

variable {i : Invocation} {disk : Disk.Store} {s t : Situation} {f : Fault}

theorem settings_unreported (hf : f.trouble.isReported = false) :
    i.settings disk = .error f ↔ (i.settingsFile = some .nothing ∧ f = .of .notPath) ∨
      (i.settingsFile ≠ some .nothing ∧ f = .of .notText ∧
        Undecoded disk (disk.expand i.settingsPath) (Settings.parse i.settingsPath)) := by
  unfold settings settingsPath
  match i.settingsFile with
  | none =>
    change Settings.load disk none [] = .error f ↔ _
    rw [Settings.load_unreported hf]
    exact ⟨fun h => .inr ⟨nofun, h⟩, fun h => h.elim (fun h => nomatch h.1) (·.2)⟩
  | some .nothing =>
    exact ⟨fun h => .inl ⟨rfl, (Except.error.inj h).symm⟩,
      fun h => h.elim (fun h => h.2 ▸ rfl) fun h => absurd rfl h.1⟩
  | some (.value p) =>
    change Settings.load disk (some p) [] = .error f ↔ _
    rw [Settings.load_unreported hf]
    exact ⟨fun h => .inr ⟨nofun, h⟩, fun h => h.elim (fun h => nomatch h.1) (·.2)⟩

theorem reading_unreported (hf : f.trouble.isReported = false)
    (h : i.reading s.disk = .error f) : i.Escapes s f := by
  rcases except_bind_eq_error.mp h with h | ⟨c, hc, h⟩
  · rcases (settings_unreported hf).mp h with ⟨hn, rfl⟩ | ⟨hn, rfl, hu⟩
    · exact .noSettingsFile hn
    · exact .settingsFile hn hu
  rcases except_bind_eq_error.mp h with h | ⟨path, hpath, h⟩
  · obtain ⟨hp, rfl⟩ := Given.toPath_eq_error.mp h
    exact .noAgentsFile hc hp
  rcases except_bind_eq_error.mp h with h | ⟨_, _, h⟩
  · obtain ⟨rfl, hu⟩ := (Roster.read_unreported hf).mp h
    exact .agentsFile hc (Given.toPath_eq_ok.mp hpath) hu
  · cases h

/-- Where sessions are refused by the library of AWS only, that is reported. -/
theorem opened_reported {sessions : List (Except Fault Unit)}
    (hs : ∀ f, .error f ∈ sessions → ∃ name text, f.trouble = .foreign .cloudLibrary name text)
    (h : opened sessions = .error f) : f.trouble.isReported = true := by
  unfold opened at h
  cases sessions with
  | nil => cases h
  | cons answer rest =>
    cases answer with
    | ok _ => cases h
    | error g =>
      obtain ⟨name, text, hg⟩ := hs g List.mem_cons_self
      dsimp only [List.head?_cons, Option.getD_some] at h
      unfold noClients at h
      rw [hg] at h
      cases h
      rfl

/-- Work that uses AWS fails without a report if the credentials are not read, or the use does. -/
theorem withCloud_unreported {c : Settings} {use : Provider → Action α}
    (hs : ∀ f, .error f ∈ t.sessions → ∃ name text, f.trouble = .foreign .cloudLibrary name text)
    (hf : f.trouble.isReported = false)
    (h : (withCloud c use).outcome t = .error f) :
    Unread t.disk (t.disk.expand (credentialsFile t.disk c))
        (Settings.parse (credentialsFile t.disk c)) f ∨
      ∃ k, Credentials.load t.disk (credentialsFile t.disk c) = .ok k ∧
        opened t.sessions = .ok () ∧
        (use .aws).outcome (asking t k (c.value "AWS_REGION")) = .error f := by
  rw [withCloud_outcome] at h
  rcases except_bind_eq_error.mp h with h | ⟨k, hk, h⟩
  · exact .inl ((Credentials.load_unreported hf).mp h)
  rcases except_bind_eq_error.mp h with h | ⟨_, ho, h⟩
  · rw [opened_reported hs h] at hf
    cases hf
  · exact .inr ⟨k, hk, ho, h⟩

section Work

variable {c : Settings} {r : Roster}

theorem reading_ok (h : i.reading disk = .ok (c, r)) : i.settings disk = .ok c ∧
    ∃ path, i.agentsFile = .value path ∧
      Roster.read disk path i.command.needsFile = .ok r := by
  obtain ⟨_, hc, h⟩ := except_bind_eq_ok.mp h
  obtain ⟨path, hpath, h⟩ := except_bind_eq_ok.mp h
  obtain ⟨_, hr, h⟩ := except_bind_eq_ok.mp h
  cases h
  exact ⟨hc, path, Given.toPath_eq_ok.mp hpath, hr⟩

theorem ofTexts_of_settings (h : i.settings disk = .ok c) : c.OfTexts := by
  obtain ⟨_, _, h⟩ := except_bind_eq_ok.mp h
  exact Settings.ofTexts_of_load h

/-- A command starts its work in a situation that is workable. -/
theorem Regular.workable (h : i.Regular s) (hr : i.reading s.disk = .ok (c, r))
    (ht : s.Starts r t) : t.Workable (.whole 0) := by
  obtain ⟨_, path, hp, hread⟩ := reading_ok hr
  refine ⟨by rw [ht.disk]; exact h.base, ?_, ?_, by rw [ht.aws]; exact h.answers,
    t.cancellation.refuses_zero⟩
  · rw [ht.roster, Roster.read_path hread]
    exact h.path path hp
  · rw [ht.roster]
    exact Roster.read_writable h.files hread

/-- Whether the wait of a scaling can begin does not depend on what was done before it. -/
theorem refused_asking (ht : s.Starts r t) (k : Credentials) (region : Setting) {scaler : Scaler}
    {target : Int} : scaler.Refused target (asking t k region) ↔
      scaler.Refused target { s with roster := r } := by
  constructor
  · exact fun h => h.congr ht.roster.symm ⟨by rw [← ht.service]; rfl, by rw [← ht.aws]; rfl⟩
      ht.refuses.symm
  · exact fun h => h.congr ht.roster ⟨by rw [← ht.service]; rfl, by rw [← ht.aws]; rfl⟩ ht.refuses

/-- What escapes from the work of a command, unless it is to wait so long that it cannot be told. -/
theorem work_escapes (h : i.Regular s) (hr : i.reading s.disk = .ok (c, r)) (ht : s.Starts r t)
    (hf : f.trouble.isReported = false) (hn : ∀ method, f ≠ .of (.noReply method))
    (he : (i.command.work c).outcome t = .error f) : i.Escapes s f ∨ i.Untold s.disk f := by
  have hworkable := h.workable hr ht
  have hnot := Fault.not_owned hf hn
  obtain ⟨hc, _⟩ := reading_ok hr
  have htexts := ofTexts_of_settings hc
  have hsessions := h.sessions
  rw [← ht.sessions] at hsessions
  have hasking := fun k region => hworkable.congr (t := asking t k region) rfl rfl rfl rfl
  cases hi : i.command with
  | scale count =>
    rw [hi] at he
    unfold work at he
    rw [outcome_bind] at he
    rcases except_bind_eq_error.mp he with he | ⟨_, _, he⟩
    · rcases withCloud_unreported hsessions hf he with hu | ⟨k, hk, ho, he⟩
      · rw [ht.disk] at hu
        exact .inl (.credentialsFile hr (by rw [hi]; rfl) hu)
      · rw [ht.disk] at hk
        rw [ht.sessions] at ho
        rcases (scaleBySettings_fails (hasking k _) he).resolve_left hnot with
          hpolicy | ⟨p, hp, huntold | ⟨template, htemplate, hrefused, rfl⟩⟩
        · obtain ⟨interval, attempts, hinterval, hattempts, hpolicy⟩ :=
            (Settings.poller_unreported htexts hf).mp hpolicy
          exact .inl (.policy hr hi hk ho hinterval hattempts (Poller.ofPolicy_eq_error.mp hpolicy))
        · obtain ⟨interval, attempts, hinterval, hattempts, _, rfl⟩ := Settings.eq_of_poller hp
          refine .inr ⟨count, c, interval, attempts, hi, hc, hinterval, hattempts, ?_⟩
          rcases huntold with hbound | ⟨longest, hbound, htold⟩
          · cases hbound
          · cases hbound
            exact htold
        · exact .inl (.wait hr hi hk ho hp htemplate ((refused_asking ht k _).mp hrefused))
    · cases he
  | balance name =>
    rw [hi] at he
    unfold work at he
    rw [outcome_bind] at he
    rcases except_bind_eq_error.mp he with he | ⟨_, _, he⟩
    · rcases withCloud_unreported hsessions hf he with hu | ⟨k, _, _, he⟩
      · rw [ht.disk] at hu
        exact .inl (.credentialsFile hr (by rw [hi]; rfl) hu)
      · exact absurd ((balanceBySettings_proper htexts name).fails _ (hasking k _) f he) hnot
    · cases he
  | broadcast m d =>
    rw [hi] at he
    have hrun : (do
        let connector ← ofExcept (Connector.ofSettings t.configuration t.disk c)
        let _ ← AgentFleet.broadcast connector (d.getD .sequential) m : Action Unit).outcome t =
          .error f := he
    rw [outcome_bind] at hrun
    rcases except_bind_eq_error.mp hrun with he | ⟨k, _, he⟩
    · obtain ⟨he, _⟩ := ofExcept_eq_error.mp (run_error he)
      rw [ht.configuration, ht.disk] at he
      obtain ⟨timeout, htimeout, hread | ⟨hread, hkey⟩⟩ :=
        (Connector.ofSettings_unreported htexts hf).mp he
      · exact .inl (.configuration hr hi htimeout hread)
      · exact .inl (.keyFile hr hi htimeout hread hkey)
    · rw [outcome_bind] at he
      rcases except_bind_eq_error.mp he with he | ⟨_, _, he⟩
      · rw [broadcast_error he] at hf
        cases hf
      · cases he
  | list =>
    rw [hi] at he
    cases he

theorem withCloud_unread {use : Provider → Action α}
    (h : Unread t.disk (t.disk.expand (credentialsFile t.disk c))
      (Settings.parse (credentialsFile t.disk c)) f) :
    (withCloud c use).outcome t = .error f := by
  rw [withCloud_outcome, (Credentials.load_unreported h.not_reported).mpr h]
  rfl

theorem connectorless {m : Message} {d : Given Delivery}
    (h : Connector.ofSettings t.configuration t.disk c = .error f) :
    (Command.work c (.broadcast m d)).outcome t = .error f := by
  have hrun : (Command.work c (.broadcast m d)).outcome t = (do
      let connector ← ofExcept (Connector.ofSettings t.configuration t.disk c)
      let _ ← AgentFleet.broadcast connector (d.getD .sequential) m : Action Unit).outcome t := rfl
  rw [hrun, h]
  rfl

/-- A fault that escapes is not reported. -/
theorem Escapes.not_reported (h : i.Escapes s f) : f.trouble.isReported = false := by
  cases h with
  | noSettingsFile _ => rfl
  | settingsFile _ _ => rfl
  | noAgentsFile _ _ => rfl
  | agentsFile _ _ _ => rfl
  | credentialsFile _ _ h => exact h.not_reported
  | policy _ _ _ _ _ _ h =>
    rcases h with ⟨_, rfl⟩ | ⟨_, _, rfl⟩
    · rfl
    · rfl
  | wait _ _ _ _ _ _ _ => rfl
  | configuration _ _ _ h => exact Trouble.not_reported_of_isRaw (configure_raw _ _ _ f h)
  | keyFile _ _ _ _ h => exact Trouble.not_reported_of_isRaw (identityFile_raw _ _ f h)

/-- A command to scale fails with what the scaling fails with. -/
theorem perform_scale {k : Credentials} {count : Nat} (hr : i.reading s.disk = .ok (c, r))
    (hs : i.command = .scale count)
    (hk : Credentials.load s.disk (credentialsFile s.disk c) = .ok k)
    (ho : opened s.sessions = .ok ())
    (h : ∀ t, s.Starts r t → (scaleBySettings .aws c count).outcome
      (asking t k (c.value "AWS_REGION")) = .error f) (level : LogLevel) :
    i.perform.outcome { s with level := level } = .error f := by
  obtain ⟨t, ht, hwork⟩ := perform_read hr level
  have hscale : (withCloud c fun p => scaleBySettings p c count).outcome t = .error f := by
    rw [withCloud_outcome, ht.disk, hk, ht.sessions, ho]
    exact h t ht
  rw [hwork, hs]
  unfold work
  rw [outcome_bind, hscale]
  rfl

/-- What escapes does come of the command. -/
theorem Escapes.perform (h : i.Escapes s f) (level : LogLevel) :
    i.perform.outcome { s with level := level } = .error f := by
  have hf := h.not_reported
  have hunread : i.settings s.disk = .error f →
      i.perform.outcome { s with level := level } = .error f := fun h =>
    perform_unread (s := { s with level := level }) (except_bind_eq_error.mpr (.inl h))
  cases h with
  | noSettingsFile h => exact hunread ((settings_unreported hf).mpr (.inl ⟨h, rfl⟩))
  | settingsFile hg h => exact hunread ((settings_unreported hf).mpr (.inr ⟨hg, rfl, h⟩))
  | noAgentsFile hc h =>
    refine perform_unread (s := { s with level := level }) ?_
    unfold reading
    rw [hc, h]
    rfl
  | @agentsFile c path hc hp h =>
    have hread : Roster.read s.disk path i.command.needsFile = .error _ :=
      (Roster.read_unreported hf).mpr ⟨rfl, h⟩
    refine perform_unread (s := { s with level := level }) ?_
    exact except_bind_eq_error.mpr (.inr ⟨c, hc, except_bind_eq_error.mpr (.inr ⟨path,
      Given.toPath_eq_ok.mpr hp, except_bind_eq_error.mpr (.inl hread)⟩)⟩)
  | credentialsFile hr hu h =>
    obtain ⟨t, ht, hwork⟩ := perform_read hr level
    rw [hwork]
    rw [← ht.disk] at h
    cases hi : i.command with
    | scale count =>
      unfold work
      rw [outcome_bind, withCloud_unread h]
      rfl
    | balance name =>
      unfold work
      rw [outcome_bind, withCloud_unread h]
      rfl
    | broadcast m d =>
      rw [hi] at hu
      cases hu
    | list =>
      rw [hi] at hu
      cases hu
  | @policy c r k count interval attempts _ hr hs hk ho hi ha h =>
    have hpoller : c.poller = .error f :=
      (Settings.poller_unreported (ofTexts_of_settings (reading_ok hr).1) hf).mpr
        ⟨interval, attempts, hi, ha, Poller.ofPolicy_eq_error.mpr h⟩
    exact perform_scale hr hs hk ho (fun t _ => by
      rw [outcome, scaleBySettings_unpolled hpoller]) level
  | @wait c _ k _ _ _ hr hs hk ho hp htemplate h =>
    refine perform_scale hr hs hk ho (fun t ht => ?_) level
    obtain ⟨_, _, _, _, h1, rfl⟩ := Settings.eq_of_poller hp
    have hrefused := (refused_asking ht k (c.value "AWS_REGION")).mpr h
    rw [outcome_congr (scaleBySettings_growing hp htemplate hrefused.grows)]
    exact Scaler.scaleTo_unwaited hrefused rfl h1
  | configuration hr hb hw h =>
    obtain ⟨t, ht, hwork⟩ := perform_read hr level
    have hmake := (Connector.ofSettings_unreported (ofTexts_of_settings (reading_ok hr).1) hf).mpr
      ⟨_, hw, .inl h⟩
    rw [hwork, hb]
    exact connectorless (by rw [ht.configuration, ht.disk]; exact hmake)
  | keyFile hr hb hw hc h =>
    obtain ⟨t, ht, hwork⟩ := perform_read hr level
    have hmake := (Connector.ofSettings_unreported (ofTexts_of_settings (reading_ok hr).1) hf).mpr
      ⟨_, hw, .inr ⟨hc, h⟩⟩
    rw [hwork, hb]
    exact connectorless (by rw [ht.configuration, ht.disk]; exact hmake)

end Work

/-- A command that fails without a report fails with what escapes from it, or because it is to wait
so long that it cannot be told. -/
theorem perform_unreported (h : i.Regular s) (hf : f.trouble.isReported = false)
    (hn : ∀ method, f ≠ .of (.noReply method)) {level : LogLevel}
    (he : i.perform.outcome { s with level := level } = .error f) :
    i.Escapes s f ∨ i.Untold s.disk f := by
  cases hr : i.reading s.disk with
  | error g =>
    rw [perform_unread (s := { s with level := level }) hr] at he
    cases he
    exact .inl (reading_unreported hf hr)
  | ok read =>
    obtain ⟨c, r⟩ := read
    obtain ⟨t, ht, hwork⟩ := perform_read hr level
    exact work_escapes h hr ht hf hn (hwork ▸ he)

/-- What is told of a command that failed. -/
def failure (i : Invocation) (f : Fault) : Text :=
  "Command " ++ i.command.name ++ " failed: " ++ f.describe

/-- The exit codes of a command, and the situation it leaves. -/
inductive Exits (i : Invocation) (s : Situation) : Nat → Situation → Prop
  | done {t : Situation} (h : i.perform s = .ok () t) : Exits i s 0 t
  /-- What the command failed with is told, the whole chain, unless the log leaves errors out. -/
  | failed {f : Fault} {t : Situation} (h : i.perform s = .error f t)
      (hf : f.trouble.isReported = true) :
      Exits i s 1 (if t.level.admits .error then t.record (.logged .error (i.failure f)) else t)

section Run

theorem done_run (h : i.perform { s with level := i.level } = .ok () t) : i.run s = .ok 0 t :=
  bind_run (attempt_ok h)

theorem failed_run
    (h : i.perform { s with level := i.level } = .error f t) :
    i.run s = if f.trouble.isReported then
        .ok 1 (if t.level.admits .error then t.record (.logged .error (i.failure f)) else t)
      else .error f t := by
  have hrun : i.run s = (do
      if f.trouble.isReported then
        log .error (.ok (i.failure f))
        return 1
      else throw f : Action Nat) t := bind_run (attempt_error h)
  rw [hrun]
  cases f.trouble.isReported with
  | false => rfl
  | true =>
    have hlog : log .error (.ok (i.failure f)) t = .ok ()
        (if t.level.admits .error then t.record (.logged .error (i.failure f)) else t) := by
      unfold log
      rw [get_bind_run]
      split
      · rfl
      · rfl
    exact bind_run hlog

/-- Besides what a command does, no more than a line of the log is left. -/
theorem run_told (i : Invocation) (s : Situation) :
    (i.perform.after { s with level := i.level }).Told (i.run.after s) := by
  cases hp : i.perform { s with level := i.level } with
  | ok _ t =>
    rw [after_of_ok hp, after_of_ok (done_run hp)]
    exact .refl t
  | error f t =>
    have hrun := failed_run hp
    rw [after_of_error hp]
    cases hf : f.trouble.isReported with
    | false =>
      rw [hf] at hrun
      rw [after_of_error hrun]
      exact .refl t
    | true =>
      rw [hf] at hrun
      rw [after_of_ok hrun]
      split
      · exact ⟨[.logged .error (i.failure f)], rfl, by simp⟩
      · exact .refl t

theorem run_eq_ok {code : Nat} :
    i.run s = .ok code t ↔ i.Exits { s with level := i.level } code t := by
  constructor
  · intro hrun
    cases hp : i.perform { s with level := i.level } with
    | ok _ u =>
      rw [done_run hp] at hrun
      cases hrun
      exact .done hp
    | error f u =>
      rw [failed_run hp] at hrun
      split at hrun
      · rename_i hf
        cases hrun
        exact .failed hp hf
      · cases hrun
  · intro h
    cases h with
    | done hp => exact done_run hp
    | failed hp hf => rw [failed_run hp, if_pos hf]

/-- A command hides nothing that nobody reports, and nothing else comes out of it. -/
theorem run_outcome_error :
    i.run.outcome s = .error f ↔
      i.perform.outcome { s with level := i.level } = .error f ∧ f.trouble.isReported = false := by
  unfold outcome
  cases hp : i.perform { s with level := i.level } with
  | ok _ u => simp [done_run hp]
  | error g u =>
    rw [failed_run hp]
    cases hg : g.trouble.isReported with
    | true =>
      simp only [if_true, reduceCtorEq, Except.error.injEq, false_iff, not_and]
      rintro rfl
      simp [hg]
    | false =>
      simp only [Bool.false_eq_true, if_false, Except.error.injEq]
      refine ⟨?_, And.left⟩
      rintro rfl
      exact ⟨rfl, hg⟩

/-- Where nothing about a command is irregular, and every request is answered: the command ends with
the exit code 0 exactly if it does what it is meant to do, and with 1 exactly if it fails with what
the fleet reports; the chain is told then. One of few faults escapes from it whenever there is one;
besides these, only that it is to wait so long that it cannot be told does. -/
theorem run_exits (h : i.Regular s)
    (hn : ∀ method, i.run.outcome s ≠ .error (.of (.noReply method))) :
    (∀ code t, i.run s = .ok code t ↔ i.Exits { s with level := i.level } code t) ∧
      (∀ f, i.Escapes s f → i.run.outcome s = .error f) ∧
      ∀ f, i.run.outcome s = .error f → i.Escapes s f ∨ i.Untold s.disk f := by
  refine ⟨fun _ _ => run_eq_ok, fun f he => ?_, fun f hrun => ?_⟩
  · exact run_outcome_error.mpr ⟨he.perform i.level, he.not_reported⟩
  · obtain ⟨hfails, hf⟩ := run_outcome_error.mp hrun
    exact perform_unreported h hf (fun method hm => hn method (hm ▸ hrun)) hfails

end Run

/-- The agents of a file are listed. -/
def listing : Invocation :=
  ⟨none, .value "f", .info, .list⟩

/-- The file holds one byte, which is no text. -/
def noText : Situation :=
  .bare ⟨.root, [([[102]], .file (.bytes [0xFF]))], []⟩ ⟨"f", []⟩

theorem regular_listing : listing.Regular noText := by
  refine ⟨fun p c hp => ⟨[0xFF], ?_⟩, ⟨by decide, by decide⟩, ?_, fun o answer hm => (nomatch hm),
    fun f hf => (nomatch hf)⟩
  · have hbytes : Disk.Content.ofBytes [0xFF] = .bytes [0xFF] := by decide +kernel
    unfold Disk.Store.node? at hp
    split at hp
    · cases hp
    · obtain ⟨before, after, hsplit, _⟩ := List.lookup_eq_some_iff.mp hp
      have hm : (p, Disk.Node.file c) ∈ noText.disk.nodes := by
        rw [hsplit]
        simp
      cases List.mem_singleton.mp hm
      exact hbytes.symm
  · rintro path ⟨⟩
    decide

/-- The listing ends with no code. -/
theorem run_exits_noText : listing.run.outcome noText = .error (.of .notText) ∧
    ∀ code t, ¬ listing.Exits { noText with level := .info } code t := by
  have hescapes : listing.Escapes noText (.of .notText) :=
    .agentsFile (show listing.settings noText.disk = .ok ⟨none, []⟩ by decide) rfl
      ⟨[0xFF], ⟨"f", []⟩, by decide, by decide +kernel⟩
  have hrun : listing.run.outcome noText = .error (.of .notText) :=
    run_outcome_error.mpr ⟨hescapes.perform .info, rfl⟩
  have h := @run_exits listing noText regular_listing fun method hm => by
    rw [hrun] at hm
    cases hm
  refine ⟨h.2.1 _ hescapes, fun code t he => ?_⟩
  have hcode := (h.1 code t).mpr he
  rw [outcome, hcode] at hrun
  cases hrun

end Invocation

end AgentFleet
