import AgentFleet.Command
import AgentFleet.Proofs.Outcome
import AgentFleet.Proofs.Keeping
import AgentFleet.Proofs.CloudCalls

namespace AgentFleet
open AgentFleet.Action Cloud

/-- A line that was told or printed. -/
def Event.isLine : Event → Bool
  | .logged .. | .printed _ => true
  | _ => false

namespace Situation

/-- `t` is `s` with more lines told or printed. In one of the two alone signals may be heard. -/
def Aside (s t : Situation) : Prop :=
  ∃ lines heard, t = { s with history := lines ++ s.history, cancellation.heard := heard } ∧
    ∀ e ∈ lines, e.isLine

theorem Aside.refl (s : Situation) : s.Aside s :=
  ⟨[], s.cancellation.heard, rfl, by simp⟩

theorem Aside.trans {s t u : Situation} (h : s.Aside t) (h' : t.Aside u) : s.Aside u := by
  obtain ⟨lines, _, rfl, hs⟩ := h
  obtain ⟨more, heard, rfl, ht⟩ := h'
  refine ⟨more ++ lines, heard, by simp, fun e he => ?_⟩
  rcases List.mem_append.mp he with he | he
  · exact ht e he
  · exact hs e he

theorem Aside.disk {s t : Situation} (h : s.Aside t) : t.disk = s.disk := by
  obtain ⟨_, _, rfl, _⟩ := h
  rfl

theorem Aside.sessions {s t : Situation} (h : s.Aside t) : t.sessions = s.sessions := by
  obtain ⟨_, _, rfl, _⟩ := h
  rfl

theorem Aside.releasable {s t : Situation} (h : s.Aside t) : t.releasable = s.releasable := by
  obtain ⟨_, _, rfl, _⟩ := h
  rfl

theorem Aside.hearing (s : Situation) (heard : Bool) :
    s.Aside { s with cancellation.heard := heard } :=
  ⟨[], heard, rfl, by simp⟩

/-- `t` is `s` as the work of a command begins: of what it depends on, the roster alone may be
another one. -/
structure Starts (s : Situation) (r : Roster) (t : Situation) : Prop where
  disk : t.disk = s.disk
  roster : t.roster = r
  service : t.service = s.service
  aws : t.aws = s.aws
  sessions : t.sessions = s.sessions
  configuration : t.configuration = s.configuration
  refuses : t.cancellation.refuses = s.cancellation.refuses

theorem Aside.starts {s t : Situation} {level : LogLevel} {r : Roster}
    (h : { s with level := level, roster := r }.Aside t) : s.Starts r t := by
  obtain ⟨_, _, rfl, _⟩ := h
  exact ⟨rfl, rfl, rfl, rfl, rfl, rfl, rfl⟩

theorem Told.aside {s t : Situation} (h : s.Told t) : s.Aside t := by
  obtain ⟨told, rfl, hlogged⟩ := h
  refine ⟨told, s.cancellation.heard, rfl, fun e he => ?_⟩
  obtain ⟨severity, text, rfl⟩ := hlogged e he
  rfl

end Situation

namespace Action

/-- An action that cannot fail. -/
def Sure (act : Action Unit) : Prop :=
  ∀ s, ∃ t, act s = .ok () t

theorem Sure.bind {act : Action Unit} {next : Unit → Action Unit} (h : Sure act)
    (hn : Sure (next ())) : Sure (act >>= next) := by
  intro s
  obtain ⟨t, ht⟩ := h s
  obtain ⟨u, hu⟩ := hn t
  exact ⟨u, (bind_run ht).trans hu⟩

theorem Sure.modify (g : Situation → Situation) : Sure (modify g) :=
  fun s => ⟨g s, rfl⟩

/-- An action that cannot fail, and does no more than tell and print. -/
def Tells (act : Action Unit) : Prop :=
  ∀ s, ∃ t, act s = .ok () t ∧ s.Aside t

namespace Tells

theorem pure : Tells (Pure.pure ()) :=
  fun s => ⟨s, rfl, .refl s⟩

theorem bind {act : Action Unit} {next : Unit → Action Unit} (h : Tells act)
    (hn : Tells (next ())) : Tells (act >>= next) := by
  intro s
  obtain ⟨t, ht, hst⟩ := h s
  obtain ⟨u, hu, htu⟩ := hn t
  exact ⟨u, (bind_run ht).trans hu, hst.trans htu⟩

theorem get_bind {next : Situation → Action Unit} (h : ∀ s, Tells (next s)) :
    Tells (get >>= next) :=
  fun s => h s s

theorem info (text : Text) : Tells (Action.info text) := fun s =>
  let ⟨t, ht, told⟩ := info_told text s
  ⟨t, ht, told.aside⟩

theorem warn (text : Text) : Tells (Action.warn text) := fun s =>
  let ⟨t, ht, told⟩ := warn_told text s
  ⟨t, ht, told.aside⟩

theorem print (line : Text) : Tells (Action.print line) :=
  fun s => ⟨s.record (.printed line), rfl, [.printed line], s.cancellation.heard, rfl,
    by simp [Event.isLine]⟩

theorem whenever {p : Prop} [Decidable p] {act : Action Unit} (h : Tells act) :
    Tells (if p then act else Pure.pure ()) := by
  split
  · exact h
  · exact pure

theorem prints (lines : List α) (line : α → Text) :
    Tells (lines.forM fun a => Action.print (line a)) := by
  induction lines with
  | nil => exact pure
  | cons a rest ih => exact (print (line a)).bind ih

end Tells

/-- What does no more than tell and print changes nothing about what comes of the action before
it. -/
theorem bind_tells {act : Action α} {next : α → Action Unit} (h : ∀ a, Tells (next a))
    (s : Situation) : (act >>= next).outcome s = (act >>= fun _ => pure ()).outcome s ∧
      ((act >>= fun _ => pure ()).after s).Aside ((act >>= next).after s) := by
  rw [outcome_bind, outcome_bind, after_bind, after_bind]
  cases act.outcome s with
  | error f => exact ⟨rfl, .refl _⟩
  | ok a =>
    obtain ⟨t, ht, haside⟩ := h a (act.after s)
    constructor
    · change (next a).outcome (act.after s) = .ok ()
      rw [outcome, ht]
    · change (act.after s).Aside ((next a).after (act.after s))
      rwa [after_of_ok ht]

theorem always_run {act : Action α} {last : Action Unit} (h : Sure last) (s : Situation) :
    (act.always last).outcome s = act.outcome s ∧
      (act.always last).after s = last.after (act.after s) := by
  cases hr : act s with
  | ok a t =>
    obtain ⟨u, hu⟩ := h t
    have hrun : act.always last s = .ok a u := (bind_run (attempt_ok hr)).trans (bind_run hu)
    rw [after_of_ok hrun, after_of_ok hr, after_of_ok hu, outcome, outcome, hrun, hr]
    exact ⟨rfl, rfl⟩
  | error f t =>
    obtain ⟨u, hu⟩ := h t
    have hrun : act.always last s = .error f u :=
      (bind_run (attempt_error hr)).trans (bind_run hu)
    rw [after_of_error hrun, after_of_error hr, after_of_ok hu, outcome, outcome, hrun, hr]
    exact ⟨rfl, rfl⟩

theorem hearing_run (act : Action α) (s : Situation) :
    (hearing act).outcome s = act.outcome { s with cancellation.heard := true } ∧
      (act.after { s with cancellation.heard := true }).Aside ((hearing act).after s) := by
  have hrun := @always_run _ act _ (Sure.modify fun t =>
    { t with cancellation.heard := s.cancellation.heard }) { s with cancellation.heard := true }
  refine ⟨hrun.1, ?_⟩
  have hafter : (hearing act).after s = _ := hrun.2
  rw [hafter]
  exact .hearing _ _

end Action

theorem sure_shutdown : Sure Provider.aws.shutdown :=
  (Sure.modify _).bind (Sure.modify _)

namespace Command

/-- Where the credentials are that the settings name. -/
def credentialsFile (disk : Disk.Store) (c : Settings) : Text :=
  disk.expand (c.value "AWS_CREDENTIALS").shown

/-- What comes of opening a session with AWS. -/
def opened (sessions : List (Except Fault Unit)) : Except Fault Unit :=
  match sessions.head?.getD (.ok ()) with
  | .ok () => .ok ()
  | .error f => .error (((noClients f).map f.because).getD f)

/-- The situation in which a session was asked for. -/
def asking (s : Situation) (k : Credentials) (region : Setting) : Situation :=
  { s.record (.session k region) with sessions := s.sessions.tail }

theorem openSession_run (k : Credentials) (region : Setting) (s : Situation) :
    (openSession k region).explain noClients s =
      (ofExcept (opened s.sessions) : Action Unit) (asking s k region) := by
  obtain ⟨disk, roster, service, aws, sessions, releasable, hosts, configuration, cancellation,
    level, history⟩ := s
  cases sessions with
  | nil => rfl
  | cons answer rest =>
    cases answer with
    | ok _ => rfl
    | error f => exact explain_error_run noClients rfl

theorem connect_unread {c : Settings} {s : Situation} {f : Fault}
    (h : Credentials.load s.disk (credentialsFile s.disk c) = .error f) :
    connect c s = .error f s := by
  have hrun : connect c s = (do
      let k ← ofExcept (Credentials.load s.disk (credentialsFile s.disk c))
      (openSession k (c.value "AWS_REGION")).explain noClients : Action Unit) s := rfl
  rw [hrun, h]
  rfl

theorem connect_read {c : Settings} {s : Situation} {k : Credentials}
    (h : Credentials.load s.disk (credentialsFile s.disk c) = .ok k) :
    connect c s =
      (ofExcept (opened s.sessions) : Action Unit) (asking s k (c.value "AWS_REGION")) := by
  have hrun : connect c s = (do
      let k ← ofExcept (Credentials.load s.disk (credentialsFile s.disk c))
      (openSession k (c.value "AWS_REGION")).explain noClients : Action Unit) s := rfl
  rw [hrun, h]
  exact openSession_run k (c.value "AWS_REGION") s

/-- AWS is used once the credentials are loaded and a session is opened. -/
theorem withCloud_outcome (c : Settings) (use : Provider → Action α) (s : Situation) :
    (withCloud c use).outcome s = (do
      let k ← Credentials.load s.disk (credentialsFile s.disk c)
      opened s.sessions
      (use .aws).outcome (asking s k (c.value "AWS_REGION"))) := by
  unfold withCloud
  cases hk : Credentials.load s.disk (credentialsFile s.disk c) with
  | error f =>
    rw [outcome, bind_run_error (connect_unread hk)]
    rfl
  | ok k =>
    have hconnect := connect_read hk
    cases ho : opened s.sessions with
    | error f =>
      rw [ho] at hconnect
      rw [outcome, bind_run_error hconnect]
      rfl
    | ok _ =>
      rw [ho] at hconnect
      rw [outcome_congr (bind_run hconnect), (always_run sure_shutdown _).1]
      rfl

/-- AWS was used, and its clients were given back. -/
theorem withCloud_reached {c : Settings} {use : Provider → Action α} {s : Situation}
    {k : Credentials} (hk : Credentials.load s.disk (credentialsFile s.disk c) = .ok k)
    (ho : opened s.sessions = .ok ()) :
    (withCloud c use).after s =
      Provider.aws.shutdown.after ((use .aws).after (asking s k (c.value "AWS_REGION"))) := by
  have hconnect := connect_read hk
  rw [ho] at hconnect
  unfold withCloud
  rw [after_congr (bind_run hconnect), (always_run sure_shutdown _).2]

/-- AWS was not used. A session may have been asked for. -/
theorem withCloud_unreached {c : Settings} {use : Provider → Action α} {s : Situation}
    (h : ∀ k, Credentials.load s.disk (credentialsFile s.disk c) = .ok k →
      opened s.sessions ≠ .ok ()) :
    (withCloud c use).after s = s ∨
      ∃ k, (withCloud c use).after s = asking s k (c.value "AWS_REGION") := by
  unfold withCloud
  cases hk : Credentials.load s.disk (credentialsFile s.disk c) with
  | error f =>
    rw [after, bind_run_error (connect_unread hk)]
    exact .inl rfl
  | ok k =>
    have hconnect := connect_read hk
    cases ho : opened s.sessions with
    | error f =>
      rw [ho] at hconnect
      rw [after, bind_run_error hconnect]
      exact .inr ⟨k, rfl⟩
    | ok _ => exact absurd ho (h k hk)

/-- What a command needs of its roster: a file, or none if there is none. -/
def needsFile : Command → Bool
  | scale _ => false
  | _ => true

/-- What a command does that has its settings and the path of its roster. -/
def carryOut (path : Text) (c : Settings) : Command → Action Unit
  | scale count => hearing (runScale path c count)
  | balance name => runBalance path c name
  | broadcast m d => runBroadcast path c m (d.getD .sequential)
  | list => runList path

/-- What a command does with the files that it has read. -/
def work (c : Settings) : Command → Action Unit
  | scale count => do let _ ← withCloud c fun p => scaleBySettings p c count
  | balance name => do let _ ← withCloud c fun p => balanceBySettings p c name
  | broadcast m d => do
    let connector ← ofExcept (Connector.ofSettings (← get).configuration (← get).disk c)
    let _ ← AgentFleet.broadcast connector (d.getD .sequential) m
  | list => pure ()

section Reading

variable {s : Situation} {path : Text} {c : Settings} {command : Command}

theorem load_unread {path : Text} {mustExist : Bool} {f : Fault}
    (h : Roster.read s.disk path mustExist = .error f) :
    Roster.load path mustExist s = .error f s := by
  unfold Roster.load
  rw [get_bind_run, h]
  rfl

theorem load_read {path : Text} {mustExist : Bool} {r : Roster}
    (h : Roster.read s.disk path mustExist = .ok r) :
    Roster.load path mustExist s = .ok () { s with roster := r } := by
  unfold Roster.load
  rw [get_bind_run, h]
  rfl

theorem carryOut_unread {f : Fault}
    (h : Roster.read s.disk path command.needsFile = .error f) :
    command.carryOut path c s = .error f s := by
  cases command with
  | scale count =>
    have hrun : runScale path c count { s with cancellation.heard := true } = .error f _ :=
      bind_run_error (load_unread h)
    -- signals are heard again as they were before
    exact bind_run (attempt_error hrun)
  | balance name => exact bind_run_error (load_unread h)
  | broadcast m d => exact bind_run_error (load_unread h)
  | list => exact bind_run_error (load_unread h)

/-- Besides its work a command only tells what it does. -/
theorem carryOut_read {r : Roster} (h : Roster.read s.disk path command.needsFile = .ok r) :
    ∃ t, { s with roster := r }.Aside t ∧
      (command.carryOut path c).outcome s = (command.work c).outcome t ∧
      ((command.work c).after t).Aside ((command.carryOut path c).after s) := by
  cases command with
  | scale count =>
    have hrun : runScale path c count { s with cancellation.heard := true } = _ :=
      bind_run (load_read h)
    refine ⟨{ s with cancellation.heard := true, roster := r },
      .hearing { s with roster := r } true, ?_⟩
    obtain ⟨houtcome, hafter⟩ := hearing_run (runScale path c count) s
    rw [after_congr hrun] at hafter
    rw [carryOut, houtcome, outcome_congr hrun]
    have htells : ∀ result : ScaleResult, Tells (do
        info ("Fleet has " ++ counted (← get).roster.agents ++ " agent(s): " ++
          counted result.added ++ " added, " ++ counted result.removed ++ " removed")
        if result.timedOut ≠ [] then
          warn ("Instance(s) " ++ commaSeparated result.timedOut ++
            " did not become ready and must be cleaned up manually")
        if result.unresolved ≠ [] then
          warn ("Agent(s) " ++ commaSeparated (result.unresolved.map (·.line)) ++
            " were removed but no instance was found to terminate")) := by
      intro result
      refine Tells.get_bind fun u => (Tells.info _).bind ?_
      have hunresolved := Tells.whenever (p := result.unresolved ≠ []) (Tells.warn
        ("Agent(s) " ++ commaSeparated (result.unresolved.map (·.line)) ++
          " were removed but no instance was found to terminate"))
      dsimp only
      split
      · exact (Tells.warn _).bind hunresolved
      · exact hunresolved
    obtain ⟨hsame, haside⟩ := @bind_tells _ (withCloud c fun p => scaleBySettings p c count) _
      htells { s with cancellation.heard := true, roster := r }
    exact ⟨hsame, haside.trans hafter⟩
  | balance name =>
    have hrun : runBalance path c name s = _ := bind_run (load_read h)
    refine ⟨{ s with roster := r }, .refl _, ?_⟩
    rw [carryOut, outcome_congr hrun, after_congr hrun]
    exact bind_tells (fun ids => Tells.info _) _
  | broadcast m d =>
    have hrun : runBroadcast path c m (d.getD .sequential) s = _ := bind_run (load_read h)
    obtain ⟨t, ht, told⟩ := info_told ("Loaded agents file: " ++ r.path) { s with roster := r }
    refine ⟨t, told.aside, ?_⟩
    have hall := hrun.trans ((get_bind_run _).trans (bind_run ht))
    rw [carryOut, outcome_congr hall, after_congr hall]
    exact ⟨rfl, .refl _⟩
  | list =>
    have hrun : runList path s = _ := (bind_run (load_read h)).trans (get_bind_run _)
    refine ⟨{ s with roster := r }, .refl _, ?_⟩
    rw [carryOut, outcome_congr hrun, after_congr hrun]
    have htells : Tells (do
        r.agents.forM fun a => print a.line
        info (counted r.agents ++ " agent(s) registered in " ++ r.path)) :=
      (Tells.prints r.agents Agent.line).bind (Tells.info _)
    obtain ⟨t, ht, haside⟩ := htells { s with roster := r }
    rw [outcome, ht, after_of_ok ht]
    exact ⟨rfl, haside⟩

end Reading

end Command

namespace Given

variable {g : Given Text}

theorem toPath_eq_ok {path : Text} : g.toPath = .ok path ↔ g = .value path := by
  cases g <;> simp [toPath]

theorem toPath_eq_error {f : Fault} : g.toPath = .error f ↔ g = .nothing ∧ f = .of .notPath := by
  cases g <;> simp [toPath, eq_comm]

end Given

namespace Invocation

/-- The settings that a command is carried out with. -/
def settings (i : Invocation) (disk : Disk.Store) : Except Fault Settings := do
  let path ← i.settingsFile.mapM Given.toPath
  Settings.load disk path []

/-- The settings and the roster that a command is carried out with. -/
def reading (i : Invocation) (disk : Disk.Store) : Except Fault (Settings × Roster) := do
  let c ← i.settings disk
  let path ← i.agentsFile.toPath
  let r ← Roster.read disk path i.command.needsFile
  return (c, r)

variable {i : Invocation} {s : Situation}

theorem perform_run (i : Invocation) (s : Situation) : i.perform s = (do
    let c ← ofExcept (i.settings s.disk)
    let path ← ofExcept i.agentsFile.toPath
    i.command.carryOut path c : Action Unit) s := by
  unfold perform settings
  cases i.settingsFile.mapM Given.toPath with
  | error f => rfl
  | ok path => rfl

/-- A command that cannot read its files fails with what kept it from that, and does nothing. -/
theorem perform_unread_run {f : Fault} (h : i.reading s.disk = .error f) :
    i.perform s = .error f s := by
  rw [i.perform_run s]
  unfold reading at h
  rcases except_bind_eq_error.mp h with h | ⟨c, hc, h⟩
  · rw [h]
    rfl
  rcases except_bind_eq_error.mp h with h | ⟨path, hpath, h⟩
  · rw [hc, h]
    rfl
  rcases except_bind_eq_error.mp h with h | ⟨r, _, h⟩
  · rw [hc, hpath]
    exact Command.carryOut_unread h
  · cases h

theorem perform_unread {f : Fault} (h : i.reading s.disk = .error f) :
    i.perform.outcome s = .error f := by
  rw [outcome, perform_unread_run h]

/-- A command that has read its files does its work with them. -/
theorem perform_work {c : Settings} {r : Roster} (h : i.reading s.disk = .ok (c, r)) :
    ∃ t, { s with roster := r }.Aside t ∧
      i.perform.outcome s = (i.command.work c).outcome t ∧
      ((i.command.work c).after t).Aside (i.perform.after s) := by
  rw [outcome_congr (i.perform_run s), after_congr (i.perform_run s)]
  obtain ⟨_, hc, h⟩ := except_bind_eq_ok.mp h
  obtain ⟨path, hpath, h⟩ := except_bind_eq_ok.mp h
  obtain ⟨_, hr, h⟩ := except_bind_eq_ok.mp h
  cases h
  rw [hc, hpath]
  exact Command.carryOut_read hr

theorem perform_read {c : Settings} {r : Roster} (h : i.reading s.disk = .ok (c, r))
    (level : LogLevel) : ∃ t, s.Starts r t ∧
      i.perform.outcome { s with level := level } = (i.command.work c).outcome t := by
  obtain ⟨t, hst, houtcome, _⟩ := perform_work (s := { s with level := level }) h
  exact ⟨t, Situation.Aside.starts (s := s) hst, houtcome⟩

end Invocation

end AgentFleet
