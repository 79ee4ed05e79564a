import AgentFleet.Proofs.Escaping
import AgentFleet.Proofs.Lasting
import AgentFleet.Proofs.Showing

namespace AgentFleet
open AgentFleet.Action AgentFleet.Command Cloud

/-- What happens to the clients of AWS. -/
inductive ClientStep
  | requested (r : Aws.Request)
  | released (client : Aws.Client)
  deriving DecidableEq, Repr

def Event.clientStep? : Event → Option ClientStep
  | .sent r .. => some (.requested r)
  | .released client => some (.released client)
  | _ => none

namespace Situation

/-- AWS was asked this since, and no client was released. -/
def Requested (requests : List Aws.Request) (s t : Situation) : Prop :=
  t.releasable = s.releasable ∧ s.Shows Event.clientStep? (requests.map .requested) t

/-- The clients that can be released, that of instances first. -/
def releasableClients (s : Situation) : List Aws.Client :=
  [.instances, .balancers].filter s.releasable

variable {s t u : Situation}

theorem Requested.trans {requests more : List Aws.Request} (h : Requested requests s t)
    (h' : Requested more t u) : Requested (requests ++ more) s u := by
  refine ⟨h'.1.trans h.1, ?_⟩
  rw [List.map_append]
  exact h.2.trans h'.2

theorem requested_record {e : Event} (he : e.isRelease = false) (s : Situation) :
    ∃ requests, Requested requests s (s.record e) := by
  cases e with
  | sent r disk roster => exact ⟨[r], rfl, .of_event rfl rfl⟩
  | released client => cases he
  | _ => exact ⟨[], rfl, .of_event rfl rfl⟩

/-- However much is asked, no client is released on the way. -/
theorem lasting_requested (first : Situation) :
    Lasting fun s => ∃ requests, Requested requests first s := by
  apply Lasting.of_record
  · rintro s e he ⟨requests, h⟩
    obtain ⟨more, hmore⟩ := requested_record he s
    exact ⟨requests ++ more, h.trans hmore⟩
  · rintro s service aws ⟨requests, h⟩
    exact ⟨requests, h⟩
  · rintro s c ⟨requests, h⟩
    exact ⟨requests, h⟩

theorem Aside.idle (h : s.Aside t) : s.Shows Event.clientStep? [] t := by
  refine h.unseen fun e he => ?_
  cases e with
  | logged | printed => rfl
  | _ => cases he

end Situation

open Situation

theorem after_release (client : Aws.Client) (s : Situation) : (release client).after s =
    if s.releasable client then s.record (.released client) else s := rfl

theorem after_shutdown (s : Situation) : Provider.aws.shutdown.after s =
    (release .balancers).after ((release .instances).after s) := rfl

theorem release_releases (client : Aws.Client) (s : Situation) :
    ((release client).after s).releasable = s.releasable ∧
      s.Shows Event.clientStep? (if s.releasable client then [.released client] else [])
        ((release client).after s) := by
  rw [after_release]
  split
  · exact ⟨rfl, .of_event rfl rfl⟩
  · exact ⟨rfl, .refl s⟩

theorem shutdown_releases (s : Situation) :
    s.Shows Event.clientStep? (s.releasableClients.map .released)
      (Provider.aws.shutdown.after s) := by
  obtain ⟨hsame, hfirst⟩ := release_releases .instances s
  obtain ⟨_, hsecond⟩ := release_releases .balancers ((release .instances).after s)
  rw [hsame] at hsecond
  have hclients : s.releasableClients.map ClientStep.released =
      (if s.releasable .instances then [.released .instances] else []) ++
        (if s.releasable .balancers then [.released .balancers] else []) := by
    unfold releasableClients
    rw [List.filter_cons, List.filter_cons, List.filter_nil]
    cases s.releasable .instances <;> cases s.releasable .balancers <;> rfl
  rw [after_shutdown, hclients]
  exact hfirst.trans hsecond

namespace Command

/-- The credentials are read, and a session with AWS is opened. -/
def Opens (c : Settings) (s : Situation) : Prop :=
  ∃ k, Credentials.load s.disk (credentialsFile s.disk c) = .ok k ∧ opened s.sessions = .ok ()

variable {c : Settings} {s t : Situation} {use : Provider → Action α}

theorem opens_congr (hd : t.disk = s.disk) (hs : t.sessions = s.sessions) :
    Opens c t ↔ Opens c s := by
  unfold Opens
  rw [hd, hs]

theorem withCloud_releases (h : Opens c s)
    (huse : ∀ first, Keeps (fun t => ∃ requests, Requested requests first t) (use .aws) Any) :
    ∃ requests : List Aws.Request, s.Shows Event.clientStep?
      (requests.map .requested ++ s.releasableClients.map .released)
      ((withCloud c use).after s) := by
  obtain ⟨k, hk, ho⟩ := h
  rw [withCloud_reached hk ho]
  -- to ask for a session is no step of a client
  have hasked : Requested [] s (asking s k (c.value "AWS_REGION")) := ⟨rfl, .of_event rfl rfl⟩
  obtain ⟨requests, hused⟩ := (huse s).after ⟨[], hasked⟩
  have hclients : ((use .aws).after (asking s k (c.value "AWS_REGION"))).releasableClients =
      s.releasableClients := by
    unfold releasableClients
    rw [hused.1]
  refine ⟨requests, hused.2.trans ?_⟩
  rw [← hclients]
  exact shutdown_releases _

theorem withCloud_untouched (h : ¬ Opens c s) :
    s.Shows Event.clientStep? [] ((withCloud c use).after s) := by
  have hunreached : ∀ k, Credentials.load s.disk (credentialsFile s.disk c) = .ok k →
      opened s.sessions ≠ .ok () := fun k hk ho => h ⟨k, hk, ho⟩
  rcases @withCloud_unreached _ c use s hunreached with he | ⟨k, he⟩
  · rw [he]
    exact .refl s
  · rw [he]
    exact .of_event rfl rfl

/-- The work of a command that asks AWS is done by way of its clients. -/
theorem work_uses {command : Command} (hu : command.usesCloud = true) (c : Settings)
    (s : Situation) :
    (Opens c s → ∃ requests : List Aws.Request, s.Shows Event.clientStep?
      (requests.map .requested ++ s.releasableClients.map .released)
      ((command.work c).after s)) ∧
    (¬ Opens c s → s.Shows Event.clientStep? [] ((command.work c).after s)) := by
  have hwork : ∀ {α : Type} (act : Action α),
      (do let _ ← act : Action Unit).after s = act.after s := by
    intro α act
    rw [after_bind]
    cases act.outcome s <;> rfl
  cases command with
  | scale count =>
    rw [work, hwork]
    refine ⟨fun h => withCloud_releases h fun first => ?_, withCloud_untouched⟩
    have hcommit := Lasting.commit (I := fun t => ∃ requests, Requested requests first t)
      fun _ _ _ h => h
    exact (lasting_requested first).scaleBySettings .aws hcommit c count
  | balance name =>
    rw [work, hwork]
    refine ⟨fun h => withCloud_releases h fun first => ?_, withCloud_untouched⟩
    have hrecord : ∀ dnsName, Keeps (fun t => ∃ requests, Requested requests first t)
        (recordName Default.balancerFile dnsName) Any := fun _ =>
      (lasting_requested first).recordName fun _ h => h
    exact (lasting_requested first).balanceBySettings .aws c name hrecord
  | broadcast m d => cases hu
  | list => cases hu

end Command

namespace Invocation

variable {i : Invocation}

/-- The files of a command are read, and with them it gets a session with AWS. -/
def Reaches (i : Invocation) (s : Situation) : Prop :=
  ∃ c r, i.reading s.disk = .ok (c, r) ∧ Opens c s

theorem perform_releases (hu : i.command.usesCloud = true) (s : Situation) :
    (i.Reaches s → ∃ requests : List Aws.Request, s.Shows Event.clientStep?
      (requests.map .requested ++ s.releasableClients.map .released) (i.perform.after s)) ∧
    (¬ i.Reaches s → s.Shows Event.clientStep? [] (i.perform.after s)) := by
  cases hr : i.reading s.disk with
  | error f =>
    rw [after_of_error (perform_unread_run hr)]
    refine ⟨fun ⟨c, r, hread, _⟩ => ?_, fun _ => .refl s⟩
    rw [hr] at hread
    cases hread
  | ok read =>
    obtain ⟨c, r⟩ := read
    obtain ⟨t, hbefore, _, hafter⟩ := perform_work hr
    have hstart : s.Shows Event.clientStep? [] t := hbefore.idle.congr rfl rfl
    have hopen : Opens c t ↔ Opens c s := opens_congr hbefore.disk hbefore.sessions
    have hclients : t.releasableClients = s.releasableClients := by
      unfold releasableClients
      rw [hbefore.releasable]
    obtain ⟨hopens, hcloses⟩ := work_uses hu c t
    rw [hclients, hopen] at hopens
    rw [hopen] at hcloses
    constructor
    · rintro ⟨c', r', hread, ho⟩
      obtain ⟨rfl, rfl⟩ := Prod.mk.inj (Except.ok.inj (hr.symm.trans hread))
      obtain ⟨requests, hwork⟩ := hopens ho
      exact ⟨requests, (hstart.trans hwork).onward hafter.idle⟩
    · intro hno
      have hwork := hcloses fun ho => hno ⟨c, r, hr, ho⟩
      exact (hstart.trans hwork).onward hafter.idle

/-- A command that gets to its work with AWS asks what it asks, and then each client that can be
released is released, once and in order; that holds wherever the command breaks off, and whatever
comes of it. One that does not get there asks nothing and releases nothing. -/
theorem run_releases (hu : i.command.usesCloud = true) (s : Situation) :
    (i.Reaches s → ∃ requests : List Aws.Request, s.Shows Event.clientStep?
      (requests.map .requested ++ s.releasableClients.map .released) (i.run.after s)) ∧
    (¬ i.Reaches s → s.Shows Event.clientStep? [] (i.run.after s)) := by
  have hlevel : s.Shows Event.clientStep? [] { s with level := i.level } := .of_history rfl
  have hlast := (run_told i s).aside.idle
  obtain ⟨hreached, hunreached⟩ := perform_releases hu { s with level := i.level }
  constructor
  · intro h
    obtain ⟨requests, hperform⟩ := hreached h
    exact ⟨requests, (hlevel.trans hperform).onward hlast⟩
  · intro h
    exact (hlevel.trans (hunreached h)).onward hlast

/-- The first agent of a fleet is wanted. -/
def firstAgent : Invocation :=
  ⟨some (.value "f"), .value "a", .error, .scale 1⟩

/-- One file holds the settings and the keys. AWS answers the creation with no word about
instances. -/
def wordless : Situation :=
  { Situation.bare ⟨.root, [([[102]], .file
      (.text "AWS_AMI=m\nAWS_CREDENTIALS=f\naccessKey=a\nsecretKey=b"))], []⟩ ⟨"", []⟩ with
    aws := fun
      | .createInstances => [.ok none]
      | _ => [] }

theorem firstAgent_reaches : firstAgent.Reaches wordless :=
  ⟨_, _, rfl, _, rfl, rfl⟩

/-- A fault escapes that nobody reports. Both clients are released. -/
theorem run_releases_wordless :
    firstAgent.run.outcome wordless = .error (.of (.missingKey "Instances")) ∧
      ∃ requests : List Aws.Request, wordless.Shows Event.clientStep?
        (requests.map .requested ++ [.released .instances, .released .balancers])
        (firstAgent.run.after wordless) := by
  refine ⟨by decide +kernel, ?_⟩
  exact (run_releases (i := firstAgent) rfl wordless).1 firstAgent_reaches

end Invocation

end AgentFleet
