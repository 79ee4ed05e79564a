import AgentFleet.Proofs.Closing

namespace AgentFleet
open AgentFleet.Action AgentFleet.Command Cloud Situation

/-- Where the name file of balancing is. -/
abbrev Default.nameFile : NameFile :=
  some Default.balancerFile

namespace Command

theorem beside_withCloud {file : NameFile} {first : Situation} {use : Provider → Action α}
    (c : Settings) (huse : Keeps (Beside file first) (use .aws) Any) :
    Keeps (Beside file first) (withCloud c use) Any := by
  refine Brings.of_after fun s h => ?_
  have hrelease : ∀ (client : Aws.Client) (t : Situation),
      ((release client).after t).disk = t.disk := by
    intro client t
    rw [after_release]
    split <;> rfl
  have hshutdown : ∀ t : Situation, (Provider.aws.shutdown.after t).disk = t.disk := by
    intro t
    rw [after_shutdown, hrelease, hrelease]
  by_cases ho : Opens c s
  · obtain ⟨k, hk, ho⟩ := ho
    rw [withCloud_reached hk ho]
    have hasked : Beside file first (asking s k (c.value "AWS_REGION")) := h.congr rfl
    exact (huse.after hasked).congr (hshutdown _)
  · rcases @withCloud_unreached _ c use s fun k hk ho' => ho ⟨k, hk, ho'⟩ with he | ⟨k, he⟩
    · rw [he]
      exact h
    · rw [he]
      exact h.congr rfl

/-- Only scaling writes to more than the name file. -/
theorem beside_work {command : Command} (hc : ∀ count, command ≠ .scale count) (c : Settings)
    (first : Situation) : Keeps (Beside Default.nameFile first) (command.work c) Any := by
  have lasting := lasting_beside Default.nameFile first
  cases command with
  | scale count => exact absurd rfl (hc count)
  | balance name =>
    have huse := lasting.balanceBySettings .aws c name (beside_recordName first _ rfl)
    exact (beside_withCloud c huse).bind fun _ _ => Brings.pure trivial
  | broadcast m d =>
    exact Brings.get_bind fun s _ => Brings.get_bind fun t _ =>
      Brings.bind Brings.ofAny fun connector _ =>
      (lasting.broadcast connector m _).bind fun _ _ => Brings.pure trivial
  | list => exact Brings.pure trivial

end Command

namespace Invocation

/-- A file that a command loads first is not loaded: the settings; or the agents file, because it
is missing where it is needed, is not read, or has a line that is wrong. -/
inductive Unloaded (i : Invocation) (disk : Disk.Store) : Prop
  | settings {f : Fault} (h : i.settings disk = .error f)
  | missing {path : Text} (hp : i.agentsFile = .value path) (hc : ∀ count, i.command ≠ .scale count)
      (h : disk.hasPath (disk.expand path) = false)
  | unread {path : Text} (hp : i.agentsFile = .value path)
      (hhas : disk.hasPath (disk.expand path) = true)
      (h : ∀ text, disk.read (disk.expand path) ≠ .ok (.text text))
  | malformed {path text : Text} {f : Fault} (hp : i.agentsFile = .value path)
      (hhas : disk.hasPath (disk.expand path) = true)
      (ht : disk.read (disk.expand path) = .ok (.text text)) (h : Roster.parse path text = .error f)

variable {i : Invocation} {s : Situation}

theorem Unloaded.reading {disk : Disk.Store} (h : i.Unloaded disk) :
    ∃ f, i.reading disk = .error f := by
  have hroster : ∀ path, i.agentsFile = .value path →
      (∃ f, Roster.read disk path i.command.needsFile = .error f) →
      ∃ f, i.reading disk = .error f := by
    rintro path hp ⟨f, hread⟩
    cases hs : i.settings disk with
    | error g => exact ⟨g, except_bind_eq_error.mpr (.inl hs)⟩
    | ok c =>
      exact ⟨f, except_bind_eq_error.mpr (.inr ⟨c, hs, except_bind_eq_error.mpr (.inr ⟨path,
        Given.toPath_eq_ok.mpr hp, except_bind_eq_error.mpr (.inl hread)⟩)⟩)⟩
  cases h with
  | settings h => exact ⟨_, except_bind_eq_error.mpr (.inl h)⟩
  | @missing path hp hc h =>
    have hneeds : i.command.needsFile = true := by
      cases hi : i.command with
      | scale count => exact absurd hi (hc count)
      | _ => rfl
    refine hroster path hp ⟨.of (.agentsFile path "file does not exist" none), ?_⟩
    simp [Roster.read, h, hneeds]
  | @unread path hp hhas h =>
    exact hroster path hp (Roster.read_unparsed hhas (parseFile_noText h))
  | @malformed path text f hp hhas ht h =>
    exact hroster path hp (Roster.read_unparsed hhas ⟨f, by rw [parseFile_text ht, h]⟩)

theorem beside_perform (hc : ∀ count, i.command ≠ .scale count) (s : Situation) :
    Beside Default.nameFile s (i.perform.after s) := by
  cases hr : i.reading s.disk with
  | error f =>
    rw [after_of_error (perform_unread_run hr)]
    exact .of_disk rfl
  | ok read =>
    obtain ⟨c, r⟩ := read
    obtain ⟨t, hbefore, _, hafter⟩ := perform_work hr
    exact ((beside_work hc c s).after (.of_disk hbefore.disk)).congr hafter.disk

/-- Whatever comes of a command other than scaling, every file but the name file is as it was, the
agents file among them, and none is there that was missing. And a command that cannot load its files
does no more than tell so: it asks nothing of AWS or of a host, and writes nothing. -/
theorem run_leaves (i : Invocation) (s : Situation) :
    ((∀ count, i.command ≠ .scale count) → ∀ path,
      (∀ p, s.disk.Leads (s.disk.expand path) p →
        ¬ s.disk.Leads (s.disk.expand Default.balancerFile) p) →
      (∀ c, (i.run.after s).disk.read (s.disk.expand path) = .ok c ↔
        s.disk.read (s.disk.expand path) = .ok c) ∧
      (i.run.after s).disk.hasPath (s.disk.expand path) = s.disk.hasPath (s.disk.expand path)) ∧
    (i.Unloaded s.disk → { s with level := i.level }.Told (i.run.after s)) := by
  have htold := run_told i s
  constructor
  · intro hc path hother
    have hbeside := (beside_perform hc { s with level := i.level }).congr htold.aside.disk
    refine hbeside.same_other fun p hp file hfile => ?_
    cases hfile
    exact hother p hp
  · intro h
    obtain ⟨f, hread⟩ := h.reading
    rwa [after_of_error (perform_unread_run (s := { s with level := i.level }) hread)] at htold

/-- The agents of a file are put behind a balancer. -/
def balancing (path : Text) : Invocation :=
  ⟨some (.value "f"), .value path, .error, .balance "b"⟩

/-- The file of agents has a comment, and an agent twice. There is no balancer so far. -/
def commented : Situation :=
  { Situation.bare ⟨.root, [
      ([[102]], .file (.text "AWS_CREDENTIALS=f\naccessKey=a\nsecretKey=b")),
      ([[97]], .file (.text "# all\na,x\na,x\n"))], []⟩ ⟨"", []⟩ with
    aws := fun
      | .describeBalancers => [.ok []]
      | .createBalancer => [.ok (some "n")]
      | .describeInstances => [.ok ⟨[], none⟩]
      | _ => [] }

theorem commented_expand : commented.disk.expand "a" = "a" := by
  decide

theorem commented_elsewhere (p : Disk.Place)
    (h : commented.disk.Leads (commented.disk.expand "a") p) :
    ¬ commented.disk.Leads (commented.disk.expand Default.balancerFile) p := by
  have ha : commented.disk.Leads (commented.disk.expand "a") [[97]] := by
    unfold Disk.Store.Leads
    decide
  rw [h.unique ha]
  unfold Disk.Store.Leads
  decide

/-- The name of the balancer is written, and the file of agents stays. Without a file of agents
nothing is done. -/
theorem run_leaves_commented :
    ((balancing "a").run.after commented).disk.read "aws-elb.txt" = .ok (.text "n\n") ∧
    ((balancing "a").run.after commented).disk.read "a" = .ok (.text "# all\na,x\na,x\n") ∧
    { commented with level := .error }.Told ((balancing "z").run.after commented) := by
  have hfile := ((balancing "a").run_leaves commented).1 nofun "a" commented_elsewhere
  rw [commented_expand] at hfile
  have hread : commented.disk.read "a" = .ok (.text "# all\na,x\na,x\n") := by decide
  have hunloaded : (balancing "z").Unloaded commented.disk := .missing rfl nofun (by decide)
  refine ⟨by decide +kernel, (hfile.1 _).mpr hread, ?_⟩
  exact ((balancing "z").run_leaves commented).2 hunloaded

end Invocation

end AgentFleet
