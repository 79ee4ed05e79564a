import AgentFleet.Proofs.Pooling
import AgentFleet.Proofs.Reading
import AgentFleet.Proofs.Sequence

namespace AgentFleet
open AgentFleet.Action

/-- Trouble with files, as it came. -/
def Trouble.isRaw : Trouble → Bool
  | disk _ | notText | notPath | foreign .. => true
  | _ => false

/-- The fleet does not report it. -/
theorem Trouble.not_reported_of_isRaw {t : Trouble} (h : t.isRaw = true) :
    t.isReported = false := by
  unfold isRaw at h
  split at h
  · rfl
  · rfl
  · rfl
  · rfl
  · cases h

/-- A computation fails only with trouble that is raw. -/
def Raw (x : Except Fault α) : Prop :=
  ∀ f, x = .error f → f.trouble.isRaw = true

namespace Raw

theorem ok {a : α} : Raw (.ok a : Except Fault α) :=
  fun _ h => nomatch h

theorem error {f : Fault} (h : f.trouble.isRaw = true) : Raw (.error f : Except Fault α) := by
  rintro g ⟨⟩
  exact h

theorem bind {x : Except Fault α} {g : α → Except Fault β} (h : Raw x) (hg : ∀ a, Raw (g a)) :
    Raw (x >>= g) := by
  intro f hf
  rcases except_bind_eq_error.mp hf with hf | ⟨a, _, hf⟩
  · exact h f hf
  · exact hg a f hf

end Raw

section Files

variable (disk : Disk.Store)

theorem readableFile_raw (kind path : Text) : Raw (readableFile disk kind path) := by
  refine Raw.bind ?_ fun _ => Raw.ok
  unfold checkReadable
  split
  · exact Raw.error rfl
  · split
    · exact Raw.error rfl
    · split
      · exact Raw.error rfl
      · exact Raw.ok

theorem toPath?_raw (path : Setting) : Raw path.toPath? := by
  unfold Setting.toPath?
  split
  · exact Raw.ok
  · split
    · exact Raw.ok
    · exact Raw.error rfl

theorem identityFile_raw (path : Setting) : Raw (identityFile disk path) := by
  refine (toPath?_raw path).bind fun path => ?_
  cases path with
  | none => exact Raw.ok
  | some p => exact (readableFile_raw disk _ p).bind fun _ => Raw.ok

theorem configure_raw (load : Link.Loader) (path : Setting) : Raw (configure load disk path) := by
  have hfile : Raw (configurationFile disk path) := (toPath?_raw path).bind fun p => by
    cases p with
    | none => exact Raw.ok
    | some p => exact (readableFile_raw disk _ p).bind fun _ => Raw.ok
  refine hfile.bind fun path f hf => ?_
  obtain ⟨_, _, rfl⟩ := mapError_eq_error.mp hf
  rfl

end Files

/-- A connector is not made for a reason that is not reported exactly if one of its files is not
read, or the library does not take the configuration. -/
theorem Connector.ofSettings_unreported {load : Link.Loader} {disk : Disk.Store} {c : Settings}
    (hc : c.OfTexts) {f : Fault} (hf : f.trouble.isReported = false) :
    Connector.ofSettings load disk c = .error f ↔
      ∃ timeout, c.whole "AGENT_CONNECT_TIMEOUT" = .ok timeout ∧
        (configure load disk (c.value "AGENT_SSH_CONFIG_FILE").given = .error f ∨
          configure load disk (c.value "AGENT_SSH_CONFIG_FILE").given = .ok () ∧
            identityFile disk (c.value "AGENT_IDENTITY_FILE").given = .error f) := by
  constructor
  · intro h
    rcases except_bind_eq_error.mp h with h | ⟨timeout, ht, h⟩
    · rw [Settings.whole_error hc ⟨_, rfl⟩ h] at hf
      cases hf
    refine ⟨timeout, ht, ?_⟩
    rcases except_bind_eq_error.mp h with h | ⟨_, hr, h⟩
    · exact .inl h
    rcases except_bind_eq_error.mp h with h | ⟨_, _, h⟩
    · exact .inr ⟨hr, h⟩
    · cases h
  · rintro ⟨timeout, ht, h⟩
    refine except_bind_eq_error.mpr (.inr ⟨timeout, ht, ?_⟩)
    rcases h with h | ⟨hr, h⟩
    · exact except_bind_eq_error.mpr (.inl h)
    · exact except_bind_eq_error.mpr (.inr ⟨(), hr, except_bind_eq_error.mpr (.inl h)⟩)

section Broadcasting

variable {c : Connector} {m : Message} {s : Situation} {f : Fault}

/-- A delivery fails only with the failure of an agent. -/
theorem deliver_error {d : Delivery} {agents : List Agent}
    (h : (d.deliver c m agents).outcome s = .error f) : ∃ a g, f = undelivered a g := by
  cases d with
  | sequential =>
    have htakes := Sequential.deliver_takes c m agents s
    rw [Delivery.deliver, htakes.1] at h
    cases hf : firstFailure? (c.failure? m s) agents with
    | none =>
      rw [hf] at h
      cases h
    | some g =>
      rw [hf] at h
      cases h
      obtain ⟨a, _, ha⟩ := List.exists_of_findSome?_eq_some hf
      obtain ⟨g, _, rfl⟩ := Option.map_eq_some_iff.mp ha
      exact ⟨a, g, rfl⟩
  | parallel workers positive =>
    have hrun := run_error h
    rcases bind_eq_error.mp hrun with hrun | ⟨_, t, _, hrun⟩
    · cases hrun
    · obtain ⟨_, a, g, _, _, rfl⟩ := Parallel.verdict_eq_error.mp (ofExcept_eq_error.mp hrun).1
      exact ⟨a, g, rfl⟩

/-- A broadcast fails only with what the fleet reports itself. -/
theorem broadcast_error {d : Delivery} (h : (broadcast c d m).outcome s = .error f) :
    f.trouble.isReported = true := by
  have hrun := run_error h
  unfold broadcast at hrun
  rw [get_bind_run] at hrun
  dsimp only at hrun
  split at hrun
  · rcases bind_eq_error.mp hrun with hrun | ⟨_, _, _, hrun⟩
    · obtain ⟨t, ht, _⟩ := warn_told ("No agents registered in " ++ s.roster.path ++
        ". Nothing to send.") s
      rw [ht] at hrun
      cases hrun
    · cases hrun
  · obtain ⟨t, ht, _⟩ := info_told ("Sending message " ++ m.type ++ " to " ++
      Text.ofNat s.roster.agents.length ++ " agent(s)") s
    rw [bind_run ht] at hrun
    rcases bind_eq_error.mp hrun with hrun | ⟨n, u, _, hrun⟩
    · obtain ⟨a, g, rfl⟩ := deliver_error (by rw [outcome, hrun])
      rfl
    · obtain ⟨v, hv, _⟩ := info_told "Message sent!" u
      rw [bind_run hv] at hrun
      cases hrun

end Broadcasting

end AgentFleet
