import AgentFleet.Proofs.AgentsFile
import AgentFleet.Proofs.RosterHistory

namespace AgentFleet
open AgentFleet.Action

/-- A path leads to where a file of another path is written. -/
def Disk.Store.Reaches (s : Store) (path written : Text) : Prop :=
  ∀ p, s.Leads (s.target written).text p → s.Leads (s.expand path) p

/-- The path of a target in full leads there. -/
theorem Disk.Store.reaches_full (s : Store) (written : Text) :
    s.Reaches (s.target written).text written := by
  intro p hp
  have he : s.expand (s.target written).text = (s.target written).text := by
    unfold Disk.Target.text
    split <;> rfl
  rwa [he]

namespace Roster

section Stored

variable {before after : Disk.Store} {path written : Text} {agents : List Agent} {r : Roster}
  {mustExist : Bool}

theorem Stored.expand (h : Stored before after written agents) (path : Text) :
    after.expand path = before.expand path := by
  simp only [Disk.Store.expand, h.base]

/-- Where agents were written they are read, if they are fit. -/
theorem Stored.read_back (h : Stored before after written agents) (hp : before.Reaches path written)
    (hf : ∀ a ∈ agents, a.Fit) (hn : agents.Nodup) :
    Roster.read after path mustExist = .ok ⟨path, agents⟩ := by
  have he := h.expand path
  obtain ⟨p, hl, w⟩ := h
  refine read_of_file ?_ hf hn
  rw [he]
  exact w.read_same (hp p hl)

/-- A roster that was read, and is written with its own path, is read again. The path may lead
elsewhere than to what is written, which leaves what is read there as it was. -/
theorem Stored.read_again (h : Stored before after r.path r.agents)
    (hr : Roster.read before path mustExist = .ok r) :
    Roster.read after path mustExist = .ok r := by
  have hpath := read_path hr
  obtain ⟨hf, hn⟩ := read_fit hr
  rw [hpath] at h
  by_cases hreach : before.Reaches path path
  · rw [h.read_back hreach hf hn, ← hpath]
  · have he := h.expand path
    obtain ⟨p, hl, w⟩ := h
    have hp : ¬ before.Leads (before.expand path) p := fun hp =>
      hreach fun q hq => hq.unique hl ▸ hp
    exact (read_congr he (w.hasPath_other hp) (w.read_other hp)).mpr hr

end Stored

/-- What a save has written is read back from every path that leads there exactly if it is fit for a
file. All that is read is fit, so what is read, saved and read again is the same. -/
theorem saved_read_iff {s t : Situation} {other : Option Text} (hn : s.roster.agents.Nodup)
    (hs : save other s = .ok () t) :
    (∀ path mustExist, s.disk.Reaches path ((Cloud.present? other).getD s.roster.path) →
      ((read t.disk path mustExist).map (·.agents) = .ok s.roster.agents ↔
        ∀ a ∈ s.roster.agents, a.Fit)) ∧
    s.disk.Reaches (s.disk.target ((Cloud.present? other).getD s.roster.path)).text
      ((Cloud.present? other).getD s.roster.path) ∧
    (∀ disk path mustExist r, read disk path mustExist = .ok r → ∀ a ∈ r.agents, a.Fit) ∧
    ∀ path mustExist, read s.disk path mustExist = .ok s.roster →
      (other = none → read t.disk path mustExist = .ok s.roster) ∧
      ∀ path', s.disk.Reaches path' ((Cloud.present? other).getD s.roster.path) →
        read t.disk path' mustExist = .ok ⟨path', s.roster.agents⟩ := by
  obtain ⟨disk, hst, rfl⟩ := save_ok hs
  refine ⟨fun path mustExist hp => ⟨fun h => ?_, fun hf => ?_⟩, s.disk.reaches_full _,
    fun disk path mustExist r hr => (read_fit hr).1, fun path mustExist hr => ⟨?_, ?_⟩⟩
  · cases hr : read disk path mustExist with
    | error f =>
      rw [hr] at h
      cases h
    | ok r =>
      rw [hr] at h
      have he : r.agents = s.roster.agents := Except.ok.inj h
      exact he ▸ (read_fit hr).1
  · rw [hst.read_back hp hf hn]
    rfl
  · rintro rfl
    exact hst.read_again hr
  · intro path' hp
    exact hst.read_back hp (read_fit hr).1 hn

/-- A roster to be saved on an empty disk. -/
def unsaved (agents : List Agent) : Situation :=
  .bare ⟨.root, [], []⟩ ⟨"f", agents⟩

/-- An agent with a comma in its address is written, and is not read. -/
theorem saved_read_iff_unsaved :
    (read ((save none).after (unsaved [⟨"a", "x"⟩])).disk "/f" true).map (·.agents) =
        .ok [⟨"a", "x"⟩] ∧
      (read ((save none).after (unsaved [⟨"a,b", "x"⟩])).disk "/f" true).map (·.agents) ≠
        .ok [⟨"a,b", "x"⟩] := by
  constructor
  · have h := @saved_read_iff (unsaved [⟨"a", "x"⟩]) _ none (by decide) (run_ok (by decide))
    exact (h.1 "/f" true h.2.1).mpr (by decide)
  · have h := @saved_read_iff (unsaved [⟨"a,b", "x"⟩]) _ none (by decide) (run_ok (by decide))
    intro hr
    have hf := (h.1 "/f" true h.2.1).mp hr ⟨"a,b", "x"⟩ (by decide)
    exact absurd hf.outer.noComma (by decide)

end Roster

end AgentFleet
