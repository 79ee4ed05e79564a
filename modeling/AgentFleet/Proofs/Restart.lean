import AgentFleet.Proofs.AgentsFile
import AgentFleet.Proofs.Shrinking
import AgentFleet.Proofs.Watching

namespace AgentFleet
open AgentFleet.Action Cloud

/-- A path leads to where a file of this path is written. -/
def Disk.Store.Straight (s : Store) (path : Text) : Prop :=
  ∀ p, s.Leads (s.target path).text p → s.Leads (s.expand path) p

/-- A path that is written out in full is straight. -/
theorem Disk.Store.straight_of_full {s : Store} {path : Text}
    (h : s.expand path = (s.target path).text) : s.Straight path := by
  intro p hp
  rw [h]
  exact hp

open Roster

/-- A path leads where it led, and loads as the roster if it leads to where the roster is written.
Else it loads as at first. -/
structure Kept (first : Situation) (disk : Disk.Store) (r : Roster) : Prop where
  path_eq : r.path = first.roster.path
  base_eq : disk.base = first.disk.base
  leads : ∀ path p, disk.Leads path p ↔ first.disk.Leads path p
  fit : ∀ a ∈ r.agents, a.Fit
  nodup : r.agents.Nodup
  straight : first.disk.Straight r.path → Loads disk r.path r.agents
  crooked : ¬ first.disk.Straight r.path → Loads disk r.path first.roster.agents

namespace Kept

variable {first s t : Situation} {agents : List Agent} {f : Fault}

theorem start (h : Loads first.disk first.roster.path first.roster.agents) :
    Kept first first.disk first.roster :=
  ⟨rfl, rfl, fun _ _ => Iff.rfl, h.fit.1, h.fit.2, fun _ => h, fun _ => h⟩

/-- The list in memory is loaded exactly if the path leads to where it is written, or nothing has
changed. -/
theorem loads_iff {disk : Disk.Store} {r : Roster} (h : Kept first disk r) :
    Loads disk r.path r.agents ↔
      first.disk.Straight first.roster.path ∨ r.agents = first.roster.agents := by
  rw [← h.path_eq]
  constructor
  · intro hl
    by_cases hs : first.disk.Straight r.path
    · exact .inl hs
    · exact .inr (hl.unique (h.crooked hs))
  · rintro (hs | he)
    · exact h.straight hs
    · by_cases hs : first.disk.Straight r.path
      · exact h.straight hs
      · rw [he]
        exact h.crooked hs

theorem pastUpset (h : Kept first s.disk s.roster) : Kept first s.disk.pastUpset s.roster := by
  have hp : ∀ path agents, Loads s.disk.pastUpset path agents ↔ Loads s.disk path agents :=
    fun _ _ => loads_congr rfl (s.disk.pastUpset_hasPath _) fun _ => by
      rw [s.disk.pastUpset_read]
  refine ⟨h.path_eq, h.base_eq, fun path p => ?_, h.fit, h.nodup, ?_, ?_⟩
  · exact Disk.Store.pastUpset_leads.trans (h.leads path p)
  · exact fun hs => (hp _ _).mpr (h.straight hs)
  · exact fun hs => (hp _ _).mpr (h.crooked hs)

theorem commit (h : Kept first s.disk s.roster) (hf : ∀ a ∈ agents, a.Fit) (hn : agents.Nodup)
    (hc : Roster.commit agents s = .ok () t) : Kept first t.disk t.roster := by
  obtain ⟨disk, ⟨p, hp, w⟩, rfl⟩ := commit_ok hc
  have htarget : first.disk.Leads (first.disk.target s.roster.path).text p := by
    rw [← target_congr h.base_eq]
    exact (h.leads _ _).mp hp
  have hopened : s.disk.expand s.roster.path = first.disk.expand s.roster.path := by
    simp only [Disk.Store.expand, h.base_eq]
  have hexpand : disk.expand s.roster.path = s.disk.expand s.roster.path := by
    simp only [Disk.Store.expand, w.base]
  -- a path that does not lead to `p` misses what is written there
  refine ⟨h.path_eq, w.base.trans h.base_eq, fun path q => w.leads.trans (h.leads path q), hf, hn,
    fun hs => ?_, fun hs => ?_⟩
  · have hl : s.disk.Leads (s.disk.expand s.roster.path) p := by
      rw [hopened]
      exact (h.leads _ _).mpr (hs p htarget)
    refine loads_of_file ?_ hf hn
    rw [hexpand]
    exact w.read_same hl
  · have hl : ¬ s.disk.Leads (s.disk.expand s.roster.path) p := by
      intro hl
      refine hs fun q hq => ?_
      rw [hq.unique htarget, ← hopened]
      exact (h.leads _ _).mp hl
    exact (loads_congr hexpand (w.hasPath_other hl) (w.read_other hl)).mpr (h.crooked hs)

end Kept

/-- An address that the cloud reports is missing, empty, or fit. A public one does not look like a
comment. -/
def FitReport (outer inner : Option Text) : Prop :=
  (∀ t ∈ present? outer, FitAddress t ∧ t.head? ≠ some (.char '#')) ∧
    ∀ t ∈ present? inner, FitAddress t

theorem Scaler.agentOf_fit {i : Instance} (h : Watched.Seen FitReport i) : (agentOf i).Fit := by
  obtain ⟨hready, houter, hinner⟩ := h
  obtain ⟨t, ht⟩ := Option.isSome_iff_exists.mp (Bool.and_eq_true_iff.mp hready).2
  have he : i.publicAddress.getD [] = t := by
    rw [mem_of_present? ht]
    rfl
  obtain ⟨hfit, hno⟩ := houter t ht
  refine ⟨?_, ?_, ?_⟩
  · simpa [agentOf, he] using hfit
  · cases hp : present? i.privateAddress with
    | none => simpa [agentOf, hp, he] using hfit
    | some p => simpa [agentOf, hp] using hinner p hp
  · simpa [agentOf, he] using hno

namespace Scaler

variable {first s t : Situation} (scaler : Scaler)

/-- A scaling as far as it got. -/
abbrev Underway (first : Situation) : Situation → Prop :=
  Watched (Kept first) FitReport first

theorem Underway.commit {agents : List Agent} (h : Underway first s) (hf : ∀ a ∈ agents, a.Fit)
    (hn : agents.Nodup) (hc : Roster.commit agents s = .ok () t) : Underway first t := by
  have hk := h.now.commit hf hn hc
  obtain ⟨disk, _, rfl⟩ := commit_ok hc
  exact h.move hk

theorem Underway.refused (h : Underway first s) :
    Underway first { s with disk := s.disk.pastUpset } :=
  h.move h.now.pastUpset

theorem underway_add {a : Agent} (ha : a.Fit) : Keeps (Underway first) (Roster.add a) Any := by
  intro s h
  split
  · rename_i added t hr
    refine ⟨?_, trivial⟩
    rcases add_ok hr with ⟨_, _, rfl⟩ | ⟨hm, _, hc⟩
    · exact h
    · refine h.commit (fun b hb => ?_) (by simpa using h.now.nodup.concat hm) hc
      rcases List.mem_append.mp hb with hb | hb
      · exact h.now.fit b hb
      · rw [List.mem_singleton.mp hb]
        exact ha
  · rename_i f t hr
    rw [add_error hr]
    exact h.refused

theorem underway_take (count : Int) (strategy : Strategy) :
    Keeps (Underway first) (Roster.take count strategy) Any := by
  intro s h
  split
  · rename_i taken t hr
    refine ⟨?_, trivial⟩
    obtain ⟨_, ⟨_, _, rfl⟩ | ⟨_, _, hc⟩⟩ := take_ok hr
    · exact h
    · exact h.commit (fun a ha => h.now.fit a (List.mem_of_mem_filter ha)) (h.now.nodup.filter _) hc
  · rename_i f t hr
    rcases take_error hr with rfl | rfl
    · exact h
    · exact h.refused

theorem underway_scaleTo (target : Int) :
    Keeps (Underway first) (scaler.scaleTo target) Any := by
  have lasting := Watched.lasting (Kept first) FitReport first
  refine lasting.scaleTo scaler (fun id => ?_) (fun _ => underway_take _ _) target
  exact lasting.enroll scaler (Watched.waitUntilReady scaler.provider scaler.poller id)
    fun i hi => underway_add (agentOf_fit hi)

/-- What is asked while a fleet shrinks is asked once it is written who stays. -/
theorem shrinking_moments {s : Situation} {scaler : Scaler} {target : Int} {removed : List Agent}
    (h0 : 0 ≤ target) (ht : target < s.roster.agents.length)
    (hp : scaler.strategy.pick (surplus s target) s.roster.agents = .ok removed)
    (hr : s.Reports FitReport) :
    ∀ m ∈ s.momentsSince ((scaler.scaleTo target).after s),
      Roster.Stored s.disk m.1 s.roster.path (staying s removed) ∧
      m.2 = ⟨s.roster.path, staying s removed⟩ := by
  obtain ⟨u, told, hrun⟩ := scaleTo_run h0 ht hp
  obtain ⟨lines, rfl, htold⟩ := told
  have hquiet := Situation.moment?_of_told htold
  have hcommit := Roster.commit_run (staying s removed) { s with history := lines ++ s.history }
  cases hw : s.disk.replace (s.disk.target s.roster.path) (agentLines (staying s removed)) with
  | mk result disk =>
    rw [hw] at hcommit
    cases result with
    | error f =>
      have hend : ((scaler.scaleTo target).after s).history = lines ++ s.history := by
        rw [after, hrun, bind_run_error hcommit]
      rw [Situation.momentsSince_eq hend, List.filterMap_eq_nil_iff.mpr hquiet]
      simp
    | ok u =>
      have hstored : Roster.Stored s.disk disk s.roster.path (staying s removed) :=
        Disk.Store.replace_ok hw
      have hnow : Watched (fun d r => Roster.Stored s.disk d s.roster.path (staying s removed) ∧
          r = ⟨s.roster.path, staying s removed⟩) FitReport s
          { s with history := lines ++ s.history, disk, roster.agents := staying s removed } := by
        refine ⟨⟨hstored, rfl⟩, ⟨lines, rfl, fun e he d r hm => ?_⟩, hr.service, hr.aws⟩
        rw [hquiet e he] at hm
        cases hm
      rw [after_congr (hrun.trans (bind_run hcommit))]
      exact (((Watched.lasting _ _ s).dismiss scaler target removed).after hnow).moments.2

/-- At every request of a scaling, and when it is over, the path loads as the list in memory exactly
if it leads to where the file is written, or the list has not changed. Requests of a scaling to
fewer agents find a file with as many agents as meant to stay, and none of those that leave. -/
theorem scaleTo_loads_iff {s : Situation} {scaler : Scaler} {target : Int}
    (hl : Loads s.disk s.roster.path s.roster.agents) (hr : s.Reports FitReport) :
    (∃ done, ((scaler.scaleTo target).after s).history = done ++ s.history) ∧
    (∀ m ∈ (((scaler.scaleTo target).after s).disk, ((scaler.scaleTo target).after s).roster) ::
        s.momentsSince ((scaler.scaleTo target).after s),
      Loads m.1 s.roster.path m.2.agents ↔
        s.disk.Straight s.roster.path ∨ m.2.agents = s.roster.agents) ∧
    ∀ removed, 0 ≤ target → target < s.roster.agents.length →
      scaler.strategy.pick (surplus s target) s.roster.agents = .ok removed →
      ∀ m ∈ s.momentsSince ((scaler.scaleTo target).after s),
        m.2.agents.length = target ∧ (∀ a ∈ removed, a ∉ m.2.agents) ∧
        ∃ text, m.1.read (m.1.target s.roster.path).text = .ok (.text text) ∧
          Roster.parse s.roster.path text = .ok m.2 := by
  have h := (scaler.underway_scaleTo target).after (.refl (.start hl) hr)
  have hloads : ∀ {disk : Disk.Store} {r : Roster}, Kept s disk r →
      (Loads disk s.roster.path r.agents ↔
        s.disk.Straight s.roster.path ∨ r.agents = s.roster.agents) := by
    intro disk r hk
    rw [← hk.loads_iff, hk.path_eq]
  refine ⟨h.moments.1, fun m hm => ?_, fun removed h0 ht hp m hm => ?_⟩
  · rcases List.mem_cons.mp hm with rfl | hm
    · exact hloads h.now
    · exact hloads (h.moments.2 m hm)
  · obtain ⟨hstored, he⟩ := shrinking_moments h0 ht hp hr m hm
    rw [he]
    refine ⟨length_staying hl.fit.2 h0 ht hp, fun a ha => by simp [ha], _, hstored.read, ?_⟩
    refine Roster.parse_agentLines _ (fun a ha => ?_) (hl.fit.2.filter _)
    exact hl.fit.1 a (List.mem_of_mem_filter ha)

/-- An instance is created, and ready at once. -/
def growing (path : Text) : Situation :=
  { Situation.bare ⟨.root, [], []⟩ ⟨path, []⟩ with
    service := fun
      | .createInstances => [.ok [⟨"i-1", some "pending", none, none⟩]]
      | .describeInstances => [.ok [⟨"i-1", some "running", some "a", some "x"⟩]]
      | _ => [] }

theorem growing_reports (path : Text) : (growing path).Reports FitReport := by
  have hfit : FitReport (some "a") (some "x") := by
    constructor
    · rintro t ⟨⟩
      decide
    · rintro t ⟨⟩
      decide
  refine ⟨fun l hl i hi => ?_, fun page hp => by cases hp⟩
  cases List.mem_singleton.mp hl
  cases List.mem_singleton.mp hi
  exact hfit

/-- A path with a slash at its end names the file that is written, and leads to none. -/
theorem scaleTo_loads_iff_growing :
    Loads ((oldestOut.scaleTo 1).after (growing "/f")).disk "/f" [⟨"a", "x"⟩] ∧
    ¬ Loads ((oldestOut.scaleTo 1).after (growing "f/")).disk "f/" [⟨"a", "x"⟩] := by
  constructor
  · have hagents : ((oldestOut.scaleTo 1).after (growing "/f")).roster.agents = [⟨"a", "x"⟩] := by
      decide +kernel
    have h := (@scaleTo_loads_iff (growing "/f") oldestOut 1 rfl (growing_reports _)).2.1
    generalize (oldestOut.scaleTo 1).after (growing "/f") = t at h hagents ⊢
    rw [← hagents]
    exact (h _ List.mem_cons_self).mpr (.inl (Disk.Store.straight_of_full (by decide)))
  · have hagents : ((oldestOut.scaleTo 1).after (growing "f/")).roster.agents = [⟨"a", "x"⟩] := by
      decide +kernel
    have h := (@scaleTo_loads_iff (growing "f/") oldestOut 1 rfl (growing_reports _)).2.1
    generalize (oldestOut.scaleTo 1).after (growing "f/") = t at h hagents ⊢
    rw [← hagents]
    intro hl
    rcases (h _ List.mem_cons_self).mp hl with hs | he
    · cases hs [[102]] rfl
    · rw [hagents] at he
      cases he

end Scaler

end AgentFleet
