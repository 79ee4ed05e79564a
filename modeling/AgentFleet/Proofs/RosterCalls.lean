import AgentFleet.Roster.File
import AgentFleet.Proofs.Replacement
import Mathlib.Data.List.Nodup

namespace AgentFleet
open AgentFleet.Action

/-- What is picked of agents: as many as asked for, none of them twice, and no others. -/
structure Picked (agents : List Agent) (count : Nat) (picked : List Agent) : Prop where
  nodup : picked.Nodup
  length_eq : picked.length = count
  mem : ∀ a ∈ picked, a ∈ agents

namespace Picked

variable {agents picked : List Agent} {count : Nat}

/-- Who is picked and who stays are all the agents. -/
theorem perm (h : Picked agents count picked) (hn : agents.Nodup) :
    (picked ++ agents.filter (· ∉ picked)).Perm agents := by
  refine (List.perm_ext_iff_of_nodup ?_ hn).mpr ?_
  · refine List.nodup_append.mpr ⟨h.nodup, hn.filter _, ?_⟩
    intro a ha b hb e
    subst e
    simp [ha] at hb
  · intro a
    have := h.mem a
    by_cases ha : a ∈ picked <;> simp_all

theorem length_kept (h : Picked agents count picked) (hn : agents.Nodup) :
    (agents.filter (· ∉ picked)).length = agents.length - count := by
  have := (h.perm hn).length_eq
  rw [List.length_append, h.length_eq] at this
  omega

end Picked

/-- Different positions hold different agents. -/
theorem nodup_at_positions {agents : List Agent} (hn : agents.Nodup) {positions : List Nat}
    (hlt : ∀ p ∈ positions, p < agents.length) (hp : positions.Nodup) :
    (positions.filterMap (agents[·]?)).Nodup := by
  induction positions with
  | nil => simp
  | cons p rest ih =>
    have hin : p < agents.length := hlt p (by simp)
    have hrest := ih (fun q hq => hlt q (by simp [hq])) (List.nodup_cons.mp hp).2
    rw [List.filterMap_cons_some (List.getElem?_eq_getElem hin)]
    refine List.nodup_cons.mpr ⟨?_, hrest⟩
    intro hm
    obtain ⟨q, hq, he⟩ := List.mem_filterMap.mp hm
    have hpq : p = q := (List.getElem?_inj hin hn).mp (by rw [he, List.getElem?_eq_getElem hin])
    exact (List.nodup_cons.mp hp).1 (hpq ▸ hq)

theorem Draw.picked (draw : Draw) {agents : List Agent} {count : Nat} (hn : agents.Nodup)
    (hc : count ≤ agents.length) :
    Picked agents count ((draw.positions agents.length count).filterMap (agents[·]?)) := by
  refine ⟨nodup_at_positions hn (draw.lt_total hc) (draw.nodup hc), ?_, ?_⟩
  · refine Eq.trans (List.filterMap_length_eq_length.mpr ?_) (draw.length_eq hc)
    intro p hp
    simpa using draw.lt_total hc p hp
  · intro a ha
    obtain ⟨p, _, he⟩ := List.mem_filterMap.mp ha
    exact List.mem_of_getElem? he

theorem Strategy.pick_spec {strategy : Strategy} {agents picked : List Agent} {count : Nat}
    (hn : agents.Nodup) (hc : count ≤ agents.length)
    (h : strategy.pick count agents = .ok picked) : Picked agents count picked := by
  cases strategy with
  | oldestFirst =>
    cases h
    exact ⟨hn.take, by simp [hc], fun a ha => List.mem_of_mem_take ha⟩
  | newestFirst =>
    cases h
    refine ⟨(List.nodup_reverse.mpr hn).take, by simp [hc], ?_⟩
    intro a ha
    exact List.mem_reverse.mp (List.mem_of_mem_take ha)
  | random draw =>
    cases h
    exact draw.picked hn hc
  | unknown name => cases h

namespace Roster

variable {s t : Situation} {path : Text} {agents picked : List Agent} {f : Fault}

/-- `after` is `before` with agents written to the file that a path names. -/
def Stored (before after : Disk.Store) (path : Text) (agents : List Agent) : Prop :=
  ∃ p, before.Leads (before.target path).text p ∧ before.Written after p (agentLines agents)

/-- What is reported of a replacement that failed. -/
def saveFault (target : Disk.Target) (f : Disk.Fault) : Fault :=
  if f.isSystem then
    (Fault.of (.disk f)).because (.notSaved target.text (Fault.of (.disk f)).message)
  else .of (.disk f)

/-- Only trouble of the system is trouble with saving. -/
theorem saveFault_kind (target : Disk.Target) (f : Disk.Fault) :
    (saveFault target f).trouble.kind = if f.isSystem then .save else .other f.name := by
  unfold saveFault
  split <;> rfl

theorem write_run (path : Text) (agents : List Agent) (s : Situation) :
    write path agents s = match s.disk.replace (s.disk.target path) (agentLines agents) with
      | (.ok (), disk) => .ok () { s with disk }
      | (.error f, disk) => .error (saveFault (s.disk.target path) f) { s with disk } := rfl

theorem write_ok (h : write path agents s = .ok () t) :
    ∃ disk, Stored s.disk disk path agents ∧ t = { s with disk } := by
  rw [write_run] at h
  split at h
  · rename_i disk hr
    cases h
    exact ⟨disk, Disk.Store.replace_ok hr, rfl⟩
  · cases h

theorem write_error (h : write path agents s = .error f t) :
    t = { s with disk := s.disk.pastUpset } := by
  rw [write_run] at h
  split at h
  · cases h
  · rename_i g disk hr
    cases h
    rw [Disk.Store.replace_error hr]

theorem commit_run (agents : List Agent) (s : Situation) :
    commit agents s =
      match s.disk.replace (s.disk.target s.roster.path) (agentLines agents) with
      | (.ok (), disk) => .ok () { s with disk, roster.agents := agents }
      | (.error f, disk) => .error (saveFault (s.disk.target s.roster.path) f) { s with disk } := by
  unfold commit
  rw [get_bind_run]
  cases hr : s.disk.replace (s.disk.target s.roster.path) (agentLines agents) with
  | mk result disk =>
    cases result with
    | ok u =>
      have hw : write s.roster.path agents s = .ok () { s with disk } := by rw [write_run, hr]
      exact bind_run hw
    | error f =>
      have hw : write s.roster.path agents s =
          .error (saveFault (s.disk.target s.roster.path) f) { s with disk } := by
        rw [write_run, hr]
      exact bind_run_error hw

theorem commit_ok (h : commit agents s = .ok () t) :
    ∃ disk, Stored s.disk disk s.roster.path agents ∧
      t = { s with disk, roster.agents := agents } := by
  unfold commit at h
  rw [get_bind_run] at h
  obtain ⟨_, u, hw, h⟩ := bind_eq_ok.mp h
  obtain ⟨disk, hs, rfl⟩ := write_ok hw
  cases h
  exact ⟨disk, hs, rfl⟩

theorem commit_error (h : commit agents s = .error f t) :
    t = { s with disk := s.disk.pastUpset } := by
  unfold commit at h
  rw [get_bind_run] at h
  rcases bind_eq_error.mp h with h | ⟨_, u, _, h⟩
  · exact write_error h
  · cases h

/-- A call that gives something back once the agents are committed. -/
theorem commit_return_ok {b c : β} (h : (do commit agents; return b : Action β) s = .ok c t) :
    c = b ∧ commit agents s = .ok () t := by
  obtain ⟨_, u, hc, hu⟩ := bind_eq_ok.mp h
  cases hu
  exact ⟨rfl, hc⟩

theorem commit_return_error {b : β}
    (h : (do commit agents; return b : Action β) s = .error f t) :
    t = { s with disk := s.disk.pastUpset } := by
  rcases bind_eq_error.mp h with h | ⟨_, u, _, h⟩
  · exact commit_error h
  · cases h

theorem save_ok {path : Option Text} (h : save path s = .ok () t) :
    ∃ disk, Stored s.disk disk ((Cloud.present? path).getD s.roster.path) s.roster.agents ∧
      t = { s with disk } :=
  write_ok h

theorem save_error {path : Option Text} (h : save path s = .error f t) :
    t = { s with disk := s.disk.pastUpset } := by
  unfold save at h
  rw [get_bind_run] at h
  exact write_error h

theorem add_ok {a : Agent} {added : Bool} (h : add a s = .ok added t) :
    (a ∈ s.roster.agents ∧ added = false ∧ t = s) ∨
      (a ∉ s.roster.agents ∧ added = true ∧ commit (s.roster.agents ++ [a]) s = .ok () t) := by
  unfold add at h
  rw [get_bind_run] at h
  split at h
  · rename_i hm
    cases h
    exact .inl ⟨hm, rfl, rfl⟩
  · rename_i hm
    obtain ⟨rfl, hc⟩ := commit_return_ok h
    exact .inr ⟨hm, rfl, hc⟩

theorem add_known {a : Agent} (h : a ∈ s.roster.agents) : add a s = .ok false s := by
  simp [add, h]

theorem add_new {a : Agent} (h : a ∉ s.roster.agents) :
    add a s = (do commit (s.roster.agents ++ [a]); return true : Action Bool) s := by
  simp [add, h]

theorem add_error {a : Agent} (h : add a s = .error f t) :
    t = { s with disk := s.disk.pastUpset } := by
  unfold add at h
  rw [get_bind_run] at h
  split at h
  · cases h
  · exact commit_return_error h

theorem remove_ok {a : Agent} {removed : Bool} (h : remove a s = .ok removed t) :
    (a ∉ s.roster.agents ∧ removed = false ∧ t = s) ∨
      (a ∈ s.roster.agents ∧ removed = true ∧ commit (s.roster.agents.erase a) s = .ok () t) := by
  unfold remove at h
  rw [get_bind_run] at h
  split at h
  · rename_i hm
    cases h
    exact .inl ⟨hm, rfl, rfl⟩
  · rename_i hm
    obtain ⟨rfl, hc⟩ := commit_return_ok h
    exact .inr ⟨Decidable.not_not.mp hm, rfl, hc⟩

theorem remove_error {a : Agent} (h : remove a s = .error f t) :
    t = { s with disk := s.disk.pastUpset } := by
  unfold remove at h
  rw [get_bind_run] at h
  split at h
  · cases h
  · exact commit_return_error h

theorem take_ok {count : Int} {strategy : Strategy} (h : take count strategy s = .ok picked t) :
    0 ≤ count ∧ ((min count.toNat s.roster.agents.length = 0 ∧ picked = [] ∧ t = s) ∨
      (min count.toNat s.roster.agents.length ≠ 0 ∧
        strategy.pick (min count.toNat s.roster.agents.length) s.roster.agents = .ok picked ∧
        commit (s.roster.agents.filter (· ∉ picked)) s = .ok () t)) := by
  unfold take at h
  split at h
  · cases h
  · rename_i hc
    refine ⟨Int.not_lt.mp hc, ?_⟩
    simp only [get_bind_run] at h
    split at h
    · rename_i hz
      cases h
      exact .inl ⟨hz, rfl, rfl⟩
    · rename_i hz
      obtain ⟨l, u, hp, h⟩ := bind_eq_ok.mp h
      obtain ⟨hp, rfl⟩ := ofExcept_eq_ok.mp hp
      obtain ⟨rfl, hw⟩ := commit_return_ok h
      exact .inr ⟨hz, hp, hw⟩

/-- To take some of the agents is to pick them and to let the others stay. -/
theorem take_run {count : Nat} {strategy : Strategy} (h0 : count ≠ 0)
    (hc : count ≤ s.roster.agents.length)
    (hp : strategy.pick count s.roster.agents = .ok picked) :
    take count strategy s = (do
      commit (s.roster.agents.filter (· ∉ picked))
      return picked : Action (List Agent)) s := by
  have hn : min (count : Int).toNat s.roster.agents.length = count := by
    rw [Int.toNat_natCast]
    exact Nat.min_eq_left hc
  unfold take
  rw [if_neg (by omega)]
  simp only [get_bind_run, hn, h0, hp, if_false]
  rfl

theorem take_error {count : Int} {strategy : Strategy} (h : take count strategy s = .error f t) :
    t = s ∨ t = { s with disk := s.disk.pastUpset } := by
  unfold take at h
  split at h
  · cases h
    exact .inl rfl
  · simp only [get_bind_run] at h
    split at h
    · cases h
    · rcases bind_eq_error.mp h with h | ⟨l, u, hp, h⟩
      · exact .inl (ofExcept_eq_error.mp h).2
      · obtain ⟨_, rfl⟩ := ofExcept_eq_ok.mp hp
        exact .inr (commit_return_error h)

end Roster

end AgentFleet
