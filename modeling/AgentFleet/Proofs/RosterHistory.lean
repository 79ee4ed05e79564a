import AgentFleet.Proofs.RosterCalls

namespace AgentFleet.Roster
open AgentFleet.Action

inductive Call
  | add (a : Agent)
  | remove (a : Agent)
  | take (count : Int) (strategy : Strategy)
  | removeOldest (count : Int)
  | save (path : Option Text)

/-- What a call gives back. -/
inductive Reply
  | told (changed : Bool)
  | gave (agents : List Agent)
  | done

namespace Call

def run : Call → Action Reply
  | add a => return .told (← Roster.add a)
  | remove a => return .told (← Roster.remove a)
  | take count strategy => return .gave (← Roster.take count strategy)
  | removeOldest count => return .gave (← Roster.removeOldest count)
  | save path => do
    Roster.save path
    return .done

/-- Whether a call that gave this has written the file of the roster. Another path may name that
file, too. -/
def wrote (s : Situation) : Call → Reply → Bool
  | save path, _ =>
    s.disk.target ((Cloud.present? path).getD s.roster.path) = s.disk.target s.roster.path
  | _, .told changed => changed
  | _, .gave agents => agents ≠ []
  | _, .done => false

/-- A call that returns, as an operation on the list. -/
def Meets (before : List Agent) : Call → Reply → List Agent → Prop
  | add a, reply, after =>
    reply = .told (a ∉ before) ∧ after = if a ∈ before then before else before ++ [a]
  | remove a, reply, after =>
    reply = .told (a ∈ before) ∧ after = before.erase a ∧ a ∉ after
  | take count _, reply, after => ∃ taken, reply = .gave taken ∧
    taken.length = min count.toNat before.length ∧ after = before.filter (· ∉ taken) ∧
    (taken ++ after).Perm before
  | removeOldest count, reply, after =>
    reply = .gave (before.take count.toNat) ∧ after = before.drop count.toNat
  | save _, reply, after => reply = .done ∧ after = before

end Call

/-- Who stays when the first ones leave are the others. -/
theorem filter_not_mem_take {l : List Agent} (hn : l.Nodup) (n : Nat) :
    l.filter (· ∉ l.take n) = l.drop n := by
  have hd := (List.nodup_append.mp (List.take_append_drop n l ▸ hn)).2.2
  have hfirst : (l.take n).filter (· ∉ l.take n) = [] := by
    simp [List.filter_eq_nil_iff]
  have hrest : (l.drop n).filter (· ∉ l.take n) = l.drop n := by
    refine List.filter_eq_self.mpr fun a ha => ?_
    have : a ∉ l.take n := fun hm => hd a hm a ha rfl
    simpa using this
  calc l.filter (· ∉ l.take n)
      = (l.take n ++ l.drop n).filter (· ∉ l.take n) := by rw [List.take_append_drop]
    _ = l.drop n := by rw [List.filter_append, hfirst, hrest, List.nil_append]

theorem take_meets {s t : Situation} {count : Int} {strategy : Strategy} {taken : List Agent}
    (hn : s.roster.agents.Nodup) (h : take count strategy s = .ok taken t) :
    (Call.take count strategy).Meets s.roster.agents (.gave taken) t.roster.agents := by
  obtain ⟨_, ⟨hz, rfl, rfl⟩ | ⟨_, hp, hc⟩⟩ := take_ok h
  · exact ⟨[], rfl, hz.symm, by simp, by simp⟩
  · obtain ⟨disk, _, rfl⟩ := commit_ok hc
    have hk := Strategy.pick_spec hn (Nat.min_le_right ..) hp
    exact ⟨taken, rfl, hk.length_eq, rfl, hk.perm hn⟩

theorem removeOldest_meets {s t : Situation} {count : Int} {taken : List Agent}
    (hn : s.roster.agents.Nodup) (h : removeOldest count s = .ok taken t) :
    (Call.removeOldest count).Meets s.roster.agents (.gave taken) t.roster.agents := by
  obtain ⟨_, ⟨hz, rfl, rfl⟩ | ⟨_, hp, hc⟩⟩ := take_ok h
  · rcases Nat.min_eq_zero_iff.mp hz with h0 | h0
    · exact ⟨by simp [h0], by simp [h0]⟩
    · have := List.eq_nil_of_length_eq_zero h0
      exact ⟨by simp [this], by simp [this]⟩
  · obtain ⟨disk, _, rfl⟩ := commit_ok hc
    cases hp
    rw [← List.take_eq_take_min]
    exact ⟨rfl, filter_not_mem_take hn _⟩

/-- A call that returns is an operation on the list. -/
theorem Call.meets {s t : Situation} {call : Call} {reply : Reply} (hn : s.roster.agents.Nodup)
    (h : call.run s = .ok reply t) : call.Meets s.roster.agents reply t.roster.agents := by
  cases call with
  | add a =>
    obtain ⟨added, u, ha, hu⟩ := bind_eq_ok.mp h
    cases hu
    rcases add_ok ha with ⟨hm, rfl, rfl⟩ | ⟨hm, rfl, hc⟩
    · simp [Meets, hm]
    · obtain ⟨disk, _, rfl⟩ := commit_ok hc
      simp [Meets, hm]
  | remove a =>
    obtain ⟨removed, u, ha, hu⟩ := bind_eq_ok.mp h
    cases hu
    rcases remove_ok ha with ⟨hm, rfl, rfl⟩ | ⟨hm, rfl, hc⟩
    · exact ⟨by simp [hm], (List.erase_of_not_mem hm).symm, hm⟩
    · obtain ⟨disk, _, rfl⟩ := commit_ok hc
      exact ⟨by simp [hm], rfl, hn.not_mem_erase⟩
  | take count strategy =>
    obtain ⟨taken, u, ht, hu⟩ := bind_eq_ok.mp h
    cases hu
    exact take_meets hn ht
  | removeOldest count =>
    obtain ⟨taken, u, ht, hu⟩ := bind_eq_ok.mp h
    cases hu
    exact removeOldest_meets hn ht
  | save other =>
    obtain ⟨_, u, hs, hu⟩ := bind_eq_ok.mp h
    cases hu
    obtain ⟨disk, _, rfl⟩ := save_ok hs
    exact ⟨rfl, rfl⟩

/-- A call that fails may have used up an upset of the disk, and no more. -/
theorem Call.run_error {s t : Situation} {f : Fault} (call : Call) (h : call.run s = .error f t) :
    t = s ∨ t = { s with disk := s.disk.pastUpset } := by
  have of_bind : ∀ {α} {act : Action α} {g : α → Reply},
      (∀ {f u}, act s = .error f u → u = s ∨ u = { s with disk := s.disk.pastUpset }) →
      (act >>= fun a => pure (g a)) s = .error f t →
      t = s ∨ t = { s with disk := s.disk.pastUpset } := by
    intro α act g ha hb
    rcases bind_eq_error.mp hb with hb | ⟨_, _, _, hp⟩
    · exact ha hb
    · cases hp
  cases call with
  | add a => exact of_bind (fun e => .inr (add_error e)) h
  | remove a => exact of_bind (fun e => .inr (remove_error e)) h
  | take count strategy => exact of_bind take_error h
  | removeOldest count => exact of_bind take_error h
  | save other => exact of_bind (fun e => .inr (save_error e)) h

/-- Situations that follow a first one, and whether the agents file was written since. -/
inductive History (first : Situation) : Bool → Situation → Prop
  | first : History first false first
  | returned (call : Call) : History first written s → call.run s = .ok reply t →
      History first (written || call.wrote s reply) t
  | failed (call : Call) : History first written s → call.run s = .error f t →
      History first written t
  | elsewhere (disk : Disk.Store) : History first written s →
      disk.read (disk.target s.roster.path).text = s.disk.read (s.disk.target s.roster.path).text →
      History first written { s with disk }

section Stored

variable {before after : Disk.Store} {path other : Text} {agents : List Agent}

theorem Stored.base (h : Stored before after path agents) : after.base = before.base := by
  obtain ⟨_, _, w⟩ := h
  exact w.base

theorem target_congr {d e : Disk.Store} (h : d.base = e.base) (path : Text) :
    d.target path = e.target path := by
  simp only [Disk.Store.target, Disk.Store.expand, h]

theorem Stored.read (h : Stored before after path agents) :
    after.read (after.target path).text = .ok (.text (agentLines agents)) := by
  rw [target_congr h.base]
  obtain ⟨p, hl, w⟩ := h
  exact w.read_same hl

/-- A file that held the agents holds them still when they are written anywhere. -/
theorem Stored.read_keep (h : Stored before after other agents)
    (hr : before.read (before.target path).text = .ok (.text (agentLines agents))) :
    after.read (after.target path).text = .ok (.text (agentLines agents)) := by
  rw [target_congr h.base]
  obtain ⟨p, _, w⟩ := h
  by_cases hl : before.Leads (before.target path).text p
  · exact w.read_same hl
  · exact (w.read_other hl _).mpr hr

end Stored

/-- What all situations of a history have in common. -/
structure Sound (path : Text) (written : Bool) (s : Situation) : Prop where
  path_eq : s.roster.path = path
  nodup : s.roster.agents.Nodup
  file : written = true →
    s.disk.read (s.disk.target path).text = .ok (.text (agentLines s.roster.agents))

namespace Sound

variable {path : Text} {written : Bool} {s t : Situation} {agents : List Agent}

theorem of_written (h : Sound path true s) : Sound path written s :=
  ⟨h.path_eq, h.nodup, fun _ => h.file rfl⟩

theorem refused (h : Sound path written s) :
    Sound path written { s with disk := s.disk.pastUpset } :=
  ⟨h.path_eq, h.nodup, fun hw => (s.disk.pastUpset_read _).trans (h.file hw)⟩

theorem commit (h : Sound path written s) (hn : agents.Nodup)
    (hc : commit agents s = .ok () t) : Sound path true t := by
  obtain ⟨disk, hs, rfl⟩ := commit_ok hc
  refine ⟨h.path_eq, hn, fun _ => ?_⟩
  rw [h.path_eq] at hs
  exact hs.read

theorem save (h : Sound path written s) {other : Option Text}
    (hs : Roster.save other s = .ok () t) :
    Sound path (written || (Call.save other).wrote s .done) t := by
  obtain ⟨disk, hst, rfl⟩ := save_ok hs
  refine ⟨h.path_eq, h.nodup, fun hw => ?_⟩
  rcases Bool.or_eq_true_iff.mp hw with hw | hw
  · exact hst.read_keep (h.file hw)
  · have he : s.disk.target ((Cloud.present? other).getD s.roster.path) =
        s.disk.target s.roster.path := by simpa [Call.wrote] using hw
    have hr := hst.read
    rw [target_congr hst.base, he, h.path_eq, ← target_congr hst.base] at hr
    exact hr

theorem take (h : Sound path written s) {count : Int} {strategy : Strategy}
    (ht : Roster.take count strategy s = .ok agents t) :
    Sound path (written || decide (agents ≠ [])) t := by
  obtain ⟨_, ⟨_, rfl, rfl⟩ | ⟨_, _, hc⟩⟩ := take_ok ht
  · simpa using h
  · exact (h.commit (h.nodup.filter _) hc).of_written

theorem returned (h : Sound path written s) {call : Call} {reply : Reply}
    (hr : call.run s = .ok reply t) : Sound path (written || call.wrote s reply) t := by
  cases call with
  | add a =>
    obtain ⟨added, u, ha, hu⟩ := bind_eq_ok.mp hr
    cases hu
    rcases add_ok ha with ⟨_, rfl, rfl⟩ | ⟨hm, rfl, hc⟩
    · simpa [Call.wrote] using h
    · have hn : (s.roster.agents ++ [a]).Nodup := by
        simpa using h.nodup.concat hm
      exact (h.commit hn hc).of_written
  | remove a =>
    obtain ⟨removed, u, ha, hu⟩ := bind_eq_ok.mp hr
    cases hu
    rcases remove_ok ha with ⟨_, rfl, rfl⟩ | ⟨_, rfl, hc⟩
    · simpa [Call.wrote] using h
    · exact (h.commit (h.nodup.erase a) hc).of_written
  | take count strategy =>
    obtain ⟨taken, u, ht, hu⟩ := bind_eq_ok.mp hr
    cases hu
    exact h.take ht
  | removeOldest count =>
    obtain ⟨taken, u, ht, hu⟩ := bind_eq_ok.mp hr
    cases hu
    exact h.take ht
  | save other =>
    obtain ⟨_, u, hs, hu⟩ := bind_eq_ok.mp hr
    cases hu
    exact h.save hs

theorem failed (h : Sound path written s) {call : Call} {f : Fault}
    (hr : call.run s = .error f t) : Sound path written t := by
  rcases call.run_error hr with rfl | rfl
  · exact h
  · exact h.refused

theorem elsewhere (h : Sound path written s) {disk : Disk.Store}
    (hr : disk.read (disk.target s.roster.path).text =
      s.disk.read (s.disk.target s.roster.path).text) :
    Sound path written { s with disk } := by
  refine ⟨h.path_eq, h.nodup, fun hw => ?_⟩
  rw [h.path_eq] at hr
  exact hr.trans (h.file hw)

end Sound

/-- Carry out calls one after another, whether they fail or not. -/
def follow (written : Bool) (s : Situation) : List Call → Bool × Situation
  | [] => (written, s)
  | call :: rest =>
    match call.run s with
    | .ok reply t => follow (written || call.wrote s reply) t rest
    | .error _ t => follow written t rest

/-- Every sequence of calls makes a history. -/
theorem History.follow {first s : Situation} {written : Bool} (h : History first written s)
    (calls : List Call) :
    History first (Roster.follow written s calls).1 (Roster.follow written s calls).2 := by
  induction calls generalizing written s with
  | nil => exact h
  | cons call rest ih =>
    rw [Roster.follow]
    split
    · rename_i reply t hr
      exact ih (h.returned call hr)
    · rename_i f t hr
      exact ih (h.failed call hr)

theorem History.sound {first s : Situation} {path : Text} {agents : List Agent} {written : Bool}
    (h₀ : first.roster = ofList path agents) (h : History first written s) :
    Sound path written s := by
  induction h with
  | first =>
    refine ⟨by rw [h₀]; rfl, ?_, fun hw => by cases hw⟩
    rw [h₀]
    exact nodup_distinct agents
  | returned call _ hr ih => exact ih.returned hr
  | failed call _ hr ih => exact ih.failed hr
  | elsewhere disk _ hr ih => exact ih.elsewhere hr

/-- In every situation of a history the list holds no agent twice, every call that returns is an
operation on the list, and the agents file, once it was written, holds the list line by line. -/
theorem History.list_on_file {first s : Situation} {path : Text} {agents : List Agent}
    {written : Bool} (h₀ : first.roster = ofList path agents) (h : History first written s) :
    s.roster.agents.Nodup ∧
    (written = true → s.disk.read (s.disk.target path).text = .ok (.text
      (s.roster.agents.flatMap fun a => a.publicAddress ++ "," ++ a.privateAddress ++ "\n"))) ∧
    ∀ (call : Call) (reply : Reply) (t : Situation), call.run s = .ok reply t →
      call.Meets s.roster.agents reply t.roster.agents := by
  have hs := h.sound h₀
  exact ⟨hs.nodup, hs.file, fun call reply t hr => call.meets hs.nodup hr⟩

/-- A roster on a disk with room for one more write. -/
def onLastWrite : Situation :=
  .bare ⟨.root, [], [.none, ⟨none, none, some (.other 28 "No space left on device")⟩]⟩
    (ofList "f" [⟨"a", "x"⟩, ⟨"b", "y"⟩, ⟨"a", "x"⟩])

/-- The list is saved, an agent cannot be added for want of space, and the newest one leaves. -/
theorem History.list_on_file_onLastWrite :
    (Roster.follow false onLastWrite
      [.save none, .add ⟨"c", "z"⟩, .take 1 .newestFirst]).2.disk.read "/f" =
        .ok (.text "a,x\n") := by
  have h := (@History.first onLastWrite).follow [.save none, .add ⟨"c", "z"⟩, .take 1 .newestFirst]
  have hf := (h.list_on_file rfl).2.1 (by decide)
  exact hf.trans (by decide)

end AgentFleet.Roster
