import AgentFleet.Proofs.Keeping
import AgentFleet.Proofs.RosterHistory

namespace AgentFleet
open AgentFleet.Action

namespace Roster

/-- The path of the file that a call writes, if it writes one. -/
def Call.file (s : Situation) : Call → Text
  | save path => (Cloud.present? path).getD s.roster.path
  | _ => s.roster.path

/-- A call is going to write this list. To remove the oldest agents is to take them. -/
inductive Call.Writes (s : Situation) : Call → List Agent → Prop
  | add (h : a ∉ s.roster.agents) : Writes s (.add a) (s.roster.agents ++ [a])
  | remove (h : a ∈ s.roster.agents) : Writes s (.remove a) (s.roster.agents.erase a)
  | take (hc : 0 ≤ count) (hn : min count.toNat s.roster.agents.length ≠ 0)
      (hp : strategy.pick (min count.toNat s.roster.agents.length) s.roster.agents = .ok picked) :
      Writes s (.take count strategy) (s.roster.agents.filter (· ∉ picked))
  | save (path : Option Text) : Writes s (.save path) s.roster.agents

/-- Why a call fails, and what it reports. What the system refuses is trouble with saving; a list or
a path without an encoding never comes before the system. -/
inductive Call.Fails (s : Situation) : Call → Fault → Prop
  | negative (h : count < 0) :
      Fails s (.take count strategy) (.of (.misuse (.negativeCount count)))
  | unknown (hc : 0 ≤ count) (hn : min count.toNat s.roster.agents.length ≠ 0) :
      Fails s (.take count (.unknown name)) (.of (.misuse (.unknownStrategy name)))
  | refused (hw : call.Writes s list)
      (hr : s.disk.replace (s.disk.target (call.file s)) (agentLines list) = (.error why, disk))
      (hs : why.isSystem = true) :
      Fails s call ⟨.notSaved (s.disk.target (call.file s)).text why.message, [.disk why]⟩
  | notAsked (hw : call.Writes s list)
      (hr : s.disk.replace (s.disk.target (call.file s)) (agentLines list) = (.error why, disk))
      (hs : why.isSystem = false) : Fails s call (.of (.disk why))
  | oldest (h : Fails s (.take count .oldestFirst) f) : Fails s (.removeOldest count) f

variable {s t : Situation} {call : Call} {list : List Agent} {f : Fault}

theorem Call.Fails.unwritten {why : Disk.Fault} {disk : Disk.Store} (hw : call.Writes s list)
    (hr : s.disk.replace (s.disk.target (call.file s)) (agentLines list) = (.error why, disk)) :
    call.Fails s (saveFault (s.disk.target (call.file s)) why) := by
  cases hs : why.isSystem with
  | true =>
    rw [saveFault, if_pos hs]
    exact .refused hw hr hs
  | false =>
    rw [saveFault, if_neg (by simp [hs])]
    exact .notAsked hw hr hs

theorem write_outcome_error {path : Text} :
    (write path list).outcome s = .error f ↔
      ∃ why disk, s.disk.replace (s.disk.target path) (agentLines list) = (.error why, disk) ∧
        saveFault (s.disk.target path) why = f := by
  rw [outcome, write_run]
  rcases s.disk.replace (s.disk.target path) (agentLines list) with ⟨_ | why, disk⟩ <;> simp

theorem commit_outcome_error {b : β} :
    (do commit list; return b : Action β).outcome s = .error f ↔
      ∃ why disk, s.disk.replace (s.disk.target s.roster.path) (agentLines list) =
          (.error why, disk) ∧ saveFault (s.disk.target s.roster.path) why = f := by
  have hc := commit_run list s
  rcases hr : s.disk.replace (s.disk.target s.roster.path) (agentLines list) with ⟨_ | why, disk⟩
  · rw [hr] at hc
    rw [outcome, bind_run_error hc]
    simp
  · rw [hr] at hc
    rw [outcome, bind_run hc]
    simp

theorem Call.Writes.unique {list' : List Agent} (h : call.Writes s list)
    (h' : call.Writes s list') : list = list' := by
  cases h with
  | add _ => cases h'; rfl
  | remove _ => cases h'; rfl
  | take _ _ hp =>
    cases h' with
    | take _ _ hp' =>
      rw [hp] at hp'
      cases hp'
      rfl
  | save _ => cases h'; rfl

/-- A call that is going to write fails exactly if what it writes cannot replace the file. -/
theorem Call.Writes.fails_iff (hw : call.Writes s list) : call.Fails s f ↔
    ∃ why disk, s.disk.replace (s.disk.target (call.file s)) (agentLines list) =
      (.error why, disk) ∧ saveFault (s.disk.target (call.file s)) why = f := by
  constructor
  · intro h
    cases h with
    | negative h =>
      cases hw with
      | take hc _ _ => exact absurd hc (Int.not_le.mpr h)
    | unknown _ _ =>
      cases hw with
      | take _ _ hp => cases hp
    | refused hw' hr hs =>
      cases hw.unique hw'
      exact ⟨_, _, hr, by rw [saveFault, if_pos hs]; rfl⟩
    | notAsked hw' hr hs =>
      cases hw.unique hw'
      exact ⟨_, _, hr, by rw [saveFault, if_neg (by simp [hs])]⟩
    | oldest _ => cases hw
  · rintro ⟨why, disk, hr, rfl⟩
    exact .unwritten hw hr

theorem add_outcome_error {a : Agent} : (add a).outcome s = .error f ↔ (Call.add a).Fails s f := by
  by_cases hm : a ∈ s.roster.agents
  · refine iff_of_false (by simp [outcome, add_known hm]) fun h => ?_
    cases h with
    | refused hw _ _ => cases hw with | add h => exact h hm
    | notAsked hw _ _ => cases hw with | add h => exact h hm
  · rw [outcome_congr (add_new hm), commit_outcome_error, (Call.Writes.add hm).fails_iff]
    rfl

theorem remove_outcome_error {a : Agent} :
    (remove a).outcome s = .error f ↔ (Call.remove a).Fails s f := by
  by_cases hm : a ∈ s.roster.agents
  · have hrun : remove a s =
        (do commit (s.roster.agents.erase a); return true : Action Bool) s := by simp [remove, hm]
    rw [outcome_congr hrun, commit_outcome_error, (Call.Writes.remove hm).fails_iff]
    rfl
  · have hrun : remove a s = .ok false s := by simp [remove, hm]
    refine iff_of_false (by simp [outcome, hrun]) fun h => ?_
    cases h with
    | refused hw _ _ => cases hw with | remove h => exact hm h
    | notAsked hw _ _ => cases hw with | remove h => exact hm h

theorem save_outcome_error {path : Option Text} :
    (save path).outcome s = .error f ↔ (Call.save path).Fails s f := by
  have hrun : save path s =
      write ((Cloud.present? path).getD s.roster.path) s.roster.agents s := rfl
  rw [outcome_congr hrun, write_outcome_error, (Call.Writes.save path).fails_iff]
  rfl

theorem take_outcome (count : Int) (strategy : Strategy) (s : Situation) :
    (take count strategy).outcome s =
      if count < 0 then .error (.of (.misuse (.negativeCount count)))
      else if min count.toNat s.roster.agents.length = 0 then .ok []
      else match strategy.pick (min count.toNat s.roster.agents.length) s.roster.agents with
        | .error f => .error f
        | .ok picked => (do
            commit (s.roster.agents.filter (· ∉ picked))
            return picked : Action (List Agent)).outcome s := by
  unfold take
  by_cases hc : count < 0
  · rw [if_pos hc, if_pos hc]
    rfl
  · rw [if_neg hc, if_neg hc]
    by_cases hn : min count.toNat s.roster.agents.length = 0
    · simp only [outcome, get_bind_run, hn, if_true]
      rfl
    · simp only [outcome, get_bind_run, hn, if_false]
      cases strategy.pick (min count.toNat s.roster.agents.length) s.roster.agents <;> rfl

theorem pick_eq_error {strategy : Strategy} {n : Nat} {agents : List Agent} :
    strategy.pick n agents = .error f ↔
      ∃ name, strategy = .unknown name ∧ f = .of (.misuse (.unknownStrategy name)) := by
  cases strategy <;> simp [Strategy.pick, eq_comm]

/-- To take agents fails for its arguments, or as writing does. -/
theorem take_outcome_error {count : Int} {strategy : Strategy} :
    (take count strategy).outcome s = .error f ↔ (Call.take count strategy).Fails s f := by
  rw [take_outcome]
  split
  · rename_i hc
    constructor
    · intro h
      cases h
      exact .negative hc
    · intro h
      cases h with
      | negative _ => rfl
      | unknown h _ => omega
      | refused hw _ _ => cases hw with | take h _ _ => omega
      | notAsked hw _ _ => cases hw with | take h _ _ => omega
  · rename_i hc
    split
    · rename_i hn
      refine iff_of_false nofun fun h => ?_
      cases h with
      | negative h => exact hc h
      | unknown _ h => exact h hn
      | refused hw _ _ => cases hw with | take _ h _ => exact h hn
      | notAsked hw _ _ => cases hw with | take _ h _ => exact h hn
    · rename_i hn
      split
      · rename_i g hp
        obtain ⟨name, rfl, rfl⟩ := pick_eq_error.mp hp
        constructor
        · intro h
          cases h
          exact .unknown (Int.not_lt.mp hc) hn
        · intro h
          cases h with
          | negative h => exact absurd h hc
          | unknown _ _ => rfl
          | refused hw _ _ => cases hw with | take _ _ h => cases h
          | notAsked hw _ _ => cases hw with | take _ _ h => cases h
      · rename_i picked hp
        have hw := Call.Writes.take (Int.not_lt.mp hc) hn hp
        exact commit_outcome_error.trans hw.fails_iff.symm

/-- What a call reports when it fails, and that it fails. -/
theorem Call.fails_iff (call : Call) (s : Situation) :
    call.run.outcome s = .error f ↔ call.Fails s f := by
  have hlast : ∀ {α} (act : Action α) (g : α → Reply),
      (do return g (← act) : Action Reply).outcome s = .error f ↔ act.outcome s = .error f := by
    intro α act g
    rw [outcome_bind]
    cases act.outcome s with
    | ok a => exact iff_of_false nofun nofun
    | error e =>
      constructor
      · rintro ⟨⟩
        rfl
      · rintro ⟨⟩
        rfl
  cases call with
  | add a => exact (hlast _ _).trans add_outcome_error
  | remove a => exact (hlast _ _).trans remove_outcome_error
  | take count strategy => exact (hlast _ _).trans take_outcome_error
  | removeOldest count =>
    refine (hlast _ _).trans (take_outcome_error.trans ⟨.oldest, fun h => ?_⟩)
    cases h with
    | oldest h => exact h
    | refused hw _ _ => cases hw
    | notAsked hw _ _ => cases hw
  | save path => exact (hlast _ fun _ => .done).trans save_outcome_error

theorem commit_stored (h : commit list s = .ok () t) :
    Stored s.disk t.disk s.roster.path list := by
  obtain ⟨disk, hs, rfl⟩ := commit_ok h
  exact hs

theorem take_stored {count : Int} {strategy : Strategy} {taken : List Agent}
    (h : take count strategy s = .ok taken t) :
    t.disk = s.disk ∨ ∃ list, Stored s.disk t.disk s.roster.path list := by
  obtain ⟨_, ⟨_, _, rfl⟩ | ⟨_, _, hc⟩⟩ := take_ok h
  · exact .inl rfl
  · exact .inr ⟨_, commit_stored hc⟩

/-- A call that returns has written its file, or nothing. -/
theorem Call.stored {reply : Reply} (h : call.run s = .ok reply t) :
    t.disk = s.disk ∨ ∃ list, Stored s.disk t.disk (call.file s) list := by
  cases call with
  | add a =>
    obtain ⟨_, u, ha, hu⟩ := bind_eq_ok.mp h
    cases hu
    rcases add_ok ha with ⟨_, _, rfl⟩ | ⟨_, _, hc⟩
    · exact .inl rfl
    · exact .inr ⟨_, commit_stored hc⟩
  | remove a =>
    obtain ⟨_, u, ha, hu⟩ := bind_eq_ok.mp h
    cases hu
    rcases remove_ok ha with ⟨_, _, rfl⟩ | ⟨_, _, hc⟩
    · exact .inl rfl
    · exact .inr ⟨_, commit_stored hc⟩
  | take count strategy =>
    obtain ⟨_, u, ht, hu⟩ := bind_eq_ok.mp h
    cases hu
    exact take_stored ht
  | removeOldest count =>
    obtain ⟨_, u, ht, hu⟩ := bind_eq_ok.mp h
    cases hu
    exact take_stored ht
  | save path =>
    obtain ⟨_, u, hs, hu⟩ := bind_eq_ok.mp h
    cases hu
    obtain ⟨disk, hst, rfl⟩ := save_ok hs
    exact .inr ⟨_, hst⟩

/-- A call that fails leaves the list, the files and the directories as they were, and fails for one
of the reasons there are. A call that returns leaves every place as it was but for that of its
file. -/
theorem Call.atomic (call : Call) (s : Situation) :
    (∀ f, call.run.outcome s = .error f ↔ call.Fails s f) ∧
    (∀ f t, call.run s = .error f t → t.roster = s.roster ∧ t.disk.nodes = s.disk.nodes ∧
      ∀ path, t.disk.read path = s.disk.read path ∧ t.disk.list path = s.disk.list path) ∧
    ∀ reply t, call.run s = .ok reply t → ∀ p,
      ¬ s.disk.Leads (s.disk.target (call.file s)).text p → t.disk.node? p = s.disk.node? p := by
  refine ⟨fun f => call.fails_iff s, fun f t h => ?_, fun reply t h p hp => ?_⟩
  · rcases call.run_error h with rfl | rfl
    · exact ⟨rfl, rfl, fun path => ⟨rfl, rfl⟩⟩
    · exact ⟨rfl, rfl, fun path => ⟨s.disk.pastUpset_read path, s.disk.pastUpset_list path⟩⟩
  · rcases Call.stored h with hd | ⟨list, q, hq, w⟩
    · rw [hd]
    · have hne : p ≠ q := fun e => hp (e ▸ hq)
      rw [w.node? p, if_neg hne]

/-- A roster whose path is empty, so that its file would be the working directory. -/
def pathless : Situation :=
  .bare ⟨⟨[], [[104]]⟩, [([[104]], .directory)], []⟩ ⟨"", [⟨"a", "x"⟩]⟩

/-- No file takes the place of a directory. The temporary file beside it is gone, and the agent
stays. -/
theorem Call.atomic_pathless : ∃ f t, (Call.remove ⟨"a", "x"⟩).run pathless = .error f t ∧
    f.trouble.kind = .save ∧ t.roster.agents = [⟨"a", "x"⟩] ∧ t.disk.list "/" = .ok ["h"] := by
  obtain ⟨hf, hsame, _⟩ := (Call.remove ⟨"a", "x"⟩).atomic pathless
  have hr : pathless.disk.replace (pathless.disk.target "") (agentLines []) =
      (.error (.notMoved .isDirectory "/.agents.00000000" "/h"), pathless.disk) := by
    decide +kernel
  have hw := Call.Writes.remove (s := pathless) (a := ⟨"a", "x"⟩) (by decide)
  have h := Action.run_error ((hf _).mpr (.refused hw hr rfl))
  obtain ⟨hroster, _, hread⟩ := hsame _ _ h
  refine ⟨_, _, h, rfl, by rw [hroster]; rfl, ?_⟩
  rw [(hread "/").2]
  decide +kernel

end Roster

end AgentFleet
