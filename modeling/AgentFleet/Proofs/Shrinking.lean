import AgentFleet.Scaling
import AgentFleet.Proofs.CloudCalls
import AgentFleet.Proofs.RosterHistory

namespace AgentFleet
open AgentFleet.Action Cloud

/-- Of several live instances at an address the last one counts. -/
def lastAt (response : List Instance) (address : Text) : Option Instance :=
  (response.filter (·.liveAddress? = some address)).getLast?

theorem of_lastAt {response : List Instance} {address : Text} {i : Instance}
    (h : lastAt response address = some i) : i ∈ response ∧ i.liveAddress? = some address := by
  obtain ⟨hi, ha⟩ := List.mem_filter.mp (List.mem_of_getLast? h)
  exact ⟨hi, by simpa using ha⟩

theorem lookup_ofList (response : List Instance) (address : Text) :
    (Found.ofList response).lookup address = lastAt response address := by
  have hfold : ∀ found : Found, (response.foldl .add found).lookup address =
      (lastAt response address).or (found.lookup address) := by
    unfold lastAt
    induction response with
    | nil => simp
    | cons i rest ih =>
      intro found
      rw [List.foldl_cons, ih]
      unfold Found.add
      cases hi : i.liveAddress? with
      | none => simp [hi]
      | some other =>
        dsimp only
        rw [lookup_setEntry]
        by_cases ho : other = address
        · subst ho
          rw [List.filter_cons_of_pos (by simp [hi]), List.getLast?_cons]
          cases (rest.filter (·.liveAddress? = some other)).getLast? <;> simp
        · have hne : (address == other) = false := by simpa using Ne.symm ho
          simp [hi, ho, hne]
  exact (hfold []).trans (by simp)

/-- The ids of the instances that agents are found at. -/
def idsAt (response : List Instance) (agents : List Agent) : List Text :=
  agents.filterMap fun a => (lastAt response a.publicAddress).map (·.id)

theorem mem_idsAt {response : List Instance} {agents : List Agent} {id : Text} :
    id ∈ idsAt response agents ↔
      ∃ a ∈ agents, ∃ i, lastAt response a.publicAddress = some i ∧ i.id = id := by
  simp [idsAt]

/-- The agents at whose addresses there is no live instance. -/
def unresolvedAt (response : List Instance) (agents : List Agent) : List Agent :=
  agents.filter fun a => ∀ i ∈ response, i.liveAddress? ≠ some a.publicAddress

theorem lastAt_isNone {response : List Instance} {address : Text} :
    (lastAt response address).isNone ↔ ∀ i ∈ response, i.liveAddress? ≠ some address := by
  simp [lastAt]

theorem unresolvedAt_eq (response : List Instance) (agents : List Agent) :
    unresolvedAt response agents =
      agents.filter fun a => (lastAt response a.publicAddress).isNone :=
  List.filter_congr fun a _ => by
    rw [Bool.eq_iff_iff, lastAt_isNone, decide_eq_true_iff]

theorem length_idsAt_add (response : List Instance) (agents : List Agent) :
    (idsAt response agents).length + (unresolvedAt response agents).length = agents.length := by
  rw [unresolvedAt_eq]
  induction agents with
  | nil => rfl
  | cons a rest ih =>
    unfold idsAt at ih ⊢
    cases h : lastAt response a.publicAddress with
    | some i =>
      simp [h]
      omega
    | none =>
      simp [h]
      omega

theorem idsOf_told (found : Found) (text : Agent → Text) (agents : List Agent) (s : Situation) :
    ∃ t, idsOf found (fun a => warn (text a)) agents s =
      .ok (agents.filterMap fun a => (found.lookup a.publicAddress).map (·.id)) t ∧ s.Told t := by
  induction agents generalizing s with
  | nil => exact ⟨s, rfl, .refl s⟩
  | cons a rest ih =>
    unfold idsOf
    cases h : found.lookup a.publicAddress with
    | some i =>
      obtain ⟨t, ht, told⟩ := ih s
      refine ⟨t, ?_, told⟩
      simp only [bind_run ht, List.filterMap_cons, h]
      rfl
    | none =>
      obtain ⟨u, hu, told⟩ := warn_told (text a) s
      obtain ⟨t, ht, more⟩ := ih u
      refine ⟨t, ?_, told.trans more⟩
      simp only [bind_run hu, ht, List.filterMap_cons, h]
      rfl

/-- What comes of asking for the instances of agents. -/
def described (p : Provider) (agents : List Agent) (s : Situation) :
    Except Fault (List Instance) :=
  (p.describeInstances none (some (agents.map (·.publicAddress)))).outcome s

/-- The situation after asking for the instances of agents. -/
def afterDescribed (p : Provider) (agents : List Agent) (s : Situation) : Situation :=
  (p.describeInstances none (some (agents.map (·.publicAddress)))).after s

/-- The call that asks for the instances of agents. -/
def describeCall (agents : List Agent) : CloudCall :=
  .describe [] (agents.map (·.publicAddress))

section Described

variable {p : Provider} {agents : List Agent} {s t : Situation}

theorem called_described (p : Provider) (s : Situation) (hne : agents ≠ []) :
    s.Called .describeInstances [describeCall agents] (afterDescribed p agents s) :=
  @Provider.called_describeInstances s p none (some (agents.map Agent.publicAddress))
    (by simpa using hne)

theorem described_congr (h : s.SameAnswers .describeInstances t) :
    described p agents s = described p agents t :=
  (p.alike_describeInstances none (some (agents.map Agent.publicAddress)) s t h).1

theorem findInstances_ok (hne : agents ≠ []) {response : List Instance}
    (h : described p agents s = .ok response) :
    findInstances p agents s = .ok (.ofList response) (afterDescribed p agents s) := by
  unfold findInstances
  rw [if_neg hne]
  exact bind_run (run_ok h)

theorem findInstances_error (hne : agents ≠ []) {f : Fault}
    (h : described p agents s = .error f) :
    findInstances p agents s = .error f (afterDescribed p agents s) := by
  unfold findInstances
  rw [if_neg hne]
  exact bind_run_error (run_error h)

end Described

/-- What may come of removed agents, and the calls it takes: their instances are described once,
those that are found are terminated together if there are any, and trouble with either is passed
on. -/
inductive Dismissal (p : Provider) (target : Int) (removed : List Agent) (s : Situation) :
    Except Fault ScaleResult → List CloudCall → Prop
  | undescribed : described p removed s = .error f →
      Dismissal p target removed s (.error f) [describeCall removed]
  | noneFound : described p removed s = .ok response → idsAt response removed = [] →
      Dismissal p target removed s
        (.ok ⟨target, [], removed, [], unresolvedAt response removed⟩) [describeCall removed]
  | found : described p removed s = .ok response → idsAt response removed ≠ [] →
      Dismissal p target removed s
        (((p.terminateInstances (idsAt response removed)).outcome s).map fun _ =>
          ⟨target, [], removed, [], unresolvedAt response removed⟩)
        [describeCall removed, .terminate (idsAt response removed)]

theorem Dismissal.congr {p : Provider} {target : Int} {removed : List Agent} {s t : Situation}
    {outcome : Except Fault ScaleResult} {made : List CloudCall}
    (d : Dismissal p target removed s outcome made) (h : ∀ o, s.SameAnswers o t) :
    Dismissal p target removed t outcome made := by
  cases d with
  | undescribed hd => exact .undescribed ((described_congr (h _)).symm.trans hd)
  | noneFound hd hids => exact .noneFound ((described_congr (h _)).symm.trans hd) hids
  | found hd hids =>
    rw [(p.alike_terminateInstances _ s t (h _)).1]
    exact .found ((described_congr (h _)).symm.trans hd) hids

namespace Scaler

variable (scaler : Scaler)

/-- Terminate the instances that were found. -/
def finish (target : Int) (removed : List Agent) (response : List Instance) :
    Action ScaleResult := do
  if idsAt response removed = [] then info "No instances to terminate"
  else
    info ("Terminating instance(s) " ++ commaSeparated (idsAt response removed))
    scaler.provider.terminateInstances (idsAt response removed)
  return ⟨target, [], removed, [], unresolvedAt response removed⟩

/-- What is left of a dismissal once the instances are described. -/
theorem dismiss_run {removed : List Agent} (hne : removed ≠ []) (target : Int) (s : Situation) :
    ∃ u, s.Told u ∧
      (∀ f, described scaler.provider removed s = .error f →
        scaler.dismiss target removed s = .error f (afterDescribed scaler.provider removed u)) ∧
      ∀ response, described scaler.provider removed s = .ok response →
        ∃ v, (afterDescribed scaler.provider removed u).Told v ∧
          scaler.dismiss target removed s = scaler.finish target removed response v := by
  unfold dismiss
  rw [get_bind_run]
  obtain ⟨u, hu, told⟩ := info_told ("Removed " ++ counted removed ++ " agent(s) from " ++
    s.roster.path ++ ": " ++ commaSeparated (removed.map (·.line))) s
  refine ⟨u, told, fun f hf => ?_, fun response hr => ?_⟩
  · rw [described_congr (told.sameAnswers _)] at hf
    rw [bind_run hu, bind_run_error (findInstances_error hne hf)]
  · rw [described_congr (told.sameAnswers _)] at hr
    obtain ⟨v, hv, more⟩ := idsOf_told (.ofList response)
      (fun a => "No live instance found for agent " ++ a.line ++ ". Skipping its termination.")
      removed (afterDescribed scaler.provider removed u)
    refine ⟨v, more, ?_⟩
    rw [bind_run hu, bind_run (findInstances_ok hne hr), bind_run hv]
    simp only [lookup_ofList, ← unresolvedAt_eq]
    rfl

theorem finish_none {removed : List Agent} {response : List Instance}
    (h : idsAt response removed = []) (target : Int) (s : Situation) :
    ∃ t, s.Told t ∧ scaler.finish target removed response s =
      .ok ⟨target, [], removed, [], unresolvedAt response removed⟩ t := by
  obtain ⟨t, ht, told⟩ := info_told "No instances to terminate" s
  refine ⟨t, told, ?_⟩
  unfold finish
  rw [if_pos h]
  exact bind_run ht

theorem finish_found {removed : List Agent} {response : List Instance}
    (h : idsAt response removed ≠ []) (target : Int) (s : Situation) :
    ∃ t, s.Told t ∧
      (scaler.finish target removed response).outcome s =
        ((scaler.provider.terminateInstances (idsAt response removed)).outcome t).map
          (fun _ => ⟨target, [], removed, [], unresolvedAt response removed⟩) ∧
      (scaler.finish target removed response).after s =
        (scaler.provider.terminateInstances (idsAt response removed)).after t := by
  obtain ⟨t, ht, told⟩ := info_told
    ("Terminating instance(s) " ++ commaSeparated (idsAt response removed)) s
  have hrun : scaler.finish target removed response s =
      (do
        scaler.provider.terminateInstances (idsAt response removed)
        return ⟨target, [], removed, [], unresolvedAt response removed⟩ : Action _) t := by
    unfold finish
    rw [if_neg h]
    exact bind_run ht
  refine ⟨t, told, ?_, ?_⟩
  · rw [outcome_congr hrun, outcome_bind]
    cases (scaler.provider.terminateInstances (idsAt response removed)).outcome t <;> rfl
  · rw [after_congr hrun, after_bind]
    cases (scaler.provider.terminateInstances (idsAt response removed)).outcome t <;> rfl

/-- Agents that were removed are dismissed, and nothing else is done. -/
theorem dismiss_dismissal {removed : List Agent} (hne : removed ≠ []) (target : Int)
    (s : Situation) :
    ∃ made, Dismissal scaler.provider target removed s
        ((scaler.dismiss target removed).outcome s) made ∧
      ((scaler.dismiss target removed).after s).disk = s.disk ∧
      ((scaler.dismiss target removed).after s).roster = s.roster ∧
      ((scaler.dismiss target removed).after s).calls = s.calls ++ made := by
  obtain ⟨u, told, herror, hok⟩ := scaler.dismiss_run hne target s
  have hcall := (told.called _).trans (called_described scaler.provider u hne)
  -- the cloud is asked where only more was told, so it answers as it would at first
  cases hd : described scaler.provider removed s with
  | error f =>
    rw [outcome, after, herror f hd]
    exact ⟨_, .undescribed hd, hcall.disk, hcall.roster, hcall.calls⟩
  | ok response =>
    obtain ⟨v, more, hrun⟩ := hok response hd
    have hlooked := hcall.trans (more.called _)
    rw [outcome_congr hrun, after_congr hrun]
    by_cases hids : idsAt response removed = []
    · obtain ⟨t, last, hfinish⟩ := scaler.finish_none hids target v
      have hall := hlooked.trans (last.called _)
      rw [outcome, after, hfinish]
      exact ⟨_, .noneFound hd hids, hall.disk, hall.roster, hall.calls⟩
    · obtain ⟨t, last, houtcome, hafter⟩ := scaler.finish_found hids target v
      have hall := hlooked.trans (last.called _)
      have hterm := scaler.provider.called_terminateInstances (s := t) (idsAt response removed)
      have hsame : s.SameAnswers .terminateInstances t := hall.sameAnswers (by decide)
      rw [houtcome, hafter, ← (scaler.provider.alike_terminateInstances _ _ _ hsame).1]
      refine ⟨_, .found hd hids, hterm.disk.trans hall.disk, hterm.roster.trans hall.roster, ?_⟩
      rw [hterm.calls, hall.calls]
      simp

variable {scaler} {s : Situation} {target : Int} {removed : List Agent}

/-- The number of agents that are too many. -/
abbrev surplus (s : Situation) (target : Int) : Nat :=
  s.roster.agents.length - target.toNat

theorem scaleTo_shrink (scaler : Scaler) (h0 : 0 ≤ target) (ht : target < s.roster.agents.length) :
    ∃ u, s.Told u ∧ scaler.scaleTo target s = scaler.shrink target (surplus s target) u := by
  unfold scaleTo
  rw [if_neg (Int.not_lt.mpr h0)]
  simp only [get_bind_run]
  obtain ⟨u, hu, told⟩ := info_told ("Scaling fleet from " ++
    Text.ofNat s.roster.agents.length ++ " to " ++ Text.ofInt target ++ " agents") s
  refine ⟨u, told, ?_⟩
  rw [if_neg (by omega), if_pos ht]
  exact bind_run hu

/-- Who stays. -/
abbrev staying (s : Situation) (removed : List Agent) : List Agent :=
  s.roster.agents.filter (· ∉ removed)

theorem surplus_pos (ht : target < s.roster.agents.length) (h0 : 0 ≤ target) :
    surplus s target ≠ 0 := by
  unfold surplus
  omega

theorem picked_surplus (hn : s.roster.agents.Nodup)
    (hp : scaler.strategy.pick (surplus s target) s.roster.agents = .ok removed) :
    Picked s.roster.agents (surplus s target) removed :=
  Strategy.pick_spec hn (Nat.sub_le ..) hp

theorem length_staying (hn : s.roster.agents.Nodup) (h0 : 0 ≤ target)
    (ht : target < s.roster.agents.length)
    (hp : scaler.strategy.pick (surplus s target) s.roster.agents = .ok removed) :
    (staying s removed).length = target := by
  rw [(picked_surplus hn hp).length_kept hn]
  unfold surplus
  omega

/-- Shrinking is to write who stays and, once that is done, to dismiss who does not. -/
theorem scaleTo_run (h0 : 0 ≤ target) (ht : target < s.roster.agents.length)
    (hp : scaler.strategy.pick (surplus s target) s.roster.agents = .ok removed) :
    ∃ u, s.Told u ∧ scaler.scaleTo target s = (do
      Roster.commit (staying s removed)
      scaler.dismiss target removed : Action ScaleResult) u := by
  obtain ⟨u, told, hrun⟩ := scaler.scaleTo_shrink h0 ht
  refine ⟨u, told, hrun.trans ?_⟩
  obtain ⟨lines, rfl, _⟩ := told
  have htake := Roster.take_run (s := { s with history := lines ++ s.history })
    (surplus_pos ht h0) (Nat.sub_le ..) hp
  refine (bind_run_congr htake).trans ?_
  rw [bind_assoc]
  rfl

theorem removed_ne_nil (hn : s.roster.agents.Nodup) (h0 : 0 ≤ target)
    (ht : target < s.roster.agents.length)
    (hp : scaler.strategy.pick (surplus s target) s.roster.agents = .ok removed) :
    removed ≠ [] := by
  rintro rfl
  exact surplus_pos ht h0 (picked_surplus hn hp).length_eq.symm

/-- When it cannot be written who stays, nothing else is done. -/
theorem scaleTo_refused (h0 : 0 ≤ target) (ht : target < s.roster.agents.length)
    (hp : scaler.strategy.pick (surplus s target) s.roster.agents = .ok removed)
    {f : Disk.Fault} {disk : Disk.Store}
    (hf : s.disk.replace (s.disk.target s.roster.path) (agentLines (staying s removed)) =
      (.error f, disk)) :
    (scaler.scaleTo target).outcome s =
        .error (Roster.saveFault (s.disk.target s.roster.path) f) ∧
      ((scaler.scaleTo target).after s).disk = s.disk.pastUpset ∧
      ((scaler.scaleTo target).after s).roster = s.roster ∧
      ((scaler.scaleTo target).after s).calls = s.calls := by
  obtain ⟨u, told, hrun⟩ := scaleTo_run h0 ht hp
  have hcalls := told.calls
  obtain ⟨lines, rfl, _⟩ := told
  have hcommit := Roster.commit_run (staying s removed) { s with history := lines ++ s.history }
  rw [hf] at hcommit
  rw [outcome, after, hrun, bind_run_error hcommit]
  exact ⟨rfl, Disk.Store.replace_error hf, rfl, hcalls⟩

/-- When it is written who stays, the others are dismissed. -/
theorem scaleTo_written (hn : s.roster.agents.Nodup) (h0 : 0 ≤ target)
    (ht : target < s.roster.agents.length)
    (hp : scaler.strategy.pick (surplus s target) s.roster.agents = .ok removed)
    {disk : Disk.Store}
    (hd : s.disk.replace (s.disk.target s.roster.path) (agentLines (staying s removed)) =
      (.ok (), disk)) :
    ∃ made,
      Dismissal scaler.provider target removed s ((scaler.scaleTo target).outcome s) made ∧
      ((scaler.scaleTo target).after s).disk = disk ∧
      ((scaler.scaleTo target).after s).roster = ⟨s.roster.path, staying s removed⟩ ∧
      ((scaler.scaleTo target).after s).calls = s.calls ++ made := by
  obtain ⟨u, told, hrun⟩ := scaleTo_run h0 ht hp
  have hcalls := told.calls
  obtain ⟨lines, rfl, _⟩ := told
  have hcommit := Roster.commit_run (staying s removed) { s with history := lines ++ s.history }
  rw [hd] at hcommit
  have hdismiss := hrun.trans (bind_run hcommit)
  obtain ⟨made, dismissal, hdisk, hroster, hmade⟩ :=
    scaler.dismiss_dismissal (removed_ne_nil hn h0 ht hp) target
      { s with history := lines ++ s.history, disk, roster.agents := staying s removed }
  rw [← outcome_congr hdismiss] at dismissal
  rw [after_congr hdismiss, ← hcalls]
  exact ⟨made, dismissal.congr fun o => ⟨rfl, rfl⟩, hdisk, hroster, hmade⟩

/-- What a scaling to fewer agents does. Either who stays cannot be written, and nothing is done;
or it is written, and the others are dismissed, whatever comes of that. -/
theorem scaleTo_fewer (hn : s.roster.agents.Nodup) (h0 : 0 ≤ target)
    (ht : target < s.roster.agents.length)
    (hp : scaler.strategy.pick (surplus s target) s.roster.agents = .ok removed) :
    Picked s.roster.agents (surplus s target) removed ∧ (staying s removed).length = target ∧
    (∀ response, (idsAt response removed).length + (unresolvedAt response removed).length =
      removed.length) ∧
    (∀ f disk,
      s.disk.replace (s.disk.target s.roster.path) (agentLines (staying s removed)) =
        (.error f, disk) →
      ∃ g, (scaler.scaleTo target).outcome s = .error g ∧
        g.trouble.kind = (if f.isSystem then .save else .other f.name) ∧
        ((scaler.scaleTo target).after s).disk = s.disk.pastUpset ∧
        ((scaler.scaleTo target).after s).roster = s.roster ∧
        ((scaler.scaleTo target).after s).calls = s.calls) ∧
    ∀ disk,
      s.disk.replace (s.disk.target s.roster.path) (agentLines (staying s removed)) =
        (.ok (), disk) →
      disk.read (disk.target s.roster.path).text =
        .ok (.text (agentLines (staying s removed))) ∧
      ∃ made,
        Dismissal scaler.provider target removed s ((scaler.scaleTo target).outcome s) made ∧
        ((scaler.scaleTo target).after s).disk = disk ∧
        ((scaler.scaleTo target).after s).roster = ⟨s.roster.path, staying s removed⟩ ∧
        ((scaler.scaleTo target).after s).calls = s.calls ++ made := by
  refine ⟨picked_surplus hn hp, length_staying hn h0 ht hp, fun response => length_idsAt_add ..,
    fun f disk hf => ?_, fun disk hd => ⟨?_, scaleTo_written hn h0 ht hp hd⟩⟩
  · obtain ⟨houtcome, hrest⟩ := scaleTo_refused h0 ht hp hf
    exact ⟨_, houtcome, Roster.saveFault_kind .., hrest⟩
  · have hstored : Roster.Stored s.disk disk s.roster.path (staying s removed) :=
      Disk.Store.replace_ok hd
    exact hstored.read

/-- A scaler that takes the oldest agents out. -/
def oldestOut : Scaler :=
  ⟨.service, .blank, ⟨.whole 1, 1⟩, .oldestFirst⟩

/-- Of three agents the first one has an instance, and the second one had one. -/
def threeAgents : Situation :=
  { Situation.bare ⟨.root, [], []⟩ ⟨"f", [⟨"a", "x"⟩, ⟨"b", "y"⟩, ⟨"c", "z"⟩]⟩ with
    service := fun
      | .describeInstances => [.ok [⟨"i-1", some "running", some "a", none⟩,
          ⟨"i-2", some "terminated", some "b", none⟩]]
      | .terminateInstances => [.ok ()]
      | _ => [] }

/-- The agent that stays has half of a pair for an address, which no file holds. -/
def halvedAgent : Situation :=
  .bare ⟨.root, [], []⟩ ⟨"f", [⟨"a", "x"⟩, ⟨[.half 0], "y"⟩]⟩

/-- Two of three agents leave, one of them with its instance. A list that cannot be written need not
be trouble with saving. -/
theorem scaleTo_fewer_threeAgents :
    ((oldestOut.scaleTo 1).after threeAgents).roster.agents = [⟨"c", "z"⟩] ∧
    ((oldestOut.scaleTo 1).after threeAgents).calls =
      [.describe [] ["a", "b"], .terminate ["i-1"]] ∧
    ∃ f, (oldestOut.scaleTo 1).outcome halvedAgent = .error f ∧
      f.trouble.kind = .other "UnicodeEncodeError" := by
  obtain ⟨_, _, _, _, hwritten⟩ := @scaleTo_fewer oldestOut threeAgents 1
    [⟨"a", "x"⟩, ⟨"b", "y"⟩] (by decide) (by decide) (by decide) rfl
  obtain ⟨_, made, dismissal, _, hroster, hcalls⟩ := hwritten _ (Prod.ext rfl rfl)
  obtain ⟨_, _, _, hrefused, _⟩ := @scaleTo_fewer oldestOut halvedAgent 1
    [⟨"a", "x"⟩] (by decide) (by decide) (by decide) rfl
  obtain ⟨f, hf, hkind, _⟩ := hrefused .notEncoded _ (Prod.ext rfl rfl)
  refine ⟨by rw [hroster]; decide, ?_, f, hf, hkind⟩
  rw [hcalls]
  generalize (oldestOut.scaleTo 1).outcome threeAgents = outcome at dismissal
  cases dismissal with
  | undescribed h => cases h
  | noneFound h hids =>
    cases h
    cases hids
  | found h _ =>
    cases h
    rfl

end Scaler

end AgentFleet
