import AgentFleet.Scaling
import AgentFleet.Proofs.Polling
import AgentFleet.Proofs.RosterHistory

namespace AgentFleet
open AgentFleet.Action Cloud

namespace Scaler

/-- The agents that an enrollment adds. -/
def Enrollment.agents : Enrollment → List Agent
  | .added a => [a]
  | _ => []

/-- The ids that an enrollment of this instance finds too late. -/
def Enrollment.late (id : Text) : Enrollment → List Text
  | .timedOut => [id]
  | _ => []

/-- An enrollment adds an agent, knows it or is late. -/
theorem Enrollment.counted_once (e : Enrollment) (id : Text) :
    e.agents.length + [e].count .known + (e.late id).length = 1 := by
  cases e <;> simp [agents, late]

end Scaler

open Scaler

/-- A wait for one instance, where a single wait is limited: what the cloud reported at each look,
and what came of it. -/
structure Wait (p : Poller) (limit : Option Nat) where
  id : Text
  reports : List Report
  result : Except Fault Instance
  watch : p.Watch limit id p.attempts.toNat reports result

namespace Wait

variable {p : Poller} {limit : Option Nat}

/-- The next instance may be waited for. -/
def Over (w : Wait p limit) : Prop :=
  ∀ f, w.result = .error f → f.trouble.isNotReady = true

/-- Every look was made, and none found the instance ready. -/
def UsedUp (w : Wait p limit) : Prop :=
  w.reports.length = p.attempts.toNat ∧ ∀ r ∈ w.reports, Poller.Unready w.id r

/-- What comes of the instance where these agents are known. -/
def enrollment (known : List Agent) (w : Wait p limit) : Enrollment :=
  match w.result with
  | .ok i => if agentOf i ∈ known then .known else .added (agentOf i)
  | .error _ => .timedOut

theorem enrollment_known {w : Wait p limit} {known : List Agent} {i : Instance}
    (h : w.result = .ok i) (hm : agentOf i ∈ known) : w.enrollment known = .known := by
  simp [enrollment, h, hm]

theorem enrollment_new {w : Wait p limit} {known : List Agent} {i : Instance} (h : w.result = .ok i)
    (hm : agentOf i ∉ known) : w.enrollment known = .added (agentOf i) := by
  simp [enrollment, h, hm]

theorem enrollment_late {w : Wait p limit} {known : List Agent} {f : Fault}
    (h : w.result = .error f) : w.enrollment known = .timedOut := by
  simp [enrollment, h]

theorem not_usedUp_of_ready (w : Wait p limit) {i : Instance} (h : w.result = .ok i) :
    ¬ w.UsedUp := by
  intro hu
  have hwatch := w.watch
  rw [h] at hwatch
  obtain ⟨earlier, l, hreports, hl, _⟩ := hwatch.of_ready
  obtain ⟨l', he, hnone⟩ := hu.2 (.ok l) (by simp [hreports])
  cases he
  rw [hl] at hnone
  cases hnone

/-- A wait takes too long when it is used up, or when the cloud itself says so. -/
theorem usedUp_of_late (w : Wait p limit) {f : Fault} (h : w.result = .error f)
    (hf : f.trouble.isNotReady = true) : w.UsedUp ∨ .error f ∈ w.reports := by
  have hwatch := w.watch
  rw [h] at hwatch
  exact hwatch.of_late hf

/-- Why no instance is waited for after this one: the wait failed, or the list with the new agent
could not be written. -/
inductive Breaks (target : Disk.Target) (known : List Agent) (w : Wait p limit) : Fault → Prop
  | failed (h : w.result = .error f) (hf : f.trouble.isNotReady = false) : Breaks target known w f
  | unsaved {disk after : Disk.Store} (h : w.result = .ok i) (hnew : agentOf i ∉ known)
      (hr : disk.replace target (agentLines (known ++ [agentOf i])) = (.error why, after)) :
      Breaks target known w (Roster.saveFault target why)

/-- A wait has found an instance of its id that was ready when it was last reported. -/
def Found (w : Wait p limit) (i : Instance) : Prop :=
  w.result = .ok i ∧ i.id = w.id ∧ i.isReady = true ∧
    ∃ l, w.reports.getLast? = some (.ok l) ∧ i ∈ l

theorem found (w : Wait p limit) {i : Instance} (h : w.result = .ok i) : w.Found i := by
  have hwatch := w.watch
  rw [h] at hwatch
  obtain ⟨earlier, l, hreports, hl, _⟩ := hwatch.of_ready
  obtain ⟨hm, hid, hready⟩ := Poller.of_readyIn hl
  exact ⟨h, hid, hready, l, by rw [hreports, List.getLast?_concat], hm⟩

end Wait

section Waits

variable {p : Poller} {limit : Option Nat}

/-- The looks of waits, in order. -/
def looks (waits : List (Wait p limit)) : List (Text × Report) :=
  waits.flatMap fun w => w.reports.map (w.id, ·)

/-- What comes of instances that are waited for, one after another, from these known agents. -/
def enrollments (known : List Agent) : List (Wait p limit) → List Enrollment
  | [] => []
  | w :: rest => w.enrollment known :: enrollments (known ++ (w.enrollment known).agents) rest

def newcomers (known : List Agent) (waits : List (Wait p limit)) : List Agent :=
  (enrollments known waits).flatMap (·.agents)

/-- The instances that were not ready in time. -/
def latecomers (waits : List (Wait p limit)) : List Text :=
  (waits.filter (·.result.toOption.isNone)).map (·.id)

@[simp] theorem looks_append (waits more : List (Wait p limit)) :
    looks (waits ++ more) = looks waits ++ looks more :=
  List.flatMap_append

theorem newcomers_cons (known : List Agent) (w : Wait p limit) (waits : List (Wait p limit)) :
    newcomers known (w :: waits) = (w.enrollment known).agents ++
      newcomers (known ++ (w.enrollment known).agents) waits :=
  rfl

theorem latecomers_cons (known : List Agent) (w : Wait p limit) (waits : List (Wait p limit)) :
    latecomers (w :: waits) = (w.enrollment known).late w.id ++ latecomers waits := by
  unfold latecomers
  cases hw : w.result with
  | ok i =>
    rw [List.filter_cons_of_neg (by simp [hw, Except.toOption])]
    by_cases hm : agentOf i ∈ known
    · rw [Wait.enrollment_known hw hm]
      rfl
    · rw [Wait.enrollment_new hw hm]
      rfl
  | error f =>
    rw [List.filter_cons_of_pos (by simp [hw, Except.toOption]), Wait.enrollment_late hw]
    rfl

/-- Every instance is added, known or late, and only one of these. -/
theorem length_waits (known : List Agent) (waits : List (Wait p limit)) :
    waits.length = (newcomers known waits).length +
      (enrollments known waits).count .known + (latecomers waits).length := by
  induction waits generalizing known with
  | nil => rfl
  | cons w rest ih =>
    have hrest := ih (known ++ (w.enrollment known).agents)
    have hone := (w.enrollment known).counted_once w.id
    have hcount : (enrollments known (w :: rest)).count .known = [w.enrollment known].count .known +
        (enrollments (known ++ (w.enrollment known).agents) rest).count .known := by
      rw [← List.count_append]
      rfl
    rw [newcomers_cons, latecomers_cons known, hcount, List.length_cons, List.length_append,
      List.length_append]
    omega

theorem mem_newcomers {known : List Agent} {waits : List (Wait p limit)} {a : Agent}
    (h : a ∈ newcomers known waits) : ∃ w ∈ waits, ∃ i, w.result = .ok i ∧ a = agentOf i := by
  induction waits generalizing known with
  | nil => cases h
  | cons w rest ih =>
    rw [newcomers_cons] at h
    rcases List.mem_append.mp h with h | h
    · cases hw : w.result with
      | ok i =>
        by_cases hm : agentOf i ∈ known
        · rw [Wait.enrollment_known hw hm] at h
          cases h
        · rw [Wait.enrollment_new hw hm] at h
          exact ⟨w, List.mem_cons_self, i, hw, List.mem_singleton.mp h⟩
      | error f =>
        rw [Wait.enrollment_late hw] at h
        cases h
    · obtain ⟨w', hw', hi⟩ := ih h
      exact ⟨w', List.mem_cons_of_mem _ hw', hi⟩

/-- How the instances of these ids are enrolled: who is new, and what comes of it. All are waited
for, or they are up to one that breaks off, and who was new before stays. -/
inductive Growth (target : Disk.Target) (known : List Agent) (ids : List Text) :
    List (Wait p limit) → List Agent → Except Fault (List Agent × List Text) → Prop
  | complete (hids : waits.map (·.id) = ids) (hover : ∀ w ∈ waits, w.Over) :
      Growth target known ids waits (newcomers known waits)
        (.ok (newcomers known waits, latecomers waits))
  | broken {f : Fault} (hids : (done ++ [w]).map (·.id) <+: ids) (hover : ∀ w ∈ done, w.Over)
      (hw : w.Breaks target (known ++ newcomers known done) f) :
      Growth target known ids (done ++ [w]) (newcomers known done) (.error f)

/-- One more instance in front that does not break off. -/
theorem Growth.cons {target : Disk.Target} {known appended : List Agent} {ids : List Text}
    {w : Wait p limit} {waits : List (Wait p limit)}
    {result : Except Fault (List Agent × List Text)}
    (hw : w.Over)
    (h : Growth target (known ++ (w.enrollment known).agents) ids waits appended result) :
    Growth target known (w.id :: ids) (w :: waits) ((w.enrollment known).agents ++ appended)
      (result.map fun r =>
        ((w.enrollment known).agents ++ r.1, (w.enrollment known).late w.id ++ r.2)) := by
  have hover : ∀ {rest : List (Wait p limit)}, (∀ w' ∈ rest, w'.Over) →
      ∀ w' ∈ w :: rest, w'.Over := by
    intro rest hrest w' hm
    rcases List.mem_cons.mp hm with rfl | hm
    · exact hw
    · exact hrest w' hm
  cases h with
  | complete hids hrest =>
    rw [← newcomers_cons, Except.map, ← newcomers_cons, ← latecomers_cons]
    exact .complete (congrArg (w.id :: ·) hids) (hover hrest)
  | @broken done last f hids hrest hbreaks =>
    rw [← newcomers_cons, ← List.cons_append]
    refine .broken ?_ (hover hrest) ?_
    · exact List.cons_prefix_cons.mpr ⟨rfl, hids⟩
    · rwa [newcomers_cons, ← List.append_assoc]

namespace Growth

variable {target : Disk.Target} {known appended : List Agent} {ids : List Text}
  {waits : List (Wait p limit)} {result : Except Fault (List Agent × List Text)}

theorem id_mem (h : Growth target known ids waits appended result) :
    ∀ w ∈ waits, w.id ∈ ids := by
  intro w hw
  cases h with
  | complete hids _ => exact hids ▸ List.mem_map_of_mem hw
  | broken hids _ _ => exact hids.subset (List.mem_map_of_mem hw)

/-- Whoever is new comes of a ready instance that was asked for. -/
theorem of_mem (h : Growth target known ids waits appended result) {a : Agent}
    (ha : a ∈ appended) :
    ∃ w ∈ waits, ∃ i, w.Found i ∧ a = agentOf i ∧ i.id ∈ ids := by
  have hfrom : ∃ w ∈ waits, ∃ i, w.result = .ok i ∧ a = agentOf i := by
    cases h with
    | complete _ _ => exact mem_newcomers ha
    | broken _ _ _ =>
      obtain ⟨w, hw, hi⟩ := mem_newcomers ha
      exact ⟨w, List.mem_append_left _ hw, hi⟩
  obtain ⟨w, hw, i, hi, he⟩ := hfrom
  have hfound := w.found hi
  exact ⟨w, hw, i, hfound, he, hfound.2.1 ▸ h.id_mem w hw⟩

/-- On a return the new agents are what is told, and every instance is accounted for. -/
theorem returned {added : List Agent} {timedOut : List Text}
    (h : Growth target known ids waits appended (.ok (added, timedOut))) :
    added = appended ∧
      ids.length = added.length + (enrollments known waits).count .known + timedOut.length := by
  cases h with
  | complete hids _ =>
    rw [← hids, List.length_map]
    exact ⟨rfl, length_waits known waits⟩

end Growth

/-- From `s` to `t` these waits were made, and these agents became known and were filed. -/
structure Progress (c : Provider) (waits : List (Wait p limit)) (appended : List Agent)
    (s t : Situation) : Prop where
  asked : s.Asked c (looks waits) t
  roster : t.roster = ⟨s.roster.path, s.roster.agents ++ appended⟩
  base : t.disk.base = s.disk.base
  limit : t.cancellation.limit = s.cancellation.limit
  file : (appended = [] ∧ ∀ path, t.disk.read path = s.disk.read path) ∨
    t.disk.read (t.disk.target t.roster.path).text = .ok (.text (agentLines t.roster.agents))

namespace Progress

variable {c : Provider} {waits more : List (Wait p limit)} {appended others : List Agent}
  {s t u : Situation}

theorem trans (h : Progress c waits appended s t) (h' : Progress c more others t u) :
    Progress c (waits ++ more) (appended ++ others) s u := by
  refine ⟨?_, ?_, h'.base.trans h.base, h'.limit.trans h.limit, ?_⟩
  · rw [looks_append]
    exact h.asked.trans h'.asked
  · rw [h'.roster, h.roster, List.append_assoc]
  -- what was filed on the first part of the way is read at its end, unless more was filed since
  · rcases h'.file with ⟨rfl, hsame⟩ | hfile
    · rcases h.file with ⟨rfl, hbefore⟩ | hfile
      · exact .inl ⟨rfl, fun path => (hsame path).trans (hbefore path)⟩
      · right
        rw [hsame, h'.roster, List.append_nil, Roster.target_congr h'.base]
        exact hfile
    · exact .inr hfile

/-- A wait by itself makes nobody known. -/
theorem wait (w : Wait p limit) (h : s.Looked c w.id w.reports t) : Progress c [w] [] s t := by
  refine ⟨?_, by rw [h.roster, List.append_nil], by rw [h.disk], h.limit,
    .inl ⟨rfl, fun path => by rw [h.disk]⟩⟩
  unfold looks
  rw [List.flatMap_cons, List.flatMap_nil, List.append_nil]
  exact h.asked

theorem told (h : s.Told t) : Progress c ([] : List (Wait p limit)) [] s t := by
  have hidle := h.idle
  exact ⟨.nothing hidle.calls (hidle.sameAnswers _), by rw [hidle.roster, List.append_nil],
    by rw [hidle.disk], hidle.limit, .inl ⟨rfl, fun path => by rw [hidle.disk]⟩⟩

theorem then_told (h : Progress c waits appended s t) (ht : t.Told u) :
    Progress c waits appended s u := by
  simpa using h.trans (told ht)

/-- A change of the roster and its disk, and nothing else. -/
theorem stored {disk : Disk.Store} {a : Agent}
    (h : Roster.Stored s.disk disk s.roster.path (s.roster.agents ++ [a])) :
    Progress c ([] : List (Wait p limit)) [a] s
      { s with disk, roster.agents := s.roster.agents ++ [a] } :=
  ⟨.nothing rfl ⟨rfl, rfl⟩, rfl, h.base, rfl, .inr h.read⟩

/-- A disk that has refused to be written. -/
theorem refused : Progress c ([] : List (Wait p limit)) [] s { s with disk := s.disk.pastUpset } :=
  ⟨.nothing rfl ⟨rfl, rfl⟩, by rw [List.append_nil], rfl, rfl,
    .inl ⟨rfl, s.disk.pastUpset_read⟩⟩

end Progress

end Waits

namespace Scaler

variable {scaler : Scaler} {limit : Option Nat} {i : Instance} {f : Fault} {s t : Situation}

/-- What is left of an enrollment once the instance is ready. -/
def register (ready : Instance) : Action Enrollment := do
  let added ← Roster.add (agentOf ready)
  info ("Instance " ++ ready.id ++ " registered as agent " ++ (agentOf ready).line)
  return if added then .added (agentOf ready) else .known

theorem enroll_ready {id : Text}
    (h : scaler.poller.waitUntilReady scaler.provider id s = .ok i t) :
    scaler.enroll id s = register i t :=
  bind_run (attempt_ok h)

theorem enroll_late {id : Text}
    (h : scaler.poller.waitUntilReady scaler.provider id s = .error f t)
    (hf : f.trouble.isNotReady = true) :
    ∃ u, scaler.enroll id s = .ok .timedOut u ∧ t.Told u := by
  obtain ⟨trouble, causes⟩ := f
  cases trouble with
  | notReady id' attempts bound =>
    obtain ⟨u, hu, told⟩ := warn_told ((Fault.mk (.notReady id' attempts bound) causes).message ++
      ". The instance is not added to the agents file.") t
    exact ⟨u, (bind_run (attempt_error h)).trans (bind_run hu), told⟩
  | _ => cases hf

theorem enroll_broken {id : Text}
    (h : scaler.poller.waitUntilReady scaler.provider id s = .error f t)
    (hf : f.trouble.isNotReady = false) : scaler.enroll id s = .error f t := by
  refine (bind_run (attempt_error h)).trans ?_
  obtain ⟨trouble, causes⟩ := f
  cases trouble with
  | notReady id' attempts bound => cases hf
  | _ => rfl

/-- An agent that is added, or is known, is told of. -/
theorem register_told {added : Bool} (h : Roster.add (agentOf i) s = .ok added t) :
    ∃ u, register i s = .ok (if added then .added (agentOf i) else .known) u ∧ t.Told u := by
  obtain ⟨u, hu, told⟩ := info_told
    ("Instance " ++ i.id ++ " registered as agent " ++ (agentOf i).line) t
  exact ⟨u, (bind_run h).trans (bind_run hu), told⟩

/-- An agent that is new is added, if the longer list can be written. -/
theorem register_new (h : agentOf i ∉ s.roster.agents) :
    (∃ disk t, Roster.Stored s.disk disk s.roster.path (s.roster.agents ++ [agentOf i]) ∧
      register i s = .ok (.added (agentOf i)) t ∧
      Situation.Told { s with disk, roster.agents := s.roster.agents ++ [agentOf i] } t) ∨
    ∃ why disk, s.disk.replace (s.disk.target s.roster.path)
        (agentLines (s.roster.agents ++ [agentOf i])) = (.error why, disk) ∧
      register i s = .error (Roster.saveFault (s.disk.target s.roster.path) why)
        { s with disk := s.disk.pastUpset } := by
  have hcommit := Roster.commit_run (s.roster.agents ++ [agentOf i]) s
  cases hr : s.disk.replace (s.disk.target s.roster.path)
      (agentLines (s.roster.agents ++ [agentOf i])) with
  | mk result disk =>
    rw [hr] at hcommit
    cases result with
    | ok _ =>
      obtain ⟨t, ht, told⟩ := register_told ((Roster.add_new h).trans (bind_run hcommit))
      exact .inl ⟨disk, t, Disk.Store.replace_ok hr, ht, told⟩
    | error why =>
      have hadd := (Roster.add_new h).trans (bind_run_error hcommit)
      rw [Disk.Store.replace_error hr] at hadd
      exact .inr ⟨why, disk, rfl, bind_run_error hadd⟩

/-- One instance is waited for, and becomes an agent, is known, is late or breaks off. -/
theorem enroll_wait (scaler : Scaler) (id : Text) (hl : s.cancellation.limit = limit) :
    ∃ w : Wait scaler.poller limit, w.id = id ∧
      ((∃ t, w.Over ∧ scaler.enroll id s = .ok (w.enrollment s.roster.agents) t ∧
          Progress scaler.provider [w] (w.enrollment s.roster.agents).agents s t) ∨
        ∃ f t, w.Breaks (s.disk.target s.roster.path) s.roster.agents f ∧
          scaler.enroll id s = .error f t ∧ Progress scaler.provider [w] [] s t) := by
  obtain ⟨reports, hwatch, hlooked⟩ := scaler.poller.waitUntilReady_watch scaler.provider id s
  rw [hl] at hwatch
  obtain ⟨w, rfl, rfl, hresult⟩ : ∃ w : Wait scaler.poller limit, w.id = id ∧ w.reports = reports ∧
      w.result = (scaler.poller.waitUntilReady scaler.provider id).outcome s :=
    ⟨⟨id, reports, _, hwatch⟩, rfl, rfl, rfl⟩
  refine ⟨w, rfl, ?_⟩
  have hwait := Progress.wait w hlooked
  generalize hafter : (scaler.poller.waitUntilReady scaler.provider w.id).after s = t at *
  cases hw : (scaler.poller.waitUntilReady scaler.provider w.id).outcome s with
  | ok i =>
    have hrun := run_ok hw
    rw [hafter] at hrun
    rw [hw] at hresult
    rw [enroll_ready hrun, ← hlooked.roster, ← hlooked.disk]
    have hover : w.Over := fun f hf => by rw [hresult] at hf; cases hf
    by_cases hm : agentOf i ∈ t.roster.agents
    · obtain ⟨u, hu, told⟩ := register_told (Roster.add_known hm)
      rw [Wait.enrollment_known hresult hm]
      exact .inl ⟨u, hover, hu, hwait.then_told told⟩
    · rw [Wait.enrollment_new hresult hm]
      rcases register_new hm with ⟨disk, u, hst, hu, told⟩ | ⟨why, disk, hr, hu⟩
      · exact .inl ⟨u, hover, hu, (hwait.trans (.stored hst)).then_told told⟩
      · exact .inr ⟨_, _, .unsaved hresult hm hr, hu, hwait.trans .refused⟩
  | error f =>
    have hrun := run_error hw
    rw [hafter] at hrun
    rw [hw] at hresult
    cases hf : f.trouble.isNotReady with
    | true =>
      obtain ⟨u, hu, told⟩ := enroll_late hrun hf
      have hover : w.Over := fun g hg => by
        rw [hresult] at hg
        cases hg
        exact hf
      rw [Wait.enrollment_late hresult]
      exact .inl ⟨u, hover, hu, hwait.then_told told⟩
    | false =>
      exact .inr ⟨f, t, .failed hresult hf, enroll_broken hrun hf, hwait⟩

/-- What comes of the first enrollment goes before what comes of the others. -/
theorem enrollAll_cons {id : Text} {e : Enrollment} (h : scaler.enroll id s = .ok e t)
    (rest : List Text) :
    (scaler.enrollAll (id :: rest)).outcome s =
        ((scaler.enrollAll rest).outcome t).map (fun r => (e.agents ++ r.1, e.late id ++ r.2)) ∧
      (scaler.enrollAll (id :: rest)).after s = (scaler.enrollAll rest).after t := by
  have hrun : scaler.enrollAll (id :: rest) s = (do
      let r ← scaler.enrollAll rest
      return (e.agents ++ r.1, e.late id ++ r.2) : Action (List Agent × List Text)) t := by
    refine (bind_run h).trans ?_
    cases e <;> rfl
  rw [outcome_congr hrun, after_congr hrun, outcome_bind, after_bind]
  cases (scaler.enrollAll rest).outcome t with
  | ok r => exact ⟨rfl, rfl⟩
  | error f => exact ⟨rfl, rfl⟩

/-- Instances are waited for in order, as far as it goes. -/
theorem enrollAll_growth (scaler : Scaler) (ids : List Text)
    (hl : s.cancellation.limit = limit) :
    ∃ (waits : List (Wait scaler.poller limit)) (appended : List Agent),
      Growth (s.disk.target s.roster.path) s.roster.agents ids waits appended
        ((scaler.enrollAll ids).outcome s) ∧
      Progress scaler.provider waits appended s ((scaler.enrollAll ids).after s) := by
  -- by induction on the ids, from wherever the earlier ones have led: who is known then, and what
  -- the cloud says next, is all that is left of them
  induction ids generalizing s with
  | nil => exact ⟨[], [], .complete rfl (by simp), .told (.refl s)⟩
  | cons id rest ih =>
    obtain ⟨w, rfl, ⟨t, hover, hrun, hstep⟩ | ⟨f, t, hbreaks, hrun, hstep⟩⟩ :=
      scaler.enroll_wait id hl
    · obtain ⟨waits, appended, hgrowth, hmore⟩ := ih (hstep.limit.trans hl)
      obtain ⟨houtcome, hafter⟩ := enrollAll_cons hrun rest
      rw [hstep.roster, Roster.target_congr hstep.base] at hgrowth
      rw [houtcome, hafter]
      exact ⟨w :: waits, _, hgrowth.cons hover, hstep.trans hmore⟩
    · have hall : scaler.enrollAll (w.id :: rest) s = .error f t := bind_run_error hrun
      rw [outcome, after, hall]
      refine ⟨[] ++ [w], newcomers s.roster.agents [], .broken ?_ (by simp) ?_, hstep⟩
      · simp
      · rwa [newcomers, enrollments, List.flatMap_nil, List.append_nil]

/-- Tell what came of the instances that were created. -/
def account (target : Int) (created : List Instance) (added : List Agent) (timedOut : List Text) :
    Action ScaleResult := do
  if timedOut ≠ [] then
    warn (counted timedOut ++ " of " ++ counted created ++ " instance(s) did not become ready: " ++
      commaSeparated timedOut)
  info ("Added " ++ counted added ++ " agent(s). The fleet has " ++ counted (← get).roster.agents ++
    " agent(s).")
  return ⟨target, added, [], timedOut, []⟩

theorem account_told (target : Int) (created : List Instance) (added : List Agent)
    (timedOut : List Text) (s : Situation) :
    ∃ t, account target created added timedOut s = .ok ⟨target, added, [], timedOut, []⟩ t ∧
      s.Told t := by
  have hlast : ∀ u : Situation, ∃ t,
      (do
        info ("Added " ++ counted added ++ " agent(s). The fleet has " ++
          counted (← get).roster.agents ++ " agent(s).")
        return ⟨target, added, [], timedOut, []⟩ : Action ScaleResult) u =
          .ok ⟨target, added, [], timedOut, []⟩ t ∧ u.Told t := by
    intro u
    rw [get_bind_run]
    obtain ⟨t, ht, told⟩ := info_told ("Added " ++ counted added ++
      " agent(s). The fleet has " ++ counted u.roster.agents ++ " agent(s).") u
    exact ⟨t, bind_run ht, told⟩
  unfold account
  by_cases hlate : timedOut = []
  · rw [if_neg (by simpa using hlate)]
    exact hlast s
  · rw [if_pos hlate]
    obtain ⟨v, hv, hwarned⟩ := warn_told (counted timedOut ++ " of " ++ counted created ++
      " instance(s) did not become ready: " ++ commaSeparated timedOut) s
    obtain ⟨t, ht, told⟩ := hlast v
    exact ⟨t, (bind_run hv).trans ht, hwarned.trans told⟩

/-- What is left of a growth once the instances are created. -/
def welcome (scaler : Scaler) (target : Int) (created : List Instance) : Action ScaleResult := do
  let (added, timedOut) ← scaler.enrollAll (created.map (·.id))
  account target created added timedOut

/-- Once the instances are enrolled there is nothing to do but to tell. -/
theorem welcome_told (scaler : Scaler) (target : Int) (created : List Instance) (s : Situation) :
    (scaler.welcome target created).outcome s =
        ((scaler.enrollAll (created.map (·.id))).outcome s).map
          (fun r => ⟨target, r.1, [], r.2, []⟩) ∧
      ((scaler.enrollAll (created.map (·.id))).after s).Told
        ((scaler.welcome target created).after s) := by
  cases hr : (scaler.enrollAll (created.map (·.id))).outcome s with
  | error f =>
    have henroll := run_error hr
    generalize (scaler.enrollAll (created.map (·.id))).after s = u at henroll ⊢
    have hrun : scaler.welcome target created s = .error f u := bind_run_error henroll
    rw [outcome, after, hrun]
    exact ⟨rfl, .refl u⟩
  | ok r =>
    have henroll := run_ok hr
    generalize (scaler.enrollAll (created.map (·.id))).after s = u at henroll ⊢
    obtain ⟨t, ht, told⟩ := account_told target created r.1 r.2 u
    have hrun : scaler.welcome target created s = .ok ⟨target, r.1, [], r.2, []⟩ t :=
      (bind_run henroll).trans ht
    rw [outcome, after, hrun]
    exact ⟨rfl, told⟩

variable {target : Int}

/-- The call that creates as many instances as are missing. -/
abbrev creation (scaler : Scaler) (s : Situation) (target : Int) : Action (List Instance) :=
  scaler.provider.createInstances (target - s.roster.agents.length) scaler.template

/-- A growth as far as the instances are created. -/
def start (scaler : Scaler) (target : Int) : Action (List Instance) := do
  let current := (← get).roster.agents.length
  info ("Scaling fleet from " ++ Text.ofNat current ++ " to " ++ Text.ofInt target ++ " agents")
  info ("Creating " ++ Text.ofNat (target.toNat - current) ++ " instance(s) from image " ++
    scaler.template.image.shown ++ " (" ++ scaler.template.instanceType.shown ++ ")")
  scaler.provider.createInstances (target.toNat - current : Nat) scaler.template

theorem scaleTo_start (scaler : Scaler) (ht : s.roster.agents.length < target) :
    scaler.scaleTo target s = (do
      scaler.welcome target (← scaler.start target) : Action ScaleResult) s := by
  obtain ⟨u, hu, _⟩ := info_told ("Scaling fleet from " ++
    Text.ofNat s.roster.agents.length ++ " to " ++ Text.ofInt target ++ " agents") s
  unfold scaleTo start
  rw [if_neg (by omega)]
  simp only [bind_assoc, get_bind_run]
  rw [bind_run hu, bind_run hu, if_pos ht]
  rfl

/-- Up to there the cloud was asked for what is missing, and answered as it would at first. -/
theorem start_called (scaler : Scaler) (ht : s.roster.agents.length < target) :
    (scaler.start target).outcome s = (scaler.creation s target).outcome s ∧
      s.Called .createInstances [.create (target - s.roster.agents.length)]
        ((scaler.start target).after s) := by
  have hcount : ((target.toNat - s.roster.agents.length : Nat) : Int) =
      target - s.roster.agents.length := by omega
  obtain ⟨u, hu, told⟩ := info_told ("Scaling fleet from " ++
    Text.ofNat s.roster.agents.length ++ " to " ++ Text.ofInt target ++ " agents") s
  obtain ⟨v, hv, more⟩ := info_told ("Creating " ++
    Text.ofNat (target.toNat - s.roster.agents.length) ++ " instance(s) from image " ++
    scaler.template.image.shown ++ " (" ++ scaler.template.instanceType.shown ++ ")") u
  have hall := told.trans more
  have hrun : scaler.start target s = scaler.creation s target v := by
    unfold start creation
    rw [get_bind_run, bind_run hu, bind_run hv, hcount]
  rw [outcome_congr hrun, after_congr hrun]
  exact ⟨(scaler.provider.alike_createInstances _ _ s v (hall.sameAnswers _)).1.symm,
    (hall.called _).trans (scaler.provider.called_createInstances _ scaler.template)⟩

/-- When instances cannot be created nothing else is done. -/
theorem scaleTo_uncreated (ht : s.roster.agents.length < target)
    (hf : (scaler.creation s target).outcome s = .error f) :
    (scaler.scaleTo target).outcome s = .error f ∧
      ((scaler.scaleTo target).after s).disk = s.disk ∧
      ((scaler.scaleTo target).after s).roster = s.roster ∧
      ((scaler.scaleTo target).after s).calls =
        s.calls ++ [.create (target - s.roster.agents.length)] := by
  obtain ⟨houtcome, hcalled⟩ := scaler.start_called ht
  have hstart := run_error (houtcome.trans hf)
  generalize (scaler.start target).after s = v at hstart hcalled
  rw [outcome, after, (scaler.scaleTo_start ht).trans (bind_run_error hstart)]
  exact ⟨rfl, hcalled.disk, hcalled.roster, hcalled.calls⟩

/-- When instances are created they are enrolled, and what came of it is told. -/
theorem scaleTo_created (ht : s.roster.agents.length < target) {created : List Instance}
    (hc : (scaler.creation s target).outcome s = .ok created) :
    (scaler.scaleTo target).outcome s =
        ((scaler.enrollAll (created.map (·.id))).outcome ((scaler.start target).after s)).map
          (fun r => ⟨target, r.1, [], r.2, []⟩) ∧
      ((scaler.enrollAll (created.map (·.id))).after ((scaler.start target).after s)).Told
        ((scaler.scaleTo target).after s) := by
  have hstart := run_ok ((scaler.start_called ht).1.trans hc)
  have hall := (scaler.scaleTo_start ht).trans (bind_run hstart)
  rw [outcome_congr hall, after_congr hall]
  exact scaler.welcome_told target created _

/-- What a scaling to more agents does. As many instances are created as are missing, in one call;
if that fails, nothing else is done. Then they are waited for in the order in which they were
created, and what was ready before a wait or a write breaks off is an agent, in memory and on file.
When nothing breaks off, every instance was added, known or late. -/
theorem scaleTo_more (ht : s.roster.agents.length < target) :
    (∀ f, (scaler.creation s target).outcome s = .error f →
      (scaler.scaleTo target).outcome s = .error f ∧
      ((scaler.scaleTo target).after s).disk = s.disk ∧
      ((scaler.scaleTo target).after s).roster = s.roster ∧
      ((scaler.scaleTo target).after s).calls =
        s.calls ++ [.create (target - s.roster.agents.length)]) ∧
    ∀ created, (scaler.creation s target).outcome s = .ok created →
      ∃ (waits : List (Wait scaler.poller s.cancellation.limit)) (appended : List Agent)
        (result : Except Fault (List Agent × List Text)),
        Growth (s.disk.target s.roster.path) s.roster.agents (created.map (·.id)) waits appended
          result ∧
        (scaler.scaleTo target).outcome s = result.map (fun r => ⟨target, r.1, [], r.2, []⟩) ∧
        ((scaler.scaleTo target).after s).roster =
          ⟨s.roster.path, s.roster.agents ++ appended⟩ ∧
        ((appended = [] ∧
            ∀ path, ((scaler.scaleTo target).after s).disk.read path = s.disk.read path) ∨
          ((scaler.scaleTo target).after s).disk.read (s.disk.target s.roster.path).text =
            .ok (.text (agentLines (s.roster.agents ++ appended)))) ∧
        ((scaler.scaleTo target).after s).calls =
          s.calls ++ .create (target - s.roster.agents.length) ::
            (looks waits).map (fun look => .describe [look.1] []) ∧
        scaler.provider.reports ((looks waits).map (·.1)) s = (looks waits).map (·.2) ∧
        (∀ a ∈ appended, ∃ w ∈ waits, ∃ i, w.Found i ∧ a = agentOf i ∧
          i.id ∈ created.map (·.id)) ∧
        (∀ w ∈ waits, (∀ i, w.result = .ok i → ¬ w.UsedUp) ∧
          ∀ f, w.result = .error f → f.trouble.isNotReady = true →
            w.UsedUp ∨ .error f ∈ w.reports) ∧
        ∀ added timedOut, result = .ok (added, timedOut) → added = appended ∧
          created.length = added.length + (enrollments s.roster.agents waits).count .known +
            timedOut.length := by
  refine ⟨fun f hf => scaleTo_uncreated ht hf, fun created hc => ?_⟩
  obtain ⟨houtcome, htold⟩ := scaleTo_created ht hc
  have hcalled := (scaler.start_called ht).2
  have hlimit := congrArg Cancellation.limit hcalled.cancellation
  -- from `s` to `v` only instances were created, from `v` on only described
  generalize (scaler.start target).after s = v at *
  obtain ⟨waits, appended, hgrowth, hprogress⟩ :=
    scaler.enrollAll_growth (created.map (·.id)) hlimit
  generalize (scaler.enrollAll (created.map (·.id))).outcome v = result at *
  have hall := hprogress.then_told htold
  rw [hcalled.roster, hcalled.disk] at hgrowth
  have hroster := hall.roster
  rw [hcalled.roster] at hroster
  refine ⟨waits, appended, result, hgrowth, houtcome, hroster, ?_, ?_, ?_,
    fun a ha => hgrowth.of_mem ha, fun w _ => ⟨fun i => w.not_usedUp_of_ready,
      fun f => w.usedUp_of_late⟩, ?_⟩
  · rcases hall.file with ⟨he, hsame⟩ | hfile
    · exact .inl ⟨he, fun path => (hsame path).trans (by rw [hcalled.disk])⟩
    · right
      rwa [hroster, Roster.target_congr hall.base, hcalled.disk] at hfile
  · rw [hall.asked.calls, hcalled.calls, List.append_assoc]
    rfl
  · have hreports := hall.asked.reports []
    rw [List.append_nil, Provider.reports, List.append_nil] at hreports
    rw [← hreports]
    exact scaler.provider.reports_congr _ (hcalled.sameAnswers (by decide))
  · rintro added timedOut rfl
    obtain ⟨he, hlength⟩ := hgrowth.returned
    exact ⟨he, by rwa [List.length_map] at hlength⟩

/-- A scaler that looks twice at each new instance. -/
def lookingTwice : Scaler :=
  ⟨.service, .blank, ⟨.whole 1, 2⟩, .newestFirst⟩

/-- Of three new instances the first is ready at the second look and the second one never is; then
the cloud says no more. -/
def fallingSilent : Situation :=
  { Situation.bare ⟨.root, [], []⟩ ⟨"f", [⟨"a", "x"⟩]⟩ with
    service := fun
      | .createInstances => [.ok [⟨"i-1", none, none, none⟩, ⟨"i-2", none, none, none⟩,
          ⟨"i-3", none, none, none⟩]]
      | .describeInstances => [.ok [⟨"i-1", some "pending", none, none⟩],
          .ok [⟨"i-1", some "running", some "b", none⟩], .ok [], .ok []]
      | _ => [] }

/-- The first one of the instances has become an agent when the third one breaks off. -/
theorem scaleTo_more_fallingSilent :
    ∃ waits : List (Wait lookingTwice.poller fallingSilent.cancellation.limit),
    Growth (fallingSilent.disk.target "f") [⟨"a", "x"⟩] ["i-1", "i-2", "i-3"] waits [⟨"b", "b"⟩]
      (.error (.of (.noReply "describe_instances"))) ∧
    (looks waits).map (·.1) = ["i-1", "i-1", "i-2", "i-2", "i-3"] := by
  obtain ⟨waits, appended, result, hgrowth, houtcome, hroster, _, hcalls, _⟩ :=
    (@scaleTo_more lookingTwice fallingSilent 4 (by decide)).2 _ rfl
  have hr : ((lookingTwice.scaleTo 4).after fallingSilent).roster =
      ⟨"f", [⟨"a", "x"⟩, ⟨"b", "b"⟩]⟩ := by decide +kernel
  have ho : (lookingTwice.scaleTo 4).outcome fallingSilent =
      .error (.of (.noReply "describe_instances")) := by decide +kernel
  have hc : ((lookingTwice.scaleTo 4).after fallingSilent).calls = .create 3 ::
      ["i-1", "i-1", "i-2", "i-2", "i-3"].map (.describe [·] []) := by decide +kernel
  rw [hr] at hroster
  rw [ho] at houtcome
  rw [hc] at hcalls
  have happended : appended = [⟨"b", "b"⟩] :=
    (List.cons.inj (Roster.mk.inj hroster).2).2.symm
  have hdescribe : Function.Injective fun id : Text => CloudCall.describe [id] [] := by
    intro id id' h
    cases h
    rfl
  have hlooks : (looks waits).map (·.1) = ["i-1", "i-1", "i-2", "i-2", "i-3"] := by
    refine hdescribe.list_map ?_
    rw [List.map_map]
    exact (List.cons.inj hcalls).2.symm
  subst happended
  cases result with
  | ok r => cases houtcome
  | error f =>
    cases houtcome
    exact ⟨waits, hgrowth, hlooks⟩

end Scaler

end AgentFleet
