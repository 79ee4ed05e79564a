import AgentFleet.Proofs.Lasting

namespace AgentFleet
open AgentFleet.Action Cloud

/-- How the disk and the roster stood when a request was made. -/
def Event.moment? : Event → Option (Disk.Store × Roster)
  | .asked _ disk roster | .sent _ disk roster => some (disk, roster)
  | _ => none

/-- How the disk and the roster stood at the requests that were made since a first situation. -/
def Situation.momentsSince (first s : Situation) : List (Disk.Store × Roster) :=
  (s.history.take (s.history.length - first.history.length)).filterMap Event.moment?

theorem Situation.momentsSince_eq {first s : Situation} {done : List Event}
    (h : s.history = done ++ first.history) :
    first.momentsSince s = done.filterMap Event.moment? := by
  unfold momentsSince
  rw [h, List.length_append, Nat.add_sub_cancel, List.take_left]

theorem Situation.moment?_of_told {lines : List Event}
    (h : ∀ e ∈ lines, ∃ severity text, e = .logged severity text) :
    ∀ e ∈ lines, e.moment? = none := by
  intro e he
  obtain ⟨severity, text, rfl⟩ := h e he
  rfl

/-- Of the addresses of all instances that are going to be described, the public one first,
`reported` holds. -/
structure Situation.Reports (reported : Option Text → Option Text → Prop) (s : Situation) :
    Prop where
  service : ∀ l, .ok l ∈ s.service .describeInstances →
    ∀ i ∈ l, reported i.publicAddress i.privateAddress
  aws : ∀ page, .ok page ∈ s.aws .describeInstances →
    ∀ d ∈ page.reservations.flatten, reported d.publicAddress d.privateAddress

/-- `s` comes after `first`. At every request between them, and now, disk and roster have `J`. -/
structure Watched (J : Disk.Store → Roster → Prop) (reported : Option Text → Option Text → Prop)
    (first s : Situation) : Prop where
  now : J s.disk s.roster
  since : ∃ done, s.history = done ++ first.history ∧
    ∀ e ∈ done, ∀ disk roster, e.moment? = some (disk, roster) → J disk roster
  reports : s.Reports reported

theorem Cloud.Script.mem_of_mem_with_tail {Answer : Operation → Type} {script : Script Answer}
    {o p : Operation} {x : Except Fault (Answer p)}
    (h : x ∈ script.with o (script o).tail p) : x ∈ script p := by
  by_cases hp : o = p
  · subst hp
    rw [Script.with_self] at h
    exact List.mem_of_mem_tail h
  · rwa [Script.with_of_ne _ _ hp] at h

theorem mem_of_replied {answers : List (Except Fault α)} {method : String} {a : α}
    (h : replied answers method = .ok a) : .ok a ∈ answers := by
  cases answers with
  | nil => simp [replied] at h
  | cons x rest =>
    have : x = .ok a := h
    simp [this]

namespace Watched

variable {J : Disk.Store → Roster → Prop} {reported : Option Text → Option Text → Prop}
  {first s t : Situation}

theorem refl (h : J s.disk s.roster) (hr : s.Reports reported) : Watched J reported s s :=
  ⟨h, ⟨[], rfl, by simp⟩, hr⟩

theorem moments (h : Watched J reported first s) :
    (∃ done, s.history = done ++ first.history) ∧ ∀ m ∈ first.momentsSince s, J m.1 m.2 := by
  obtain ⟨_, ⟨done, hh, hdone⟩, _⟩ := h
  refine ⟨⟨done, hh⟩, fun m hm => ?_⟩
  rw [Situation.momentsSince_eq hh] at hm
  obtain ⟨e, he, hem⟩ := List.mem_filterMap.mp hm
  exact hdone e he m.1 m.2 hem

/-- Only disk, roster, history and what is reported are watched. -/
theorem congr (h : Watched J reported first s) (hd : t.disk = s.disk) (hr : t.roster = s.roster)
    (hh : t.history = s.history) (ha : t.Reports reported) : Watched J reported first t := by
  obtain ⟨hnow, hsince, _⟩ := h
  exact ⟨by rwa [hd, hr], by rwa [hh], ha⟩

theorem record (h : Watched J reported first s) {e : Event}
    (he : ∀ disk roster, e.moment? = some (disk, roster) → disk = s.disk ∧ roster = s.roster) :
    Watched J reported first (s.record e) := by
  obtain ⟨hnow, ⟨done, hh, hdone⟩, hr⟩ := h
  refine ⟨hnow, ⟨e :: done, congrArg (e :: ·) hh, fun e' he' disk roster hm => ?_⟩,
    hr.service, hr.aws⟩
  rcases List.mem_cons.mp he' with rfl | he'
  · obtain ⟨rfl, rfl⟩ := he disk roster hm
    exact hnow
  · exact hdone e' he' disk roster hm

/-- The disk and the roster may change as long as they have `J`. -/
theorem move (h : Watched J reported first s) {disk : Disk.Store} {roster : Roster}
    (hj : J disk roster) : Watched J reported first { s with disk, roster } :=
  ⟨hj, h.since, h.reports.service, h.reports.aws⟩

theorem ask (r : Service.Request) : Keeps (Watched J reported first) (Action.ask r) Any := by
  refine Brings.of_after fun s h => ?_
  rw [after_ask]
  refine (h.record (e := .asked r s.disk s.roster) ?_).congr rfl rfl rfl ⟨?_, h.reports.aws⟩
  · rintro disk roster ⟨⟩
    exact ⟨rfl, rfl⟩
  · exact fun l hl => h.reports.service l (Script.mem_of_mem_with_tail hl)

theorem send (r : Aws.Request) : Keeps (Watched J reported first) (Action.send r) Any := by
  refine Brings.of_after fun s h => ?_
  rw [after_send]
  refine (h.record (e := .sent r s.disk s.roster) ?_).congr rfl rfl rfl ⟨h.reports.service, ?_⟩
  · rintro disk roster ⟨⟩
    exact ⟨rfl, rfl⟩
  · exact fun page hp => h.reports.aws page (Script.mem_of_mem_with_tail hp)

/-- What is watched bears with whatever leaves disk and roster. -/
theorem lasting (J : Disk.Store → Roster → Prop) (reported : Option Text → Option Text → Prop)
    (first : Situation) : Lasting (Watched J reported first) where
  record s e he h := h.record fun disk roster hm => by cases e <;> cases he <;> cases hm
  cancellation s c h := h.congr rfl rfl rfl ⟨h.reports.service, h.reports.aws⟩
  ask := ask
  send := send

/-- Of the addresses of all these instances `reported` holds. -/
def Said (reported : Option Text → Option Text → Prop) (l : List Instance) : Prop :=
  ∀ i ∈ l, reported i.publicAddress i.privateAddress

theorem said_of_page {page : Aws.Page} {l : List Instance}
    (h : ∀ d ∈ page.reservations.flatten, reported d.publicAddress d.privateAddress)
    (hl : page.instances = .ok l) : Said reported l := by
  intro i hi
  obtain ⟨d, hd, hdi⟩ := mem_of_mapM hl i hi
  unfold Aws.InstanceDescription.toInstance at hdi
  cases hid : Aws.required "InstanceId" d.id with
  | ok id =>
    rw [hid] at hdi
    cases hdi
    exact h d hd
  | error f =>
    rw [hid] at hdi
    cases hdi

theorem describePages (ids addresses : List Text) (n : Nat) (token : Option Text) :
    Keeps (Watched J reported first) (Aws.describePages ids addresses n token) (Said reported) := by
  induction n generalizing token with
  | zero => exact Brings.pure (by simp [Said])
  | succ n ih =>
    have hpage : Keeps (Watched J reported first)
        (Aws.call (.describeInstances ids addresses token))
        (fun page =>
          ∀ d ∈ page.reservations.flatten, reported d.publicAddress d.privateAddress) := by
      refine Brings.explain (Brings.of_parts (fun s h => (send _).after h) fun s h page hp => ?_) _
      rw [outcome_send] at hp
      exact h.reports.aws page (mem_of_replied hp)
    refine hpage.bind fun page hp =>
      Brings.bind (Brings.ofExcept fun l hl => said_of_page hp hl) fun l hl => ?_
    split
    · exact Brings.pure hl
    · refine (ih _).bind fun more hm => Brings.pure fun i hi => ?_
      rcases List.mem_append.mp hi with hi | hi
      · exact hl i hi
      · exact hm i hi

variable (p : Provider)

theorem describeInstances (ids addresses : Option (List Text)) :
    Keeps (Watched J reported first) (p.describeInstances ids addresses) (Said reported) := by
  cases p with
  | service =>
    refine Brings.of_parts (fun s h => (ask _).after h) fun s h l hl => ?_
    have hl := (outcome_ask (.describeInstances ids addresses) s).symm.trans hl
    exact h.reports.service l (mem_of_replied hl)
  | aws =>
    change Keeps _ (Aws.describeInstances _ _) _
    unfold Aws.describeInstances
    split
    · exact fun _ h => h
    · exact Brings.get_bind fun s _ => describePages _ _ _ none

/-- A ready instance of whose addresses `reported` holds. -/
def Seen (reported : Option Text → Option Text → Prop) (i : Instance) : Prop :=
  i.isReady = true ∧ reported i.publicAddress i.privateAddress

theorem look (id : Text) :
    Keeps (Watched J reported first) (Poller.look p id)
      (fun found => ∀ i ∈ found, Seen reported i) := by
  refine (describeInstances p _ _).bind fun l hl => Brings.pure fun i hi => ?_
  have hready := List.find?_some hi
  simp only [Bool.and_eq_true] at hready
  exact ⟨hready.2, hl i (List.mem_of_find?_eq_some hi)⟩

theorem rounds (poller : Poller) (bound : Decimal.Number) (id : Text) (left : Nat) :
    Keeps (Watched J reported first) (poller.rounds bound p id left) (Seen reported) := by
  induction left with
  | zero => exact Brings.bind Brings.ofAny fun _ _ => Brings.throw
  | succ n ih =>
    refine ((lasting J reported first).wait poller.interval).bind fun stop _ => ?_
    dsimp only
    split
    · exact fun _ h => h
    · refine Brings.bind (look p id) fun found hfound => ?_
      cases found with
      | some i => exact Brings.pure (hfound i rfl)
      | none => exact ih

theorem waitUntilReady (poller : Poller) (id : Text) :
    Keeps (Watched J reported first) (poller.waitUntilReady p id) (Seen reported) :=
  Brings.bind Brings.ofAny fun bound _ =>
    ((lasting J reported first).log .info _).bind fun _ _ => rounds p poller bound id _

end Watched

end AgentFleet
