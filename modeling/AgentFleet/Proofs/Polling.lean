import AgentFleet.Readiness
import AgentFleet.Proofs.CloudCalls

namespace AgentFleet
open AgentFleet.Action Cloud

/-- It took an instance too long to become ready. -/
def Trouble.isNotReady : Trouble → Bool
  | .notReady .. => true
  | _ => false

/-- What comes of a question how an instance is. -/
abbrev Cloud.Report := Except Fault (List Instance)

/-- What the cloud is going to report when it is asked about these instances one after another. -/
def Cloud.Provider.reports (c : Provider) : List Text → Situation → List Report
  | [], _ => []
  | id :: rest, s => (c.describeInstances (some [id]) none).outcome s ::
      c.reports rest ((c.describeInstances (some [id]) none).after s)

theorem Cloud.Provider.reports_congr (c : Provider) (ids : List Text) {s t : Situation}
    (h : s.SameAnswers .describeInstances t) : c.reports ids s = c.reports ids t := by
  induction ids generalizing s t with
  | nil => rfl
  | cons id rest ih =>
    obtain ⟨houtcome, hafter⟩ := c.alike_describeInstances (some [id]) none s t h
    rw [reports, reports, houtcome, ih hafter]

namespace Situation

/-- `t` is `s` after nothing but waiting and telling. -/
structure Idle (s t : Situation) : Prop where
  disk : t.disk = s.disk
  roster : t.roster = s.roster
  calls : t.calls = s.calls
  service : t.service = s.service
  aws : t.aws = s.aws
  limit : t.cancellation.limit = s.cancellation.limit
  /-- A wish to stop stays. -/
  isSet : s.cancellation.isSet = true → t.cancellation.isSet = true

theorem Idle.refl (s : Situation) : s.Idle s :=
  ⟨rfl, rfl, rfl, rfl, rfl, rfl, id⟩

theorem Idle.trans {s t u : Situation} (h : s.Idle t) (h' : t.Idle u) : s.Idle u :=
  ⟨h'.disk.trans h.disk, h'.roster.trans h.roster, h'.calls.trans h.calls,
    h'.service.trans h.service, h'.aws.trans h.aws, h'.limit.trans h.limit,
    fun hs => h'.isSet (h.isSet hs)⟩

/-- A wait that could begin still can. -/
theorem Idle.refuses {s t : Situation} (h : s.Idle t) {seconds : Decimal.Number}
    (hs : s.cancellation.refuses seconds = false) : t.cancellation.refuses seconds = false := by
  unfold Cancellation.refuses at hs ⊢
  rw [h.limit]
  rcases Bool.and_eq_false_iff.mp hs with hset | hlong
  · rw [h.isSet (by simpa using hset)]
    rfl
  · rw [hlong, Bool.and_false]

theorem Idle.sameAnswers {s t : Situation} (h : s.Idle t) (o : Operation) : s.SameAnswers o t :=
  ⟨by rw [h.service], by rw [h.aws]⟩

theorem Told.idle {s t : Situation} (h : s.Told t) : s.Idle t := by
  have hc := h.calls
  obtain ⟨told, rfl, _⟩ := h
  exact ⟨rfl, rfl, hc, rfl, rfl, rfl, id⟩

/-- What is no call to the cloud may be recorded. -/
theorem Idle.record (s : Situation) {e : Event} (h : e.call? = none) : s.Idle (s.record e) :=
  ⟨rfl, rfl, by simp [calls_record, h], rfl, rfl, rfl, id⟩

/-- From `s` to `t` the cloud was asked about these instances, and reported this. -/
structure Asked (c : Provider) (looks : List (Text × Report)) (s t : Situation) : Prop where
  calls : t.calls = s.calls ++ looks.map fun look => .describe [look.1] []
  reports : ∀ more, c.reports (looks.map (·.1) ++ more) s =
    looks.map (·.2) ++ c.reports more t

namespace Asked

variable {c : Provider} {looks more : List (Text × Report)} {s t u : Situation}

theorem trans (h : Asked c looks s t) (h' : Asked c more t u) : Asked c (looks ++ more) s u := by
  constructor
  · rw [h'.calls, h.calls, List.map_append, List.append_assoc]
  · intro others
    rw [List.map_append, List.map_append, List.append_assoc, List.append_assoc, h.reports,
      h'.reports]

theorem nothing (hc : t.calls = s.calls) (ha : s.SameAnswers .describeInstances t) :
    Asked c [] s t :=
  ⟨hc.trans (List.append_nil _).symm, fun more => c.reports_congr more ha⟩

end Asked

/-- From `s` to `t` the cloud was asked about one instance. The disk and the roster stayed. -/
structure Looked (c : Provider) (id : Text) (reports : List Report) (s t : Situation) : Prop where
  asked : s.Asked c (reports.map (id, ·)) t
  disk : t.disk = s.disk
  roster : t.roster = s.roster
  limit : t.cancellation.limit = s.cancellation.limit

namespace Looked

variable {c : Provider} {id : Text} {reports more : List Report} {s t u : Situation}

theorem idle (h : s.Idle t) : Looked c id [] s t :=
  ⟨.nothing h.calls (h.sameAnswers .describeInstances), h.disk, h.roster, h.limit⟩

theorem trans (h : Looked c id reports s t) (h' : Looked c id more t u) :
    Looked c id (reports ++ more) s u := by
  refine ⟨?_, h'.disk.trans h.disk, h'.roster.trans h.roster, h'.limit.trans h.limit⟩
  rw [List.map_append]
  exact h.asked.trans h'.asked

theorem once (c : Provider) (id : Text) (s : Situation) :
    Looked c id [(c.describeInstances (some [id]) none).outcome s] s
      ((c.describeInstances (some [id]) none).after s) := by
  have hcalled := @Provider.called_describeInstances s c (some [id]) none (by simp)
  exact ⟨⟨hcalled.calls, fun _ => rfl⟩, hcalled.disk, hcalled.roster, by rw [hcalled.cancellation]⟩

end Looked

end Situation

namespace Action

theorem signal_idle (number : Int) (s : Situation) :
    ∃ t, signal number s = .ok () t ∧ s.Idle t := by
  unfold signal
  rw [get_bind_run]
  split
  · obtain ⟨u, hu, told⟩ :=
      warn_told ("Received signal " ++ Text.ofInt number ++ ". Cancelling...") s
    rw [bind_run hu]
    exact ⟨_, rfl, told.idle.trans ⟨rfl, rfl, rfl, rfl, rfl, rfl, fun _ => rfl⟩⟩
  · exact ⟨s, rfl, .refl s⟩

theorem signalDue_idle (c : Cancellation) (s : Situation) :
    ∃ t, signalDue c s = .ok () t ∧ s.Idle t := by
  unfold signalDue
  cases c.signalAt with
  | none => exact ⟨s, rfl, .refl s⟩
  | some due =>
    obtain ⟨n, number⟩ := due
    dsimp only
    split
    · exact signal_idle number s
    · exact ⟨s, rfl, .refl s⟩

theorem pass_idle (s : Situation) : ∃ stop t, pass s = .ok stop t ∧ s.Idle t := by
  have hlast : ∀ (c : Cancellation) (u : Situation), s.Idle u → ∃ stop t,
      (do signalDue c; return (← get).cancellation.isSet : Action Bool) u = .ok stop t ∧
        s.Idle t := by
    intro c u hu
    obtain ⟨t, ht, hidle⟩ := signalDue_idle c u
    exact ⟨_, t, bind_run ht, hu.trans hidle⟩
  unfold pass
  rw [modify_bind_run, get_bind_run]
  split
  · rw [modify_bind_run]
    exact hlast _ _ ⟨rfl, rfl, rfl, rfl, rfl, rfl, fun _ => rfl⟩
  · exact hlast _ _ ⟨rfl, rfl, rfl, rfl, rfl, rfl, id⟩

theorem wait_run (seconds : Decimal.Number) (s : Situation) : wait seconds s =
    if s.cancellation.refuses seconds then .error (.of .waitTooLong) (s.record (.waited seconds))
    else pass (s.record (.waited seconds)) := by
  unfold wait record
  rw [modify_bind_run, get_bind_run]
  change (if s.cancellation.refuses seconds then throw (.of .waitTooLong) else pass : Action Bool)
    (s.record (.waited seconds)) = _
  split
  · rfl
  · rfl

/-- A wait fails only if it cannot begin. -/
theorem wait_idle (seconds : Decimal.Number) (s : Situation) :
    ∃ t, s.Idle t ∧ ((∃ stop, wait seconds s = .ok stop t) ∨
      s.cancellation.refuses seconds = true ∧ wait seconds s = .error (.of .waitTooLong) t) := by
  have hwaited : s.Idle (s.record (.waited seconds)) := .record s rfl
  rw [wait_run]
  split
  · rename_i hrefused
    exact ⟨_, hwaited, .inr ⟨hrefused, rfl⟩⟩
  · obtain ⟨stop, t, hrun, hidle⟩ := pass_idle (s.record (.waited seconds))
    exact ⟨t, hwaited.trans hidle, .inl ⟨stop, hrun⟩⟩

theorem log_idle (severity : Severity) (text : Except Fault Text) (s : Situation) :
    ∃ t, log severity text s = .ok () t ∧ s.Idle t := by
  obtain ⟨t, hrun, htold | ⟨_, rfl⟩⟩ := log_made severity text s
  · exact ⟨t, hrun, htold.idle⟩
  · exact ⟨_, hrun, .record s rfl⟩

end Action

namespace Poller

/-- What a wait for an instance looks for in a report. -/
def readyIn (id : Text) (l : List Instance) : Option Instance :=
  l.find? fun i => i.id = id && i.isReady

/-- A wait for an instance, with some rounds left, where a single wait is limited: what the cloud
reports at each look, and what comes of it. -/
inductive Watch (p : Poller) (limit : Option Nat) (id : Text) :
    (left : Nat) → List Report → Except Fault Instance → Prop
  | ready (h : readyIn id l = some i) : Watch p limit id (left + 1) [.ok l] (.ok i)
  | unready (h : readyIn id l = none) (w : Watch p limit id left reports result) :
      Watch p limit id (left + 1) (.ok l :: reports) result
  | failed (f : Fault) : Watch p limit id (left + 1) [.error f] (.error f)
  | cancelled : Watch p limit id (left + 1) [] (.error (.of (.cancelled id)))
  /-- The single waits are too long. -/
  | refused (h : isTooLong limit p.interval = true) :
      Watch p limit id (left + 1) [] (.error (.of .waitTooLong))
  | spent (hb : p.bound = .ok longest) (ht : told longest = .ok text) :
      Watch p limit id 0 [] (.error (.of (.notReady id (.whole p.attempts) longest)))
  /-- The waits took too long together, and so long that it cannot be told. -/
  | overlong (hb : p.bound = .ok longest) (ht : told longest = .error f) :
      Watch p limit id 0 [] (.error f)
  /-- There is no number for how long the waits take together. -/
  | unbounded (hb : p.bound = .error f) : Watch p limit id left [] (.error f)

variable {p : Poller} {c : Provider} {limit : Option Nat} {id : Text} {l : List Instance}
  {i : Instance} {f : Fault} {left : Nat} {reports : List Report} {result : Except Fault Instance}

theorem of_readyIn (h : readyIn id l = some i) : i ∈ l ∧ i.id = id ∧ i.isReady = true := by
  have hi := List.find?_some h
  simp only [Bool.and_eq_true, decide_eq_true_eq] at hi
  exact ⟨List.mem_of_find?_eq_some h, hi⟩

theorem look_ok {s : Situation} (h : (c.describeInstances (some [id]) none).outcome s = .ok l) :
    look c id s = .ok (readyIn id l) ((c.describeInstances (some [id]) none).after s) :=
  bind_run (run_ok h)

theorem look_error {s : Situation}
    (h : (c.describeInstances (some [id]) none).outcome s = .error f) :
    look c id s = .error f ((c.describeInstances (some [id]) none).after s) :=
  bind_run_error (run_error h)

section Round

variable {longest : Decimal.Number} {s t : Situation} {n : Nat}

theorem rounds_spent (ht : told longest = .ok text) (s : Situation) :
    p.rounds longest c id 0 s = .error (.of (.notReady id (.whole p.attempts) longest)) s := by
  simp only [rounds, ht]
  rfl

theorem rounds_overlong (ht : told longest = .error f) (s : Situation) :
    p.rounds longest c id 0 s = .error f s := by
  simp only [rounds, ht]
  rfl

theorem rounds_refused (hw : wait p.interval s = .error f t) :
    p.rounds longest c id (n + 1) s = .error f t :=
  bind_run_error hw

theorem rounds_cancelled (hw : wait p.interval s = .ok true t) :
    p.rounds longest c id (n + 1) s = .error (.of (.cancelled id)) t :=
  bind_run hw

theorem rounds_failed (hw : wait p.interval s = .ok false t)
    (hr : (c.describeInstances (some [id]) none).outcome t = .error f) :
    p.rounds longest c id (n + 1) s =
      .error f ((c.describeInstances (some [id]) none).after t) :=
  (bind_run hw).trans (bind_run_error (look_error hr))

theorem rounds_ready (hw : wait p.interval s = .ok false t)
    (hr : (c.describeInstances (some [id]) none).outcome t = .ok l) (hi : readyIn id l = some i) :
    p.rounds longest c id (n + 1) s = .ok i ((c.describeInstances (some [id]) none).after t) := by
  have hlook := look_ok hr
  rw [hi] at hlook
  exact (bind_run hw).trans (bind_run hlook)

/-- A round that decides nothing leaves the others. -/
theorem rounds_unready (hw : wait p.interval s = .ok false t)
    (hr : (c.describeInstances (some [id]) none).outcome t = .ok l) (hi : readyIn id l = none) :
    p.rounds longest c id (n + 1) s =
      p.rounds longest c id n ((c.describeInstances (some [id]) none).after t) := by
  have hlook := look_ok hr
  rw [hi] at hlook
  exact (bind_run hw).trans (bind_run hlook)

end Round

/-- The rounds of a wait, each told from what the cloud reports in it. -/
theorem rounds_watch {longest : Decimal.Number} (hb : p.bound = .ok longest) (c : Provider)
    (id : Text) (left : Nat) {s : Situation} (hs : s.cancellation.limit = limit) :
    ∃ reports, Watch p limit id left reports ((p.rounds longest c id left).outcome s) ∧
      s.Looked c id reports ((p.rounds longest c id left).after s) := by
  -- by induction on the rounds left; a round without a look is the last one
  induction left generalizing s with
  | zero =>
    cases ht : told longest with
    | ok text =>
      rw [outcome, after, rounds_spent ht s]
      exact ⟨[], .spent hb ht, .idle (.refl s)⟩
    | error f =>
      rw [outcome, after, rounds_overlong ht s]
      exact ⟨[], .overlong hb ht, .idle (.refl s)⟩
  | succ n ih =>
    obtain ⟨t, hidle, ⟨stop, hwait⟩ | ⟨hrefused, hwait⟩⟩ := wait_idle p.interval s
    · cases stop with
      | true =>
        rw [outcome, after, rounds_cancelled hwait]
        exact ⟨[], .cancelled, .idle hidle⟩
      | false =>
        have hlooked := (Situation.Looked.idle hidle).trans (.once c id t)
        cases hr : (c.describeInstances (some [id]) none).outcome t with
        | error f =>
          rw [hr] at hlooked
          rw [outcome, after, rounds_failed hwait hr]
          exact ⟨[.error f], .failed f, hlooked⟩
        | ok l =>
          rw [hr] at hlooked
          cases hi : readyIn id l with
          | some i =>
            rw [outcome, after, rounds_ready hwait hr hi]
            exact ⟨[.ok l], .ready hi, hlooked⟩
          | none =>
            have hrun : p.rounds longest c id (n + 1) s = p.rounds longest c id n _ :=
              rounds_unready hwait hr hi
            obtain ⟨reports, hwatch, hmore⟩ := ih (hlooked.limit.trans hs)
            rw [outcome_congr hrun, after_congr hrun]
            exact ⟨.ok l :: reports, .unready hi hwatch, hlooked.trans hmore⟩
    · rw [outcome, after, rounds_refused hwait]
      exact ⟨[], .refused (hs ▸ (Bool.and_eq_true_iff.mp hrefused).2), .idle hidle⟩

/-- What is told of a wait before it starts. -/
def waiting (p : Poller) (id : Text) (longest : Decimal.Number) : Except Fault Text := do
  return "Waiting up to " ++ (← told longest) ++ " seconds for instance " ++ id ++
    " to be running (" ++ (← told (.whole p.attempts)) ++ " attempts every " ++
    (← told p.interval) ++ " seconds)"

/-- Where there is a bound, a wait goes through its rounds once it has been told, or could not
be. -/
theorem waitUntilReady_run {longest : Decimal.Number} (hb : p.bound = .ok longest) (c : Provider)
    (id : Text) (s : Situation) : p.waitUntilReady c id s = (do
      log .info (waiting p id longest)
      rounds p longest c id p.attempts.toNat : Action Instance) s := by
  unfold waitUntilReady
  rw [hb]
  rfl

/-- A wait for an instance asks about it, and changes neither the disk nor the roster. -/
theorem waitUntilReady_watch (p : Poller) (c : Provider) (id : Text) (s : Situation) :
    ∃ reports, Watch p s.cancellation.limit id p.attempts.toNat reports
        ((p.waitUntilReady c id).outcome s) ∧
      s.Looked c id reports ((p.waitUntilReady c id).after s) := by
  cases hb : p.bound with
  | error f =>
    have hrun : p.waitUntilReady c id s = .error f s := by
      unfold waitUntilReady
      rw [hb]
      rfl
    rw [outcome, after, hrun]
    exact ⟨[], .unbounded hb, .idle (.refl s)⟩
  | ok longest =>
    obtain ⟨t, hlog, hidle⟩ := log_idle .info (waiting p id longest) s
    obtain ⟨reports, hwatch, hlooked⟩ := rounds_watch hb c id p.attempts.toNat hidle.limit
    have hall := (waitUntilReady_run hb c id s).trans (bind_run hlog)
    rw [outcome_congr hall, after_congr hall]
    exact ⟨reports, hwatch, (Situation.Looked.idle hidle).trans hlooked⟩

/-- Nothing that is reported of an instance is ready. -/
def Unready (id : Text) (r : Report) : Prop :=
  ∃ l, r = .ok l ∧ readyIn id l = none

/-- No look follows the one that finds the instance ready, and that one is the last. -/
theorem Watch.of_ready (w : Watch p limit id left reports (.ok i)) :
    ∃ earlier l, reports = earlier ++ [.ok l] ∧ readyIn id l = some i ∧
      ∀ r ∈ earlier, Unready id r := by
  generalize hr : Except.ok i = result at w
  induction w with
  | ready h =>
    cases hr
    exact ⟨[], _, rfl, h, by simp⟩
  | unready h w ih =>
    obtain ⟨earlier, l, rfl, hl, he⟩ := ih hr
    refine ⟨_ :: earlier, l, rfl, hl, fun r hm => ?_⟩
    rcases List.mem_cons.mp hm with rfl | hm
    · exact ⟨_, rfl, h⟩
    · exact he r hm
  | failed f => cases hr
  | cancelled => cases hr
  | refused h => cases hr
  | spent => cases hr
  | overlong => cases hr
  | unbounded => cases hr

/-- There are no more looks than rounds. -/
theorem Watch.length_le (w : Watch p limit id left reports result) : reports.length ≤ left := by
  induction w with
  | unready h w ih => exact Nat.succ_le_succ ih
  | _ => simp

theorem isNotReady_of_bound_error (h : p.bound = .error f) : f.trouble.isNotReady = false := by
  unfold bound at h
  split at h <;> cases h
  rfl

theorem isNotReady_of_told_error {x : Decimal.Number} (h : told x = .error f) :
    f.trouble.isNotReady = false := by
  unfold told at h
  split at h <;> cases h
  rfl

/-- A wait takes too long when every look is made and none finds the instance ready, or when the
cloud itself says so. -/
theorem Watch.of_late (w : Watch p limit id left reports (.error f))
    (hf : f.trouble.isNotReady = true) :
    (reports.length = left ∧ ∀ r ∈ reports, Unready id r) ∨ .error f ∈ reports := by
  generalize hr : Except.error f = result at w
  induction w with
  | ready h => cases hr
  | unready h w ih =>
    rcases ih hr with ⟨hlength, hall⟩ | hm
    · refine .inl ⟨congrArg (· + 1) hlength, fun r hm => ?_⟩
      rcases List.mem_cons.mp hm with rfl | hm
      · exact ⟨_, rfl, h⟩
      · exact hall r hm
    · exact .inr (List.mem_cons_of_mem _ hm)
  | failed g =>
    cases hr
    exact .inr List.mem_cons_self
  | cancelled =>
    cases hr
    cases hf
  | refused h =>
    cases hr
    cases hf
  | spent => exact .inl ⟨rfl, by simp⟩
  | overlong _ ht =>
    cases hr
    rw [isNotReady_of_told_error ht] at hf
    cases hf
  | unbounded hb =>
    cases hr
    rw [isNotReady_of_bound_error hb] at hf
    cases hf

end Poller

end AgentFleet
