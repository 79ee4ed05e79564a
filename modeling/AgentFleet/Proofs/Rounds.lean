import AgentFleet.Proofs.Polling
import AgentFleet.Proofs.Showing

namespace AgentFleet
open AgentFleet.Action Cloud Decimal

/-- The wish to stop after one more wait. Each wait reports the wish as it leaves it. -/
def Cancellation.next (c : Cancellation) : Cancellation :=
  { c with
    waits := c.waits + 1
    isSet := c.isSet || c.dueAt.any (· ≤ c.waits + 1) ||
      (c.heard && c.signalAt.any fun due => due.1 = c.waits + 1 && due.2 ∈ stopSignals) }

/-- Where one wait can begin, so can the next one. -/
theorem Cancellation.next_refuses {c : Cancellation} {seconds : Number}
    (h : c.refuses seconds = false) : c.next.refuses seconds = false := by
  unfold refuses at h ⊢
  rcases Bool.and_eq_false_iff.mp h with hs | hlong
  · have hset : c.next.isSet = true := by
      unfold next
      simp only [Bool.not_eq_false'] at hs
      simp [hs]
    rw [hset]
    rfl
  · exact Bool.and_eq_false_iff.mpr (.inr hlong)

theorem Cancellation.refuses_zero (c : Cancellation) : c.refuses (.whole 0) = false := by
  unfold refuses isTooLong
  cases c.limit with
  | none => simp
  | some limit => simp [Number.exceeds]

/-- Whether the wait after `n` others reports a wish to stop. -/
def Cancellation.stops (c : Cancellation) : (n : Nat) → Bool
  | 0 => c.next.isSet
  | n + 1 => c.next.stops n

/-- What the cloud is going to report of an instance at the look after `n` others. -/
def Cloud.Provider.report (c : Provider) (id : Text) : (n : Nat) → Situation → Report
  | 0, s => (c.describeInstances (some [id]) none).outcome s
  | n + 1, s => c.report id n ((c.describeInstances (some [id]) none).after s)

theorem Cloud.Provider.report_congr (c : Provider) (id : Text) (n : Nat) {s t : Situation}
    (h : s.SameAnswers .describeInstances t) : c.report id n s = c.report id n t := by
  obtain ⟨houtcome, hafter⟩ := c.alike_describeInstances (some [id]) none s t h
  induction n generalizing s t with
  | zero => exact houtcome
  | succ n ih =>
    obtain ⟨houtcome', hafter'⟩ := c.alike_describeInstances (some [id]) none _ _ hafter
    exact ih hafter houtcome' hafter'

/-- The steps of a wait for an instance. -/
inductive PollStep
  | waited (seconds : Number)
  | asked (call : CloudCall)
  deriving DecidableEq, Repr

def Event.pollStep? : Event → Option PollStep
  | .waited seconds => some (.waited seconds)
  | .asked r .. => some (.asked r.call)
  | .sent r .. => r.call?.map .asked
  | _ => none

def PollStep.wait? : PollStep → Option Number
  | .waited seconds => some seconds
  | .asked _ => none

open Situation

namespace Action

theorem signal_turns (number : Int) (s : Situation) :
    ∃ t, signal number s = .ok () t ∧ s.Shows Event.pollStep? [] t ∧ t.cancellation =
      { s.cancellation with
        isSet := s.cancellation.isSet || (s.cancellation.heard && number ∈ stopSignals) } := by
  unfold signal
  rw [get_bind_run]
  by_cases h : s.cancellation.heard ∧ number ∈ stopSignals
  · rw [if_pos h]
    obtain ⟨u, hu, htold⟩ :=
      warn_told ("Received signal " ++ Text.ofInt number ++ ". Cancelling...") s
    rw [bind_run hu]
    refine ⟨_, rfl, (htold.unseen fun _ _ => rfl).congr rfl rfl, ?_⟩
    obtain ⟨_, rfl, _⟩ := htold
    simp [h.1, h.2]
  · rw [if_neg h]
    refine ⟨s, rfl, .refl s, ?_⟩
    have hno : (s.cancellation.heard && decide (number ∈ stopSignals)) = false := by simpa using h
    rw [hno, Bool.or_false]

theorem signalDue_turns (c : Cancellation) (s : Situation) :
    ∃ t, signalDue c s = .ok () t ∧ s.Shows Event.pollStep? [] t ∧ t.cancellation =
      { s.cancellation with
        isSet := s.cancellation.isSet || (s.cancellation.heard &&
          c.signalAt.any fun due => due.1 = c.waits && due.2 ∈ stopSignals) } := by
  unfold signalDue
  cases c.signalAt with
  | none =>
    refine ⟨s, rfl, .refl s, ?_⟩
    simp
  | some due =>
    obtain ⟨n, number⟩ := due
    dsimp only
    split
    · rename_i hn
      obtain ⟨t, ht, hshows, hturned⟩ := signal_turns number s
      refine ⟨t, ht, hshows, ?_⟩
      rw [hturned]
      simp [hn]
    · rename_i hn
      refine ⟨s, rfl, .refl s, ?_⟩
      simp [hn]

theorem pass_turns (s : Situation) :
    ∃ t, pass s = .ok s.cancellation.next.isSet t ∧ s.Shows Event.pollStep? [] t ∧
      t.cancellation = s.cancellation.next := by
  have hlast : ∀ u : Situation, u.history = s.history → u.cancellation =
        { s.cancellation with
          waits := s.cancellation.waits + 1
          isSet := s.cancellation.isSet ||
            s.cancellation.dueAt.any (· ≤ s.cancellation.waits + 1) } →
      ∃ v, (do
          signalDue { s.cancellation with waits := s.cancellation.waits + 1 }
          return (← get).cancellation.isSet : Action Bool) u = .ok s.cancellation.next.isSet v ∧
        s.Shows Event.pollStep? [] v ∧ v.cancellation = s.cancellation.next := by
    intro u hhistory hcancellation
    obtain ⟨v, hv, hshows, hturned⟩ :=
      signalDue_turns { s.cancellation with waits := s.cancellation.waits + 1 } u
    have hnext : v.cancellation = s.cancellation.next := by
      rw [hturned, hcancellation]
      rfl
    refine ⟨v, ?_, (Shows.of_history hhistory).trans hshows, hnext⟩
    rw [bind_run hv, ← hnext]
    rfl
  unfold pass
  rw [modify_bind_run, get_bind_run]
  split
  · rename_i hdue
    have hset : s.cancellation.dueAt.any (· ≤ s.cancellation.waits + 1) = true := hdue
    rw [modify_bind_run]
    refine hlast _ rfl ?_
    rw [hset, Bool.or_true]
  · rename_i hdue
    have hunset : s.cancellation.dueAt.any (· ≤ s.cancellation.waits + 1) = false :=
      Bool.not_eq_true _ ▸ hdue
    refine hlast _ rfl ?_
    rw [hunset, Bool.or_false]

/-- A wait that can begin reports whether there is a wish to stop, which may have come with it. -/
theorem wait_turns {seconds : Number} {s : Situation}
    (hr : s.cancellation.refuses seconds = false) :
    ∃ t, wait seconds s = .ok s.cancellation.next.isSet t ∧ s.Idle t ∧
      s.Shows Event.pollStep? [.waited seconds] t ∧ t.cancellation = s.cancellation.next := by
  obtain ⟨t, hrun, hshows, hnext⟩ := pass_turns (s.record (.waited seconds))
  obtain ⟨_, u, hrun', hidle⟩ := pass_idle (s.record (.waited seconds))
  obtain ⟨rfl, rfl⟩ := EStateM.Result.ok.inj (hrun'.symm.trans hrun)
  have hseen : s.Shows Event.pollStep? [.waited seconds] (s.record (.waited seconds)) :=
    .of_event rfl rfl
  refine ⟨u, ?_, (Idle.record s rfl).trans hidle, hseen.onward hshows, hnext⟩
  rw [wait_run, hr]
  exact hrun

/-- What is told, or cannot be made, is no step of a wait for an instance. -/
theorem log_turns (severity : Severity) (text : Except Fault Text) (s : Situation) :
    ∃ t, log severity text s = .ok () t ∧ s.Idle t ∧ s.Shows Event.pollStep? [] t ∧
      t.cancellation = s.cancellation := by
  obtain ⟨t, hrun, htold | ⟨_, rfl⟩⟩ := log_made severity text s
  · refine ⟨t, hrun, htold.idle, htold.unseen fun _ _ => rfl, ?_⟩
    obtain ⟨_, rfl, _⟩ := htold
    rfl
  · exact ⟨_, hrun, .record s rfl, .of_event rfl rfl, rfl⟩

end Action

theorem describe_looks (c : Provider) (id : Text) (s : Situation) :
    s.Shows Event.pollStep? [.asked (.describe [id] [])]
      ((c.describeInstances (some [id]) none).after s) ∧
    ((c.describeInstances (some [id]) none).after s).cancellation = s.cancellation := by
  have hconsulted := @Provider.consulted_describeInstances s c (some [id]) none (by simp)
  refine ⟨hconsulted.shows (fun call => some (PollStep.asked call)) fun e he => ?_, ?_⟩
  · cases e with
    | asked r => rfl
    | sent r => exact Option.map_eq_bind
    | _ => cases he
  · rw [hconsulted.same]

namespace Poller

variable {p : Poller} {id : Text} {longest : Number} {stops : Nat → Bool} {report : Nat → Report}
  {left : Nat} {result : Except Fault Instance} {steps : List PollStep}

/-- The steps of so many rounds, each a wait and a look. -/
def fullRounds (p : Poller) (id : Text) (n : Nat) : List PollStep :=
  (List.replicate n [.waited p.interval, .asked (.describe [id] [])]).flatten

/-- The round after `n` others decides nothing: nobody wishes to stop, and the instance is not
reported as ready. -/
def Passes (id : Text) (stops : Nat → Bool) (report : Nat → Report) (n : Nat) : Prop :=
  stops n = false ∧ ∃ l, report n = .ok l ∧ readyIn id l = none

/-- What may come of rounds, and the steps they take, told from what each wait and each look is
going to report. The first round that does not pass decides; when all pass, it took too long, and
that is told with the longest time. -/
inductive Rounds (p : Poller) (id : Text) (longest : Number) (stops : Nat → Bool)
    (report : Nat → Report) (left : Nat) : Except Fault Instance → List PollStep → Prop
  | cancelled {n : Nat} (hn : n < left) (before : ∀ m < n, Passes id stops report m)
      (hs : stops n = true) :
      Rounds p id longest stops report left (.error (.of (.cancelled id)))
        (p.fullRounds id n ++ [.waited p.interval])
  | failed {n : Nat} {f : Fault} (hn : n < left) (before : ∀ m < n, Passes id stops report m)
      (hs : stops n = false) (hr : report n = .error f) :
      Rounds p id longest stops report left (.error f) (p.fullRounds id (n + 1))
  | ready {n : Nat} {l : List Instance} {i : Instance} (hn : n < left)
      (before : ∀ m < n, Passes id stops report m) (hs : stops n = false) (hr : report n = .ok l)
      (hi : readyIn id l = some i) :
      Rounds p id longest stops report left (.ok i) (p.fullRounds id (n + 1))
  | spent {text : Text} (before : ∀ m < left, Passes id stops report m)
      (ht : told longest = .ok text) :
      Rounds p id longest stops report left
        (.error (.of (.notReady id (.whole p.attempts) longest))) (p.fullRounds id left)
  /-- The longest time has too many digits to be told. -/
  | overlong {f : Fault} (before : ∀ m < left, Passes id stops report m)
      (ht : told longest = .error f) :
      Rounds p id longest stops report left (.error f) (p.fullRounds id left)

theorem fullRounds_succ (p : Poller) (id : Text) (n : Nat) : p.fullRounds id (n + 1) =
    .waited p.interval :: .asked (.describe [id] []) :: p.fullRounds id n := rfl

theorem waits_fullRounds (p : Poller) (id : Text) (n : Nat) :
    (p.fullRounds id n).filterMap PollStep.wait? = List.replicate n p.interval := by
  induction n with
  | zero => rfl
  | succ n ih =>
    rw [fullRounds_succ, List.replicate_succ, ← ih]
    rfl

/-- A round that passes comes before the others. -/
theorem Rounds.later (hpass : Passes id stops report 0)
    (h : Rounds p id longest (fun n => stops (n + 1)) (fun n => report (n + 1)) left result steps) :
    Rounds p id longest stops report (left + 1) result
      (.waited p.interval :: .asked (.describe [id] []) :: steps) := by
  have hbefore : ∀ n, (∀ m < n, Passes id (fun n => stops (n + 1)) (fun n => report (n + 1)) m) →
      ∀ m < n + 1, Passes id stops report m := by
    intro n hall m hm
    cases m with
    | zero => exact hpass
    | succ m => exact hall m (Nat.lt_of_succ_lt_succ hm)
  cases h with
  | cancelled hn before hs => exact .cancelled (Nat.succ_lt_succ hn) (hbefore _ before) hs
  | failed hn before hs hr => exact .failed (Nat.succ_lt_succ hn) (hbefore _ before) hs hr
  | ready hn before hs hr hi => exact .ready (Nat.succ_lt_succ hn) (hbefore _ before) hs hr hi
  | spent before ht => exact .spent (hbefore _ before) ht
  | overlong before ht => exact .overlong (hbefore _ before) ht

/-- No more is waited than there are rounds, each time as long as is meant. -/
theorem Rounds.waits (h : Rounds p id longest stops report left result steps) :
    ∃ k ≤ left, steps.filterMap PollStep.wait? = List.replicate k p.interval := by
  cases h with
  | @cancelled n hn before hs =>
    refine ⟨n + 1, hn, ?_⟩
    rw [List.filterMap_append, waits_fullRounds, List.replicate_succ']
    rfl
  | failed hn | ready hn => exact ⟨_, hn, waits_fullRounds p id _⟩
  | spent | overlong => exact ⟨left, Nat.le_refl left, waits_fullRounds p id left⟩

theorem Rounds.of_ready {i : Instance}
    (h : Rounds p id longest stops report left (.ok i) steps) : i.id = id ∧ i.isReady = true := by
  cases h with
  | ready hn before hs hr hi => exact (of_readyIn hi).2

/-- Where the waits can begin, rounds go as the waits and the looks tell. -/
theorem rounds_run (longest : Number) (c : Provider) (id : Text) (left : Nat) {s : Situation}
    (hw : s.cancellation.refuses p.interval = false) :
    ∃ steps, Rounds p id longest s.cancellation.stops (c.report id · s) left
        ((p.rounds longest c id left).outcome s) steps ∧
      s.Shows Event.pollStep? steps ((p.rounds longest c id left).after s) := by
  have hfirst : ∀ {stops report}, ∀ m < 0, Passes id stops report m := fun m hm =>
    absurd hm (Nat.not_lt_zero m)
  -- by induction on the rounds left: the first one decides, or it passes and the others are left
  induction left generalizing s with
  | zero =>
    cases ht : told longest with
    | ok text =>
      rw [outcome, after, rounds_spent ht s]
      exact ⟨[], .spent hfirst ht, .refl s⟩
    | error f =>
      rw [outcome, after, rounds_overlong ht s]
      exact ⟨[], .overlong hfirst ht, .refl s⟩
  | succ n ih =>
    obtain ⟨t, hwait, hidle, hwaited, hnext⟩ := wait_turns hw
    have hreport : (c.describeInstances (some [id]) none).outcome t = c.report id 0 s :=
      (c.alike_describeInstances (some [id]) none s t (hidle.sameAnswers _)).1.symm
    obtain ⟨hlooked, hturned⟩ := describe_looks c id t
    have hseen := hwaited.trans hlooked
    cases hs : s.cancellation.next.isSet with
    | true =>
      rw [hs] at hwait
      rw [outcome, after, rounds_cancelled hwait]
      exact ⟨_, .cancelled (Nat.succ_pos n) hfirst hs, hwaited⟩
    | false =>
      rw [hs] at hwait
      cases hr : c.report id 0 s with
      | error f =>
        rw [outcome, after, rounds_failed hwait (hreport.trans hr)]
        exact ⟨_, .failed (Nat.succ_pos n) hfirst hs hr, hseen⟩
      | ok l =>
        cases hi : readyIn id l with
        | some i =>
          rw [outcome, after, rounds_ready hwait (hreport.trans hr) hi]
          exact ⟨_, .ready (Nat.succ_pos n) hfirst hs hr hi, hseen⟩
        | none =>
          have hrun : p.rounds longest c id (n + 1) s = p.rounds longest c id n _ :=
            rounds_unready hwait (hreport.trans hr) hi
          have hbegins : ((c.describeInstances (some [id]) none).after t).cancellation.refuses
              p.interval = false := by
            rw [hturned, hnext]
            exact Cancellation.next_refuses hw
          obtain ⟨steps, hrounds, hmore⟩ := ih hbegins
          have hstops : ((c.describeInstances (some [id]) none).after t).cancellation.stops =
              fun m => s.cancellation.stops (m + 1) := by
            rw [hturned, hnext]
            rfl
          have hreports : (c.report id · ((c.describeInstances (some [id]) none).after t)) =
              fun m => c.report id (m + 1) s := by
            funext m
            exact (c.report_congr id (m + 1) (hidle.sameAnswers _)).symm
          rw [hstops, hreports] at hrounds
          rw [outcome_congr hrun, after_congr hrun]
          exact ⟨_, hrounds.later ⟨hs, l, hr, hi⟩, hseen.trans hmore⟩

/-- What may come of a wait for an instance, and its steps. Where the first wait is too long, it
fails at once; else the rounds follow. -/
inductive Ending (p : Poller) (c : Provider) (id : Text) (longest : Number) (s : Situation) :
    Except Fault Instance → List PollStep → Prop
  | refused (hw : s.cancellation.refuses p.interval = true) :
      Ending p c id longest s (.error (.of .waitTooLong)) [.waited p.interval]
  | ended {result : Except Fault Instance} {steps : List PollStep}
      (hw : s.cancellation.refuses p.interval = false)
      (hr : Rounds p id longest s.cancellation.stops (c.report id · s) p.attempts.toNat result
        steps) : Ending p c id longest s result steps

theorem Ending.waits {c : Provider} {s : Situation} (h1 : 1 ≤ p.attempts)
    (h : Ending p c id longest s result steps) :
    ∃ k ≤ p.attempts.toNat,
      steps.filterMap PollStep.wait? = List.replicate k p.interval := by
  cases h with
  | refused hw => exact ⟨1, by omega, rfl⟩
  | ended hw hr => exact hr.waits

theorem Ending.of_ready {c : Provider} {s : Situation} {i : Instance}
    (h : Ending p c id longest s (.ok i) steps) : i.id = id ∧ i.isReady = true := by
  cases h with
  | ended hw hr => exact hr.of_ready

/-- With a round at least, the first wait decides whether there are rounds. -/
theorem rounds_ending (h1 : 1 ≤ p.attempts) (longest : Number) (c : Provider) (id : Text)
    (s : Situation) :
    ∃ steps, Ending p c id longest s ((p.rounds longest c id p.attempts.toNat).outcome s) steps ∧
      s.Shows Event.pollStep? steps ((p.rounds longest c id p.attempts.toNat).after s) := by
  cases hw : s.cancellation.refuses p.interval with
  | true =>
    obtain ⟨n, hn⟩ : ∃ n, p.attempts.toNat = n + 1 := ⟨p.attempts.toNat - 1, by omega⟩
    have hwait : wait p.interval s = .error (.of .waitTooLong) (s.record (.waited p.interval)) := by
      rw [wait_run, hw]
      rfl
    rw [hn, outcome, after, rounds_refused hwait]
    exact ⟨_, .refused hw, .of_event rfl rfl⟩
  | false =>
    obtain ⟨steps, hrounds, hshows⟩ := rounds_run longest c id p.attempts.toNat hw
    exact ⟨steps, .ended hw hrounds, hshows⟩

theorem waitUntilReady_ending (hb : p.bound = .ok longest) (h1 : 1 ≤ p.attempts) (c : Provider)
    (id : Text) (s : Situation) :
    ∃ steps, Ending p c id longest s ((p.waitUntilReady c id).outcome s) steps ∧
      s.Shows Event.pollStep? steps ((p.waitUntilReady c id).after s) := by
  obtain ⟨t, hlog, hidle, htold, hturned⟩ := log_turns .info (waiting p id longest) s
  obtain ⟨steps, hending, hshows⟩ := rounds_ending h1 longest c id t
  have hreports : (c.report id · t) = (c.report id · s) := by
    funext m
    exact (c.report_congr id m (hidle.sameAnswers _)).symm
  have hall := (waitUntilReady_run hb c id s).trans (bind_run hlog)
  rw [outcome_congr hall, after_congr hall]
  refine ⟨steps, ?_, htold.trans hshows⟩
  generalize (p.rounds longest c id p.attempts.toNat).outcome t = result at hending ⊢
  -- what was told first changes nothing that the rounds depend on
  cases hending with
  | refused hw => exact .refused (hturned ▸ hw)
  | ended hw hrounds =>
    rw [hturned, hreports] at hrounds
    exact .ended (hturned ▸ hw) hrounds

/-- Where no wait can begin, nothing comes of a wait for an instance. -/
theorem waitUntilReady_refused {s : Situation} (hb : p.bound = .ok longest) (h1 : 1 ≤ p.attempts)
    (hw : s.cancellation.refuses p.interval = true) (c : Provider) (id : Text) :
    (p.waitUntilReady c id).outcome s = .error (.of .waitTooLong) := by
  obtain ⟨steps, hending, _⟩ := waitUntilReady_ending hb h1 c id s
  generalize (p.waitUntilReady c id).outcome s = result at hending ⊢
  cases hending with
  | refused _ => rfl
  | ended hbegins _ =>
    rw [hw] at hbegins
    cases hbegins

/-- A wait for an instance at whole intervals takes a wait and a look by turns, as `Rounds` tells;
unless the first wait is too long, which is where it ends. It waits at most as often as it may, and
not longer than the bound altogether; and what it gives is the instance, ready. -/
theorem waitUntilReady_rounds {n : Int} (hi : p.interval = .whole n) (h0 : 0 ≤ n)
    (h1 : 1 ≤ p.attempts) (c : Provider) (id : Text) (s : Situation) :
    p.bound = .ok (.whole (n * p.attempts)) ∧
    ∃ steps, Ending p c id (.whole (n * p.attempts)) s ((p.waitUntilReady c id).outcome s) steps ∧
      s.Shows Event.pollStep? steps ((p.waitUntilReady c id).after s) ∧
      (∃ k : Nat, k ≤ p.attempts ∧ steps.filterMap PollStep.wait? = List.replicate k (.whole n) ∧
        k * n ≤ n * p.attempts) ∧
      ∀ i, (p.waitUntilReady c id).outcome s = .ok i → i.id = id ∧ i.isReady = true := by
  have hb : p.bound = .ok (.whole (n * p.attempts)) := by
    unfold bound
    rw [hi]
    rfl
  obtain ⟨steps, hending, hshows⟩ := waitUntilReady_ending hb h1 c id s
  refine ⟨hb, steps, hending, hshows, ?_, fun i hok => ?_⟩
  · obtain ⟨k, hk, hwaits⟩ := hending.waits h1
    have hle : (k : Int) ≤ p.attempts := by omega
    refine ⟨k, hle, hi ▸ hwaits, ?_⟩
    rw [Int.mul_comm n]
    exact Int.mul_le_mul_of_nonneg_right hle h0
  · rw [hok] at hending
    exact hending.of_ready

/-- No wait is as long as ten thousand million seconds. -/
example : (waitUntilReady ⟨.whole 10000000000, 2⟩ .service "i").outcome
    (.bare ⟨.root, [], []⟩ ⟨"", []⟩) = .error (.of .waitTooLong) := by decide

/-- Two rounds, a second each. -/
def twice : Poller :=
  ⟨.whole 1, 2⟩

/-- The instance is pending at first; then it is ready, as is another one. -/
def readyAtLast : Situation :=
  { Situation.bare ⟨.root, [], []⟩ ⟨"", []⟩ with
    service := fun
      | .describeInstances => [.ok [⟨"i", some State.pending, none, none⟩],
          .ok [⟨"j", some State.running, some "a", none⟩,
            ⟨"i", some State.running, some "b", none⟩]]
      | _ => [] }

theorem waitUntilReady_rounds_readyAtLast :
    (twice.waitUntilReady .service "i").outcome readyAtLast =
      .ok ⟨"i", some State.running, some "b", none⟩ ∧
    ∃ steps, Ending twice .service "i" (.whole 2) readyAtLast
        (.ok ⟨"i", some State.running, some "b", none⟩) steps ∧
      readyAtLast.Shows Event.pollStep? steps
        ((twice.waitUntilReady .service "i").after readyAtLast) := by
  have hok : (twice.waitUntilReady .service "i").outcome readyAtLast =
      .ok ⟨"i", some State.running, some "b", none⟩ := by
    decide
  obtain ⟨_, steps, hending, hshows, _⟩ :=
    waitUntilReady_rounds (p := twice) (n := 1) rfl (by decide) (by decide) .service "i" readyAtLast
  rw [hok] at hending
  exact ⟨hok, steps, hending, hshows⟩

end Poller

end AgentFleet
