import AgentFleet.Broadcast
import AgentFleet.Proofs.Outcome

namespace AgentFleet

variable {σ κ : Type} {k : Contact σ κ} {workers : Nat} {agents : List Agent} {world : σ}

/-- How an errand to an agent takes a step. Besides its stage, a step may change the world and
whether a failure is known. -/
inductive Stage.Step (k : Contact σ κ) (a : Agent) :
    Bool → σ → Stage κ → Act → Bool → σ → Stage κ → Prop
  | start {failed w} : Step k a failed w .queued .start failed w .started
  | clear {w} : Step k a false w .started (.look false) false w .cleared
  | skip {w} : Step k a true w .started (.look true) true w (.ended (.ok false))
  | connect {failed w w' link} (h : k.connect a w = .ok link w') :
    Step k a failed w .cleared (.connect none) failed w' (.linked link)
  | connectFailed {failed w w' f} (h : k.connect a w = .error f w') :
    Step k a failed w .cleared (.connect (some f)) failed w' (.failing f)
  | use {failed w w' link} (h : k.use link w = .ok () w') :
    Step k a failed w (.linked link) (.use none) failed w' (.used link none)
  | useFailed {failed w w' link f} (h : k.use link w = .error f w') :
    Step k a failed w (.linked link) (.use (some f)) failed w' (.used link (some f))
  | finish {failed w w' link} (h : k.close link w = .ok () w') :
    Step k a failed w (.used link none) (.close none) failed w' (.ended (.ok true))
  | close {failed w w' link f} (h : k.close link w = .ok () w') :
    Step k a failed w (.used link (some f)) (.close none) failed w' (.failing f)
  | closeFailed {failed w w' link failure f} (h : k.close link w = .error f w') :
    Step k a failed w (.used link failure) (.close (some f)) failed w' (.failing f)
  | report {failed w f} : Step k a failed w (.failing f) (.report f) true w (.ended (.error f))

namespace Pool

variable {p q r : Pool σ κ} {place : Nat} {act : Act} {deeds : List (Nat × Act)}

/-- A step is one of a single errand. It waits for its turn to start, and for nothing else. -/
theorem move?_iff :
    p.move? k workers place = some (act, q) ↔
      ∃ e stage, p.errands[place]? = some e ∧
        e.stage.Step k e.agent p.failed p.world act q.failed q.world stage ∧
        q.errands = p.errands.set place ⟨e.agent, stage⟩ ∧
        (e.stage.isQueued → p.mayStart workers place) := by
  constructor
  · intro h
    unfold move? at h
    split at h
    · cases h
    · cases h
    · rename_i a he
      split at h
      · rename_i hs
        cases h
        exact ⟨_, _, he, .start, rfl, fun _ => hs⟩
      · cases h
    · rename_i a he
      cases h
      refine ⟨_, _, he, ?_, rfl, by simp [Stage.isQueued]⟩
      simp only [put]
      cases p.failed with
      | true => exact .skip
      | false => exact .clear
    · rename_i a he
      split at h
      · rename_i hc
        cases h
        exact ⟨_, _, he, .connect hc, rfl, by simp [Stage.isQueued]⟩
      · rename_i hc
        cases h
        exact ⟨_, _, he, .connectFailed hc, rfl, by simp [Stage.isQueued]⟩
    · rename_i a link he
      split at h
      · rename_i hu
        cases h
        exact ⟨_, _, he, .use hu, rfl, by simp [Stage.isQueued]⟩
      · rename_i hu
        cases h
        exact ⟨_, _, he, .useFailed hu, rfl, by simp [Stage.isQueued]⟩
    · rename_i a link failure he
      split at h
      · rename_i hc
        cases h
        exact ⟨_, _, he, .finish hc, rfl, by simp [Stage.isQueued]⟩
      · rename_i hc
        cases h
        exact ⟨_, _, he, .close hc, rfl, by simp [Stage.isQueued]⟩
      · rename_i hc
        cases h
        exact ⟨_, _, he, .closeFailed hc, rfl, by simp [Stage.isQueued]⟩
    · rename_i a f he
      cases h
      exact ⟨_, _, he, .report, rfl, by simp [Stage.isQueued]⟩
  · rintro ⟨⟨a, before⟩, stage, he, hs, hq, hm⟩
    obtain ⟨errands, failed, world⟩ := p
    obtain ⟨errands', failed', world'⟩ := q
    simp only at he hs hq
    subst hq
    unfold move?
    rw [he]
    cases hs with
    | start => simp [hm rfl, put]
    | clear | skip | report => simp [put]
    | connect h | connectFailed h | use h | useFailed h | finish h | close h | closeFailed h =>
      simp [h, put]

/-- A pool gets from one state to another by what its errands do, each named by its place. -/
inductive Run (k : Contact σ κ) (workers : Nat) (p : Pool σ κ) :
    List (Nat × Act) → Pool σ κ → Prop
  | refl : Run k workers p [] p
  | step {deeds : List (Nat × Act)} {q r : Pool σ κ} {act : Act} (run : Run k workers p deeds q)
      (place : Nat) (h : q.move? k workers place = some (act, r)) :
      Run k workers p (deeds ++ [(place, act)]) r

/-- What the errand at a place has done. -/
def acts (deeds : List (Nat × Act)) (place : Nat) : List Act :=
  (deeds.filter (·.1 = place)).map (·.2)

@[simp] theorem acts_nil : acts [] place = [] := rfl

@[simp] theorem acts_self : acts (deeds ++ [(place, act)]) place = acts deeds place ++ [act] := by
  simp [acts]

theorem acts_other {other : Nat} (h : place ≠ other) :
    acts (deeds ++ [(place, act)]) other = acts deeds other := by
  simp [acts, h]

theorem mem_acts_step {other : Act} {i : Nat} :
    other ∈ acts (deeds ++ [(place, act)]) i ↔ other ∈ acts deeds i ∨ i = place ∧ other = act := by
  simp [acts]

end Pool

namespace Act

/-- It opens a link, or tries to. -/
def isOpening : Act → Bool
  | connect _ => true
  | _ => false

def isOpened : Act → Bool
  | connect none => true
  | _ => false

def isClosing : Act → Bool
  | close _ => true
  | _ => false

def failure? : Act → Option Fault
  | connect failure | use failure | close failure => failure
  | _ => none

/-- The failure that comes of what an errand has done: a later one displaces an earlier one. -/
def raised (acts : List Act) : Option Fault :=
  (acts.filterMap failure?).getLast?

end Act

/-- A link is open for it. -/
def Stage.holds : Stage κ → Bool
  | linked _ | used .. => true
  | _ => false

/-- What an errand has done when it has come to a stage. -/
inductive Stage.Past : List Act → Stage κ → Prop
  | queued : Past [] .queued
  | started : Past [.start] .started
  | cleared : Past [.start, .look false] .cleared
  | linked {link} : Past [.start, .look false, .connect none] (.linked link)
  | used {link failure} :
    Past [.start, .look false, .connect none, .use failure] (.used link failure)
  | unlinked {f} : Past [.start, .look false, .connect (some f)] (.failing f)
  | unheard {f} : Past [.start, .look false, .connect none, .use (some f), .close none] (.failing f)
  | unclosed {failure f} :
    Past [.start, .look false, .connect none, .use failure, .close (some f)] (.failing f)
  | done : Past [.start, .look false, .connect none, .use none, .close none] (.ended (.ok true))
  | skipped : Past [.start, .look true] (.ended (.ok false))
  | failed {past f} (h : Past past (.failing f)) : Past (past ++ [.report f]) (.ended (.error f))

namespace Stage.Past

open Stage

variable {past : List Act} {stage stage' : Stage κ} {act : Act} {a : Agent} {f : Fault}
  {failed failed' : Bool} {w w' : σ}

theorem step (h : Past past stage) (hs : stage.Step k a failed w act failed' w' stage') :
    Past (past ++ [act]) stage' := by
  cases hs with
  | start => cases h; exact .started
  | clear => cases h; exact .cleared
  | skip => cases h; exact .skipped
  | connect => cases h; exact .linked
  | connectFailed => cases h; exact .unlinked
  | use => cases h; exact .used
  | useFailed => cases h; exact .used
  | finish => cases h; exact .done
  | close => cases h; exact .unheard
  | closeFailed => cases h; exact .unclosed
  | report => exact .failed h

theorem opens_once (h : Past past stage) : past.countP Act.isOpening ≤ 1 := by
  cases h with
  | failed h => cases h <;> simp [List.countP_cons, Act.isOpening]
  | _ => simp [List.countP_cons, Act.isOpening]

theorem skipped_iff (h : Past past stage) : .look true ∈ past ↔ stage = .ended (.ok false) := by
  cases h with
  | failed h => cases h <;> simp
  | _ => simp

/-- An errand that has seen a failure opens nothing. -/
theorem opens_nothing (h : Past past stage) (hl : .look true ∈ past) :
    past.countP Act.isOpening = 0 := by
  have hs := h.skipped_iff.mp hl
  subst hs
  cases h
  rfl

/-- It closes what it has opened, once, and holds it until then. -/
theorem closes_once (h : Past past stage) :
    past.countP Act.isOpened = past.countP Act.isClosing + if stage.holds then 1 else 0 := by
  cases h with
  | failed h => cases h <;> simp [List.countP_cons, Act.isOpened, Act.isClosing, holds]
  | _ => simp [List.countP_cons, Act.isOpened, Act.isClosing, holds]

theorem reported_iff (h : Past past stage) :
    .report f ∈ past ↔ stage = .ended (.error f) := by
  cases h with
  | failed h => cases h <;> simp [eq_comm]
  | _ => simp

/-- What it makes known is what it has raised. -/
theorem raised_iff (h : Past past stage) (ho : stage.isOver) :
    Act.raised past = some f ↔ stage = .ended (.error f) := by
  cases h with
  | failed h =>
    cases h with
    | unlinked | unheard => simp [Act.raised, Act.failure?, List.filterMap]
    | @unclosed failure g => cases failure <;> simp [Act.raised, Act.failure?, List.filterMap]
  | done | skipped => simp [Act.raised, Act.failure?, List.filterMap]
  | _ => cases ho

theorem used_once (h : Past past (.ended (.ok true) : Stage κ)) : past.count (.use none) = 1 := by
  cases h
  rfl

end Stage.Past

theorem Stage.not_queued_of_over {stage : Stage κ} (h : stage.isOver = true) :
    stage.isQueued = false := by
  cases stage with
  | ended => rfl
  | _ => cases h

theorem Stage.not_holds_of_over {stage : Stage κ} (h : stage.isOver = true) :
    stage.holds = false := by
  cases stage with
  | ended => rfl
  | _ => cases h

theorem Stage.underWay_of_holds {stage : Stage κ} (h : stage.holds = true) :
    stage.isUnderWay = true := by
  cases stage with
  | linked | used => rfl
  | _ => cases h

theorem Stage.goes_on (stage : Stage κ) (k : Contact σ κ) (a : Agent) (failed : Bool) (w : σ)
    (h : stage.isOver = false) :
    ∃ act failed' w' stage', stage.Step k a failed w act failed' w' stage' := by
  cases stage with
  | queued => exact ⟨_, _, _, _, .start⟩
  | started =>
    cases failed with
    | false => exact ⟨_, _, _, _, .clear⟩
    | true => exact ⟨_, _, _, _, .skip⟩
  | cleared =>
    cases hc : k.connect a w with
    | ok link w' => exact ⟨_, _, _, _, .connect hc⟩
    | error f w' => exact ⟨_, _, _, _, .connectFailed hc⟩
  | linked link =>
    cases hu : k.use link w with
    | ok _ w' => exact ⟨_, _, _, _, .use hu⟩
    | error f w' => exact ⟨_, _, _, _, .useFailed hu⟩
  | used link failure =>
    cases hc : k.close link w with
    | ok _ w' =>
      cases failure with
      | none => exact ⟨_, _, _, _, .finish hc⟩
      | some f => exact ⟨_, _, _, _, .close hc⟩
    | error f w' => exact ⟨_, _, _, _, .closeFailed hc⟩
  | failing f => exact ⟨_, _, _, _, .report⟩
  | ended => cases h

namespace Stage.Step

variable {stage stage' : Stage κ} {act : Act} {a : Agent} {failed failed' : Bool} {w w' : σ}

theorem left_lt (h : stage.Step k a failed w act failed' w' stage') : stage'.left < stage.left := by
  cases h <;> simp [left]

theorem not_over (h : stage.Step k a failed w act failed' w' stage') : stage.isOver = false := by
  cases h <;> rfl

theorem not_queued (h : stage.Step k a failed w act failed' w' stage') :
    stage'.isQueued = false := by
  cases h <;> rfl

theorem holds (h : stage.Step k a failed w act failed' w' stage') :
    (if act.isOpened then 1 else 0) + (if stage.holds then 1 else 0) =
      (if act.isClosing then 1 else 0) + (if stage'.holds then 1 else 0) := by
  cases h <;> simp [Act.isOpened, Act.isClosing, Stage.holds]

/-- Only what starts takes up a worker. -/
theorem isUnderWay (h : stage.Step k a failed w act failed' w' stage')
    (hq : stage.isQueued = false) : stage.isUnderWay = true := by
  cases h <;> first | rfl | cases hq

theorem failed_iff (h : stage.Step k a failed w act failed' w' stage') :
    failed' = true ↔ failed = true ∨ ∃ f, act = .report f := by
  cases h <;> simp

theorem look (h : stage.Step k a failed w act failed' w' stage') (hl : act = .look true) :
    failed = true := by
  cases h <;> first | rfl | cases hl

end Stage.Step

theorem countP_set_add {l : List α} {i : Nat} {e : α} (e' : α) (f : α → Bool) (h : l[i]? = some e) :
    (l.set i e').countP f + (if f e then 1 else 0) = l.countP f + if f e' then 1 else 0 := by
  obtain ⟨hi, rfl⟩ := List.getElem?_eq_some_iff.mp h
  have hle : (if f l[i] then 1 else 0) ≤ l.countP f := by
    split
    · rename_i hf
      exact List.countP_pos_iff.mpr ⟨_, List.getElem_mem hi, hf⟩
    · exact Nat.zero_le _
  rw [List.countP_set hi]
  omega

theorem foldr_set_add {l : List α} {i : Nat} {e : α} (e' : α) (f : α → Nat) (h : l[i]? = some e) :
    (l.set i e').foldr (f · + ·) 0 + f e = l.foldr (f · + ·) 0 + f e' := by
  induction l generalizing i with
  | nil => cases h
  | cons x rest ih =>
    cases i with
    | zero =>
      cases h
      simp only [List.set_cons_zero, List.foldr_cons]
      omega
    | succ i =>
      have := ih h
      simp only [List.set_cons_succ, List.foldr_cons]
      omega

namespace Pool

variable {p q : Pool σ κ} {place : Nat} {act : Act} {deeds : List (Nat × Act)}

theorem mayStart_iff :
    p.mayStart workers place ↔
      (∀ (i : Nat) (e : Errand κ), i < place → p.errands[i]? = some e → e.stage.isQueued = false) ∧
        p.errands.countP (·.stage.isUnderWay) < workers := by
  unfold mayStart
  rw [Bool.and_eq_true, decide_eq_true_iff, List.all_eq_true]
  refine and_congr_left fun _ => ⟨fun h i e hi he => ?_, fun h e he => ?_⟩
  · have hmem : e ∈ p.errands.take place :=
      List.mem_iff_getElem?.mpr ⟨i, by rw [List.getElem?_take_of_lt hi, he]⟩
    simpa using h e hmem
  · obtain ⟨i, he⟩ := List.mem_iff_getElem?.mp he
    rw [List.getElem?_take] at he
    split at he
    · rename_i hi
      simp [h i e hi he]
    · cases he

/-- What holds at every point of a run: the deeds account for the stages of the errands. -/
structure Accounted (workers : Nat) (agents : List Agent) (deeds : List (Nat × Act))
    (p : Pool σ κ) : Prop where
  same : p.errands.map (·.agent) = agents
  past : ∀ (i : Nat) (e : Errand κ), p.errands[i]? = some e → e.stage.Past (acts deeds i)
  beyond : ∀ i, p.errands[i]? = none → acts deeds i = []
  inTurn : ∀ (i j : Nat) (e e' : Errand κ), i ≤ j → p.errands[i]? = some e →
    p.errands[j]? = some e' → e.stage.isQueued → e'.stage.isQueued
  atWork : p.errands.countP (·.stage.isUnderWay) ≤ workers
  opened : deeds.countP (·.2.isOpened) =
    deeds.countP (·.2.isClosing) + p.errands.countP (·.stage.holds)
  failed : p.failed = true ↔ ∃ i f, .report f ∈ acts deeds i
  skipped : ∀ i, .look true ∈ acts deeds i → p.failed = true
  left : deeds.length + p.left ≤ 6 * agents.length

theorem left_start (agents : List Agent) (world : σ) :
    (start agents world : Pool σ κ).left = 6 * agents.length := by
  unfold Pool.left start
  induction agents with
  | nil => rfl
  | cons a rest ih =>
    rw [List.map_cons, List.foldr_cons, ih, List.length_cons, Nat.mul_succ, Nat.add_comm]
    rfl

theorem accounted_start (workers : Nat) (agents : List Agent) (world : σ) :
    (start agents world : Pool σ κ).Accounted workers agents [] := by
  have hqueued : ∀ (i : Nat) (e : Errand κ),
      (start agents world : Pool σ κ).errands[i]? = some e → e.stage = .queued := by
    intro i e h
    obtain ⟨a, _, rfl⟩ := List.mem_map.mp (List.mem_of_getElem? h)
    rfl
  refine ⟨?_, ?_, fun _ _ => rfl, ?_, ?_, ?_, ?_, by simp, ?_⟩
  · simp [start, Function.comp_def]
  · intro i e h
    rw [hqueued i e h]
    exact .queued
  · intro i j e e' _ _ h _
    rw [hqueued j e' h]
    rfl
  · simp [start, List.countP_map, Function.comp_def, Stage.isUnderWay, Stage.isQueued]
  · simp [start, List.countP_map, Function.comp_def, Stage.holds]
  · simp [start]
  · exact Nat.le_of_eq ((Nat.zero_add _).trans (left_start agents world))

theorem Accounted.step (h : p.Accounted workers agents deeds)
    (hm : p.move? k workers place = some (act, q)) :
    q.Accounted workers agents (deeds ++ [(place, act)]) := by
  obtain ⟨e, stage, he, hs, hq, hready⟩ := move?_iff.mp hm
  obtain ⟨hlt, hplace⟩ := List.getElem?_eq_some_iff.mp he
  have hself : q.errands[place]? = some ⟨e.agent, stage⟩ := by
    rw [hq, List.getElem?_set_self hlt]
  have hother : ∀ i, place ≠ i → q.errands[i]? = p.errands[i]? := by
    intro i hi
    rw [hq, List.getElem?_set_ne hi]
  have hholds := countP_set_add ⟨e.agent, stage⟩ (fun e => e.stage.holds) he
  have hwork := countP_set_add ⟨e.agent, stage⟩ (fun e => e.stage.isUnderWay) he
  have hleft := foldr_set_add ⟨e.agent, stage⟩ (fun e => e.stage.left) he
  rw [← hq] at hholds hwork hleft
  dsimp only at hholds hwork hleft
  constructor
  case same =>
    rw [hq, List.map_set, ← h.same]
    subst hplace
    rw [← List.getElem_map (f := Errand.agent) (h := by simpa using hlt), List.set_getElem_self]
  case past =>
    intro i e' he'
    by_cases hi : place = i
    · subst hi
      rw [hself] at he'
      cases he'
      rw [acts_self]
      exact (h.past _ e he).step hs
    · rw [acts_other hi]
      exact h.past i e' (by rw [← hother i hi, he'])
  case beyond =>
    intro i hi
    have hne : place ≠ i := by
      rintro rfl
      rw [hself] at hi
      cases hi
    rw [acts_other hne]
    exact h.beyond i (by rw [← hother i hne, hi])
  case inTurn =>
    -- What has taken a step is not queued any more, so it is not the earlier of the two.
    intro i j e₁ e₂ hij h₁ h₂ hq₁
    have hi : place ≠ i := by
      rintro rfl
      rw [hself] at h₁
      cases h₁
      rw [hs.not_queued] at hq₁
      cases hq₁
    rw [hother i hi] at h₁
    by_cases hj : place = j
    · subst hj
      have hlt : i < place := Nat.lt_of_le_of_ne hij (Ne.symm hi)
      cases hqueued : e.stage.isQueued with
      | true =>
        have hearlier := (mayStart_iff.mp (hready hqueued)).1 i e₁ hlt h₁
        rw [hq₁] at hearlier
        cases hearlier
      | false =>
        rw [h.inTurn i place e₁ e hij h₁ he hq₁] at hqueued
        cases hqueued
    · rw [hother j hj] at h₂
      exact h.inTurn i j e₁ e₂ hij h₁ h₂ hq₁
  case atWork =>
    -- Only a start adds to those at work, and it waits for a free worker.
    cases hqueued : e.stage.isQueued with
    | true =>
      have := (mayStart_iff.mp (hready hqueued)).2
      split at hwork <;> split at hwork <;> omega
    | false =>
      have := h.atWork
      rw [if_pos (hs.isUnderWay hqueued)] at hwork
      split at hwork <;> omega
  case opened =>
    have := hs.holds
    have := h.opened
    simp only [List.countP_append, List.countP_singleton]
    omega
  case failed =>
    rw [hs.failed_iff, h.failed]
    constructor
    · rintro (⟨i, f, hf⟩ | ⟨f, rfl⟩)
      · exact ⟨i, f, mem_acts_step.mpr (.inl hf)⟩
      · exact ⟨place, f, mem_acts_step.mpr (.inr ⟨rfl, rfl⟩)⟩
    · rintro ⟨i, f, hf⟩
      rcases mem_acts_step.mp hf with hf | ⟨_, hf⟩
      · exact .inl ⟨i, f, hf⟩
      · exact .inr ⟨f, hf.symm⟩
  case skipped =>
    intro i hl
    refine hs.failed_iff.mpr (.inl ?_)
    rcases mem_acts_step.mp hl with hl | ⟨_, hl⟩
    · exact h.skipped i hl
    · exact hs.look hl.symm
  case left =>
    have := hs.left_lt
    have := h.left
    simp only [Pool.left, List.length_append, List.length_singleton] at *
    omega

theorem Run.accounted (h : (start agents world).Run k workers deeds p) :
    p.Accounted workers agents deeds := by
  induction h with
  | refl => exact accounted_start workers agents world
  | step _ _ hm ih => exact ih.step hm

theorem left_lt (hm : p.move? k workers place = some (act, q)) : q.left < p.left := by
  obtain ⟨e, stage, he, hs, hq, _⟩ := move?_iff.mp hm
  have := foldr_set_add ⟨e.agent, stage⟩ (fun e => e.stage.left) he
  have := hs.left_lt
  rw [← hq] at *
  simp only [left] at *
  omega

theorem front_eq_some (h : p.isOver = false) :
    ∃ e, p.errands[p.front]? = some e ∧ e.stage.isOver = false := by
  have hex : ∃ e ∈ p.errands, (!e.stage.isOver) = true := by
    simpa [isOver] using h
  have hlt := List.findIdx_lt_length.mpr hex
  refine ⟨p.errands[p.front], List.getElem?_eq_getElem hlt, ?_⟩
  have := List.findIdx_getElem (w := hlt)
  simpa [front] using this

theorem front_eq_none (h : p.isOver = true) : p.errands[p.front]? = none := by
  refine List.getElem?_eq_none (Nat.le_of_eq (Eq.symm ?_))
  refine List.findIdx_eq_length_of_false fun e he => ?_
  simpa using List.all_eq_true.mp h e he

theorem over_of_lt_front {i : Nat} {e : Errand κ} (hi : i < p.front)
    (he : p.errands[i]? = some e) : e.stage.isOver = true := by
  obtain ⟨_, rfl⟩ := List.getElem?_eq_some_iff.mp he
  simpa using List.not_of_lt_findIdx hi

/-- As long as the errands are not over, the first of them that is not can take a step. -/
theorem Accounted.front_moves (h : p.Accounted workers agents deeds) (hw : 0 < workers)
    (ho : p.isOver = false) : ∃ act q, p.move? k workers p.front = some (act, q) := by
  obtain ⟨e, he, hstage⟩ := front_eq_some ho
  have hready : e.stage.isQueued → p.mayStart workers p.front := by
    intro hq
    refine mayStart_iff.mpr ⟨fun i e' hi he' => ?_, ?_⟩
    · exact Stage.not_queued_of_over (over_of_lt_front hi he')
    · refine Nat.lt_of_le_of_lt (Nat.le_of_eq (List.countP_eq_zero.mpr fun e' he' => ?_)) hw
      obtain ⟨i, he'⟩ := List.mem_iff_getElem?.mp he'
      by_cases hi : i < p.front
      · simp [Stage.isUnderWay, over_of_lt_front hi he']
      · simp [Stage.isUnderWay, h.inTurn _ i e e' (Nat.le_of_not_lt hi) he he' hq]
  obtain ⟨act, failed, w, stage, hs⟩ := e.stage.goes_on k e.agent p.failed p.world hstage
  exact ⟨act, ⟨p.errands.set p.front ⟨e.agent, stage⟩, failed, w⟩,
    move?_iff.mpr ⟨e, stage, he, hs, rfl, hready⟩⟩

theorem move?_front_of_over (h : p.isOver = true) : p.move? k workers p.front = none := by
  unfold move?
  rw [front_eq_none h]

theorem Run.advance (h : (start agents world).Run k workers deeds p) (n : Nat) :
    ∃ deeds', (start agents world).Run k workers deeds' (p.advance k workers n) := by
  induction n generalizing deeds p with
  | zero => exact ⟨deeds, h⟩
  | succ n ih =>
    unfold Pool.advance
    split
    · rename_i hm
      exact ih (h.step _ hm)
    · exact ⟨deeds, h⟩

theorem Run.advance_over (h : (start agents world).Run k workers deeds p) (hw : 0 < workers)
    {n : Nat} (hn : p.left ≤ n) : (p.advance k workers n).isOver = true := by
  induction n generalizing deeds p with
  | zero =>
    cases ho : p.isOver with
    | true => exact ho
    | false =>
      obtain ⟨act, q, hm⟩ := h.accounted.front_moves (k := k) hw ho
      have := left_lt hm
      omega
  | succ n ih =>
    unfold Pool.advance
    split
    · rename_i hm
      have := left_lt hm
      exact ih (h.step _ hm) (by omega)
    · rename_i hm
      cases ho : p.isOver with
      | true => rfl
      | false =>
        obtain ⟨act, q, hm'⟩ := h.accounted.front_moves (k := k) hw ho
        rw [hm] at hm'
        cases hm'

/-- The pool is settled by one of its runs. -/
theorem settle_run (hw : 0 < workers) (agents : List Agent) (world : σ) :
    ∃ deeds, (start agents world).Run k workers deeds ((start agents world).settle k workers) ∧
      ((start agents world).settle k workers).isOver = true := by
  have hstart : (start agents world).Run k workers [] (start agents world) := .refl
  obtain ⟨deeds, hrun⟩ := hstart.advance (start agents world).left
  exact ⟨deeds, hrun, hstart.advance_over hw (Nat.le_refl _)⟩

theorem getElem?_results {i : Nat} {a : Agent} {result : Except Fault Bool}
    (h : p.isOver = true) :
    p.results[i]? = some (a, result) ↔ p.errands[i]? = some ⟨a, .ended result⟩ := by
  obtain ⟨errands, _, _⟩ := p
  simp only [isOver, results] at h ⊢
  induction errands generalizing i with
  | nil => simp
  | cons e rest ih =>
    obtain ⟨b, stage⟩ := e
    rw [List.all_cons, Bool.and_eq_true] at h
    cases stage with
    | ended r =>
      change ((b, r) :: List.filterMap _ rest)[i]? = _ ↔ _
      cases i with
      | zero => simp
      | succ i => simpa using ih h.2
    | _ => cases h.1

theorem length_results (h : p.isOver = true) : p.results.length = p.errands.length := by
  obtain ⟨errands, _, _⟩ := p
  simp only [isOver, results] at h ⊢
  induction errands with
  | nil => rfl
  | cons e rest ih =>
    obtain ⟨b, stage⟩ := e
    rw [List.all_cons, Bool.and_eq_true] at h
    cases stage with
    | ended r =>
      change ((b, r) :: List.filterMap _ rest).length = _
      rw [List.length_cons, List.length_cons, ih h.2]
    | _ => cases h.1

/-- Once all is over, an errand has raised what it ended with. -/
theorem Accounted.raised_iff (h : p.Accounted workers agents deeds) (ho : p.isOver = true)
    {i : Nat} {f : Fault} :
    Act.raised (acts deeds i) = some f ↔ ∃ a, p.errands[i]? = some ⟨a, .ended (.error f)⟩ := by
  cases he : p.errands[i]? with
  | none => simp [h.beyond i he, Act.raised]
  | some e =>
    obtain ⟨a, stage⟩ := e
    rw [(h.past i _ he).raised_iff (List.all_eq_true.mp ho _ (List.mem_of_getElem? he))]
    simp

/-- Nobody skips an agent where nobody fails. -/
theorem Accounted.all_done (h : p.Accounted workers agents deeds) (ho : p.isOver = true)
    (hn : ∀ i, Act.raised (acts deeds i) = none) :
    ∀ (i : Nat) (e : Errand κ), p.errands[i]? = some e → e.stage = .ended (.ok true) := by
  intro i e he
  obtain ⟨a, stage⟩ := e
  have hover : stage.isOver = true := List.all_eq_true.mp ho _ (List.mem_of_getElem? he)
  cases stage with
  | ended result =>
    cases result with
    | error f =>
      have := (h.raised_iff ho).mpr ⟨a, he⟩
      rw [hn i] at this
      cases this
    | ok sent =>
      cases sent with
      | true => rfl
      | false =>
        have hlook : .look true ∈ acts deeds i := (h.past i _ he).skipped_iff.mpr rfl
        obtain ⟨j, f, hf⟩ := h.failed.mp (h.skipped i hlook)
        cases hj : p.errands[j]? with
        | none =>
          rw [h.beyond j hj] at hf
          cases hf
        | some e' =>
          have hstage := (h.past j e' hj).reported_iff.mp hf
          have := (h.raised_iff ho (i := j) (f := f)).mpr ⟨e'.agent, by rw [hj, ← hstage]⟩
          rw [hn j] at this
          cases this
  | _ => cases hover

end Pool

namespace Parallel

open Pool

theorem verdict_of_sent {results : List (Agent × Except Fault Bool)}
    (h : ∀ x ∈ results, x.2 = .ok true) : verdict results = .ok results.length := by
  induction results with
  | nil => rfl
  | cons x rest ih =>
    obtain ⟨a, r⟩ := x
    obtain ⟨hr, hrest⟩ := List.forall_mem_cons.mp h
    cases hr
    simp [verdict, ih hrest, Except.map]

theorem verdict_of_done {p : Pool σ κ} (h : ∀ e ∈ p.errands, e.stage = .ended (.ok true)) :
    verdict p.results = .ok p.errands.length := by
  have ho : p.isOver = true := by
    refine List.all_eq_true.mpr fun e he => ?_
    rw [h e he]
    rfl
  rw [← length_results ho]
  refine verdict_of_sent fun x hx => ?_
  obtain ⟨i, hi⟩ := List.mem_iff_getElem?.mp hx
  simpa using h _ (List.mem_of_getElem? ((getElem?_results ho).mp hi))

/-- The first failure in the order of the agents counts. -/
theorem verdict_eq_error {results : List (Agent × Except Fault Bool)} {f : Fault} :
    verdict results = .error f ↔
      ∃ (i : Nat) (a : Agent) (g : Fault), results[i]? = some (a, .error g) ∧
        (∀ j < i, ∀ b g', results[j]? ≠ some (b, .error g')) ∧ f = undelivered a g := by
  induction results with
  | nil => simp [verdict]
  | cons x rest ih =>
    obtain ⟨a, r⟩ := x
    cases r with
    | error g =>
      constructor
      · intro h
        cases h
        exact ⟨0, a, g, rfl, by simp, rfl⟩
      · rintro ⟨i, b, g', hi, hfirst, rfl⟩
        cases i with
        | zero =>
          cases hi
          rfl
        | succ i => exact absurd rfl (hfirst 0 (Nat.succ_pos i) a g)
    | ok sent =>
      have hmap : verdict ((a, .ok sent) :: rest) = .error f ↔ verdict rest = .error f := by
        cases h : verdict rest <;> simp [verdict, h, Except.map]
      rw [hmap, ih]
      constructor
      · rintro ⟨i, b, g, hi, hfirst, hf⟩
        refine ⟨i + 1, b, g, hi, fun j hj => ?_, hf⟩
        cases j with
        | zero => simp
        | succ j => exact hfirst j (Nat.lt_of_succ_lt_succ hj)
      · rintro ⟨i, b, g, hi, hfirst, hf⟩
        cases i with
        | zero => cases hi
        | succ i =>
          exact ⟨i, b, g, hi, fun j hj => hfirst (j + 1) (Nat.succ_lt_succ hj), hf⟩

theorem no_error_of_verdict {results : List (Agent × Except Fault Bool)} {n : Nat}
    (h : verdict results = .ok n) : ∀ a f, (a, .error f) ∉ results := by
  induction results generalizing n with
  | nil => simp
  | cons x rest ih =>
    obtain ⟨b, r⟩ := x
    cases r with
    | error g => cases h
    | ok sent =>
      intro a f hm
      cases hv : verdict rest with
      | error g => simp [verdict, hv, Except.map] at h
      | ok m => exact ih hv a f (by simpa using hm)

end Parallel

namespace Pool.Accounted

open Parallel

variable {p : Pool σ κ} {deeds : List (Nat × Act)}

theorem agent_at (h : p.Accounted workers agents deeds) {i : Nat} {a : Agent} :
    agents[i]? = some a ↔ ∃ stage, p.errands[i]? = some ⟨a, stage⟩ := by
  rw [← h.same, List.getElem?_map]
  cases p.errands[i]? with
  | none => simp
  | some e =>
    obtain ⟨b, stage⟩ := e
    simp

theorem verdict_error_iff (h : p.Accounted workers agents deeds) (ho : p.isOver = true)
    {f : Fault} :
    verdict p.results = .error f ↔ ∃ i a g, agents[i]? = some a ∧
      Act.raised (acts deeds i) = some g ∧ (∀ j < i, Act.raised (acts deeds j) = none) ∧
      f = undelivered a g := by
  have hraised : ∀ j, Act.raised (acts deeds j) = none ↔
      ∀ b g, p.results[j]? ≠ some (b, .error g) := by
    intro j
    simp only [Option.eq_none_iff_forall_not_mem, Option.mem_def, h.raised_iff ho, not_exists,
      ne_eq, getElem?_results ho]
    exact ⟨fun hn b g => hn g b, fun hn g b => hn b g⟩
  rw [verdict_eq_error]
  refine exists_congr fun i => exists_congr fun a => exists_congr fun g => ?_
  simp only [hraised, getElem?_results ho, h.raised_iff ho, h.agent_at]
  constructor
  · rintro ⟨he, hfirst, hf⟩
    exact ⟨⟨_, he⟩, ⟨a, he⟩, hfirst, hf⟩
  · rintro ⟨⟨stage, he⟩, ⟨b, he'⟩, hfirst, hf⟩
    rw [he] at he'
    cases he'
    exact ⟨he, hfirst, hf⟩

theorem unraised_of_verdict (h : p.Accounted workers agents deeds) (ho : p.isOver = true) {n : Nat}
    (hv : verdict p.results = .ok n) (i : Nat) : Act.raised (acts deeds i) = none := by
  cases hr : Act.raised (acts deeds i) with
  | none => rfl
  | some f =>
    obtain ⟨a, ha⟩ := (h.raised_iff ho).mp hr
    have := List.mem_of_getElem? ((getElem?_results ho).mpr ha)
    exact absurd this (no_error_of_verdict hv a f)

theorem verdict_of_unraised (h : p.Accounted workers agents deeds) (ho : p.isOver = true)
    (hn : ∀ i, Act.raised (acts deeds i) = none) :
    verdict p.results = .ok agents.length ∧
      ∀ i < agents.length, (acts deeds i).count (.use none) = 1 := by
  constructor
  · rw [← h.same, List.length_map]
    refine verdict_of_done fun e he => ?_
    obtain ⟨i, hi⟩ := List.mem_iff_getElem?.mp he
    exact h.all_done ho hn i e hi
  · intro i hi
    obtain ⟨stage, he⟩ := h.agent_at.mp (List.getElem?_eq_getElem hi)
    have hpast := h.past i _ he
    rw [h.all_done ho hn i _ he] at hpast
    exact hpast.used_once

theorem open_le (h : p.Accounted workers agents deeds) :
    deeds.countP (·.2.isOpened) ≤ deeds.countP (·.2.isClosing) + workers := by
  have hle : p.errands.countP (·.stage.holds) ≤ p.errands.countP (·.stage.isUnderWay) :=
    List.countP_mono_left fun e _ he => Stage.underWay_of_holds he
  have := h.opened
  have := h.atWork
  omega

theorem opens_once (h : p.Accounted workers agents deeds) (i : Nat) :
    (acts deeds i).countP Act.isOpening ≤ 1 ∧
      (.look true ∈ acts deeds i → (acts deeds i).countP Act.isOpening = 0) ∧
      (acts deeds i).countP Act.isClosing ≤ (acts deeds i).countP Act.isOpened := by
  cases he : p.errands[i]? with
  | none => simp [h.beyond i he]
  | some e =>
    have hpast := h.past i e he
    refine ⟨hpast.opens_once, hpast.opens_nothing, ?_⟩
    have := hpast.closes_once
    omega

theorem closes_all (h : p.Accounted workers agents deeds) (ho : p.isOver = true) (i : Nat) :
    (acts deeds i).countP Act.isClosing = (acts deeds i).countP Act.isOpened := by
  cases he : p.errands[i]? with
  | none => simp [h.beyond i he]
  | some e =>
    have hover := List.all_eq_true.mp ho e (List.mem_of_getElem? he)
    have := (h.past i e he).closes_once
    rw [Stage.not_holds_of_over hover] at this
    simpa using this.symm

end Pool.Accounted

namespace Parallel

open Pool

theorem deliver_run (k : Contact σ κ) (workers : Nat) (agents : List Agent) (world : σ) :
    deliver k workers agents world =
      match verdict ((start agents world).settle k workers).results with
      | .ok n => .ok n ((start agents world).settle k workers).world
      | .error f => .error f ((start agents world).settle k workers).world := by
  change (ofExcept (verdict ((start agents world).settle k workers).results) :
    EStateM Fault σ Nat) ((start agents world).settle k workers).world = _
  cases verdict ((start agents world).settle k workers).results with
  | ok n => rfl
  | error f => rfl

/-- In whatever order the steps are taken: nobody is contacted twice, no more links are open than
there are workers, what was opened is closed, and nothing comes to a halt before all is over. Then
all agents have taken the message, or the first of the agents that failed is named. -/
theorem deliver_inEveryOrder (k : Contact σ κ) {workers : Nat} (hw : 0 < workers)
    (agents : List Agent) (world : σ) :
    (∀ deeds p, (start agents world).Run k workers deeds p →
      deeds.countP (·.2.isOpened) ≤ deeds.countP (·.2.isClosing) + workers ∧
      (∀ i, (acts deeds i).countP Act.isOpening ≤ 1 ∧
        (.look true ∈ acts deeds i → (acts deeds i).countP Act.isOpening = 0) ∧
        (acts deeds i).countP Act.isClosing ≤ (acts deeds i).countP Act.isOpened) ∧
      deeds.length ≤ 6 * agents.length ∧
      (p.isOver = false → ∃ place act q, p.move? k workers place = some (act, q)) ∧
      (p.isOver = true →
        (∀ i, (acts deeds i).countP Act.isClosing = (acts deeds i).countP Act.isOpened) ∧
        ((∃ n, verdict p.results = .ok n) ↔ ∀ i, Act.raised (acts deeds i) = none) ∧
        (∀ n, verdict p.results = .ok n → n = agents.length ∧
          ∀ i < agents.length, (acts deeds i).count (.use none) = 1) ∧
        ∀ f, verdict p.results = .error f ↔ ∃ i a g, agents[i]? = some a ∧
          Act.raised (acts deeds i) = some g ∧ (∀ j < i, Act.raised (acts deeds j) = none) ∧
          f = undelivered a g)) ∧
    ∃ deeds p, (start agents world).Run k workers deeds p ∧ p.isOver = true ∧
      deliver k workers agents world = match verdict p.results with
        | .ok n => .ok n p.world
        | .error f => .error f p.world := by
  refine ⟨fun deeds p hrun => ?_, ?_⟩
  · have h := hrun.accounted
    refine ⟨h.open_le, h.opens_once, ?_, fun ho => ?_, fun ho => ⟨h.closes_all ho, ?_, ?_, ?_⟩⟩
    · exact Nat.le_trans (Nat.le_add_right _ _) h.left
    · obtain ⟨act, q, hm⟩ := h.front_moves (k := k) hw ho
      exact ⟨p.front, act, q, hm⟩
    · constructor
      · rintro ⟨n, hv⟩
        exact h.unraised_of_verdict ho hv
      · intro hn
        exact ⟨_, (h.verdict_of_unraised ho hn).1⟩
    · intro n hv
      obtain ⟨hok, huse⟩ := h.verdict_of_unraised ho (h.unraised_of_verdict ho hv)
      rw [hok] at hv
      cases hv
      exact ⟨rfl, huse⟩
    · intro f
      exact h.verdict_error_iff ho
  · obtain ⟨deeds, hrun, hover⟩ := settle_run (k := k) hw agents world
    exact ⟨deeds, _, hrun, hover, deliver_run k workers agents world⟩

/-- The message breaks off on the way to one agent, and another one is out of reach. -/
def twoLost : Situation :=
  { Situation.bare ⟨.root, [], []⟩ ⟨"f", []⟩ with
    hosts := fun host =>
      if host = "a" then
        { Host.sound with running := .error (.of (.foreign .secureShell "SSHException" "lost")) }
      else if host = "b" then
        { Host.sound with opening := .error (.of (.foreign .system "OSError" "no route")) }
      else .sound }

def twoAtOnce : Pool Situation Link :=
  start [⟨"a", "x"⟩, ⟨"b", "y"⟩, ⟨"c", "z"⟩] twoLost

def stopping : Contact Situation Link :=
  (Connector.mk .absent none (.text "ctl") .absent).contact ⟨"stop", .null⟩

/-- The second agent fails while the first one is being contacted, and the third one is skipped; yet
the first one is named. -/
theorem deliver_inEveryOrder_overtaken : ∃ deeds p, twoAtOnce.Run stopping 2 deeds p ∧
    acts deeds 2 = [.start, .look true] ∧
    verdict p.results = .error (undelivered ⟨"a", "x"⟩ (Fault.because
      (.of (.foreign .secureShell "SSHException" "lost")) (.link (.notReached "a" "lost")))) := by
  have hstart : twoAtOnce.Run stopping 2 [] twoAtOnce := .refl
  have hboth := hstart.step 0 rfl |>.step 1 rfl |>.step 1 rfl |>.step 0 rfl |>.step 0 rfl
  have hsecond := hboth.step 1 rfl |>.step 1 rfl
  have hrun := hsecond.step 2 rfl |>.step 2 rfl |>.step 0 rfl |>.step 0 rfl |>.step 0 rfl
  obtain ⟨_, _, _, _, hover⟩ := (deliver_inEveryOrder stopping (by decide) _ twoLost).1 _ _ hrun
  obtain ⟨_, _, _, herror⟩ := hover rfl
  exact ⟨_, _, hrun, rfl, (herror _).mpr ⟨0, _, _, rfl, rfl, by simp, rfl⟩⟩

end Parallel

end AgentFleet
