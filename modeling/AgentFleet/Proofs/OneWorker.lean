import AgentFleet.Proofs.Pooling

namespace AgentFleet

variable {σ κ : Type} {k : Contact σ κ} {workers : Nat} {agents : List Agent} {world : σ}

theorem two_le_countP {l : List α} {f : α → Bool} {i j : Nat} {a b : α} (hij : i < j)
    (hi : l[i]? = some a) (hj : l[j]? = some b) (ha : f a = true) (hb : f b = true) :
    2 ≤ l.countP f := by
  induction l generalizing i j with
  | nil => cases hi
  | cons x rest ih =>
    cases j with
    | zero => cases hij
    | succ j =>
      rw [List.getElem?_cons_succ] at hj
      cases i with
      | zero =>
        cases hi
        have hpos : 0 < rest.countP f := List.countP_pos_iff.mpr ⟨b, List.mem_of_getElem? hj, hb⟩
        rw [List.countP_cons_of_pos ha]
        omega
      | succ i =>
        have := ih (Nat.lt_of_succ_lt_succ hij) hi hj
        rw [List.countP_cons]
        omega

namespace Pool

variable {p q r : Pool σ κ} {place : Nat} {act : Act} {deeds more : List (Nat × Act)}

/-- With one worker only the errand at the front can take a step. -/
theorem Accounted.eq_front (h : p.Accounted 1 agents deeds)
    (hm : p.move? k 1 place = some (act, q)) : place = p.front := by
  obtain ⟨e, stage, he, hs, _, hready⟩ := move?_iff.mp hm
  have hnotOver : e.stage.isOver = false := hs.not_over
  have hover : p.isOver = false := by
    cases ho : p.isOver with
    | false => rfl
    | true =>
      rw [List.all_eq_true.mp ho e (List.mem_of_getElem? he)] at hnotOver
      cases hnotOver
  obtain ⟨first, hfirst, hstage⟩ := front_eq_some hover
  rcases Nat.lt_trichotomy place p.front with hlt | heq | hgt
  · rw [over_of_lt_front hlt he] at hnotOver
    cases hnotOver
  · exact heq
  · exfalso
    -- The front either has not started, and then nothing behind it may, or has the only worker.
    cases hfq : first.stage.isQueued with
    | true =>
      have hq := h.inTurn _ _ _ _ (Nat.le_of_lt hgt) hfirst he hfq
      rw [(mayStart_iff.mp (hready hq)).1 _ _ hgt hfirst] at hfq
      cases hfq
    | false =>
      have hwork : first.stage.isUnderWay = true := by simp [Stage.isUnderWay, hfq, hstage]
      cases hq : e.stage.isQueued with
      | true =>
        have hidle := (mayStart_iff.mp (hready hq)).2
        have : 0 < p.errands.countP (·.stage.isUnderWay) :=
          List.countP_pos_iff.mpr ⟨first, List.mem_of_getElem? hfirst, hwork⟩
        omega
      | false =>
        have := two_le_countP (f := fun e => e.stage.isUnderWay) hgt hfirst he hwork
          (hs.isUnderWay hq)
        have := h.atWork
        omega

theorem advance_none (h : p.move? k workers p.front = none) (n : Nat) :
    p.advance k workers n = p := by
  cases n with
  | zero => rfl
  | succ n => rw [advance, h]

theorem advance_some (h : p.move? k workers p.front = some (act, q)) (n : Nat) :
    p.advance k workers (n + 1) = q.advance k workers n := by
  rw [advance, h]

/-- More steps than are left lead nowhere else. -/
theorem advance_eq_settle {n : Nat} (hn : p.left ≤ n) :
    p.advance k workers n = p.settle k workers := by
  unfold settle
  -- After one step both sides go on from the same pool, which has fewer steps left.
  induction n using Nat.strongRecOn generalizing p with
  | ind n ih =>
    cases hm : p.move? k workers p.front with
    | none => rw [advance_none hm, advance_none hm]
    | some next =>
      obtain ⟨act, q⟩ := next
      have hlt := left_lt hm
      obtain ⟨l, hl⟩ := Nat.exists_eq_succ_of_ne_zero (Nat.ne_of_gt (Nat.zero_lt_of_lt hlt))
      obtain ⟨n, rfl⟩ := Nat.exists_eq_succ_of_ne_zero (by omega : n ≠ 0)
      rw [hl, advance_some hm, advance_some hm, ih n (by omega) (by omega)]
      by_cases hln : l = n
      · rw [hln, ih n (by omega) (by omega)]
      · rw [ih l (by omega) (by omega)]

theorem settle_of_move (h : p.move? k workers p.front = some (act, q)) :
    q.settle k workers = p.settle k workers := by
  have hlt := left_lt h
  obtain ⟨l, hl⟩ := Nat.exists_eq_succ_of_ne_zero (Nat.ne_of_gt (Nat.zero_lt_of_lt hlt))
  calc q.settle k workers = q.advance k workers l := (advance_eq_settle (by omega)).symm
    _ = p.advance k workers (l + 1) := (advance_some h l).symm
    _ = p.settle k workers := by rw [settle, hl]

theorem Run.settle_eq (h : (start agents world).Run k 1 deeds p) :
    p.settle k 1 = (start agents world).settle k 1 := by
  induction h with
  | refl => rfl
  | step run place hm ih =>
    have hfront := run.accounted.eq_front hm
    subst hfront
    rw [settle_of_move hm, ih]

/-- All orders of steps end in the same. -/
theorem Run.eq_settle (h : (start agents world).Run k 1 deeds p) (ho : p.isOver = true) :
    p = (start agents world).settle k 1 := by
  rw [← h.settle_eq]
  exact (advance_none (move?_front_of_over ho) _).symm

theorem Run.trans (h : p.Run k workers deeds q) (h' : q.Run k workers more r) :
    p.Run k workers (deeds ++ more) r := by
  induction h' with
  | refl => rwa [List.append_nil]
  | step _ place hm ih =>
    rw [← List.append_assoc]
    exact ih.step place hm

end Pool

/-- Contact an agent from beginning to end. What was opened is closed; a failure to close displaces
one before it. -/
def Contact.visit (k : Contact σ κ) (a : Agent) : EStateM Fault σ Unit := fun w =>
  match k.connect a w with
  | .error f w => .error f w
  | .ok link w =>
    match k.use link w with
    | .ok () w => k.close link w
    | .error f w =>
      match k.close link w with
      | .ok () w => .error f w
      | .error g w => .error g w

/-- Visit agents in turn, up to the first that fails. -/
def Contact.inTurn (k : Contact σ κ) : List Agent → EStateM Fault σ Unit
  | [] => return
  | a :: rest => do
    EStateM.adaptExcept (undelivered a) (k.visit a)
    k.inTurn rest

namespace Contact

variable {a : Agent} {w w' : σ} {f : Fault}

theorem inTurn_ok (h : k.visit a w = .ok () w') (rest : List Agent) :
    k.inTurn (a :: rest) w = k.inTurn rest w' := by
  change EStateM.bind (EStateM.adaptExcept (undelivered a) (k.visit a))
      (fun _ => k.inTurn rest) w = _
  unfold EStateM.bind EStateM.adaptExcept
  rw [h]

theorem inTurn_error (h : k.visit a w = .error f w') (rest : List Agent) :
    k.inTurn (a :: rest) w = .error (undelivered a f) w' := by
  change EStateM.bind (EStateM.adaptExcept (undelivered a) (k.visit a))
      (fun _ => k.inTurn rest) w = _
  unfold EStateM.bind EStateM.adaptExcept
  rw [h]

end Contact

namespace Pool

open Parallel

variable {done : List (Errand κ)} {rest : List Agent} {a : Agent} {w w' : σ}

/-- Some errands are over, one is under way, and the rest is queued. -/
def amid (done : List (Errand κ)) (a : Agent) (stage : Stage κ) (rest : List Agent)
    (failed : Bool) (w : σ) : Pool σ κ :=
  ⟨done ++ ⟨a, stage⟩ :: rest.map (⟨·, .queued⟩), failed, w⟩

theorem run_amid {stage stage' : Stage κ} {failed failed' : Bool} {act : Act}
    (hd : ∀ e ∈ done, e.stage.isOver = true)
    (hs : stage.Step k a failed w act failed' w' stage') :
    (amid done a stage rest failed w).move? k 1 done.length =
      some (act, amid done a stage' rest failed' w') := by
  refine move?_iff.mpr ⟨⟨a, stage⟩, stage', by simp [amid], hs, by simp [amid], fun hq => ?_⟩
  dsimp only at hq
  refine mayStart_iff.mpr ⟨fun i e hi he => ?_, ?_⟩
  · simp only [amid, List.getElem?_append_left hi] at he
    exact Stage.not_queued_of_over (hd e (List.mem_of_getElem? he))
  · have hdone : done.countP (·.stage.isUnderWay) = 0 := by
      refine List.countP_eq_zero.mpr fun e he => ?_
      simp [Stage.isUnderWay, hd e he]
    have hrest : (rest.map (Errand.mk · (.queued : Stage κ))).countP (·.stage.isUnderWay) = 0 := by
      refine List.countP_eq_zero.mpr fun e he => ?_
      obtain ⟨b, _, rfl⟩ := List.mem_map.mp he
      simp [Stage.isUnderWay, Stage.isQueued]
    change (done ++ Errand.mk a stage :: rest.map (Errand.mk · .queued)).countP _ < 1
    rw [List.countP_append, List.countP_cons, hdone, hrest]
    simp [Stage.isUnderWay, hq]

/-- An errand that goes first ends as a visit does. -/
theorem run_visit (k : Contact σ κ) (a : Agent) (rest : List Agent)
    (hd : ∀ e ∈ done, e.stage.isOver = true) (w : σ) :
    ∃ deeds, (amid done a .queued rest false w).Run k 1 deeds
      (match k.visit a w with
        | .ok () w => amid done a (.ended (.ok true)) rest false w
        | .error f w => amid done a (.ended (.error f)) rest true w) := by
  have hstart : (amid done a .queued rest false w).Run k 1 _ (amid done a .cleared rest false w) :=
    (Run.refl.step _ (run_amid hd .start)).step _ (run_amid hd .clear)
  unfold Contact.visit
  cases hc : k.connect a w with
  | error f w =>
    exact ⟨_, (hstart.step _ (run_amid hd (.connectFailed hc))).step _ (run_amid hd .report)⟩
  | ok link w =>
    have hlinked := hstart.step _ (run_amid hd (.connect hc))
    dsimp only
    cases hu : k.use link w with
    | ok _ w =>
      have hused := hlinked.step _ (run_amid hd (.use hu))
      dsimp only
      cases hclose : k.close link w with
      | ok _ w => exact ⟨_, hused.step _ (run_amid hd (.finish hclose))⟩
      | error f w =>
        exact ⟨_, (hused.step _ (run_amid hd (.closeFailed hclose))).step _ (run_amid hd .report)⟩
    | error f w =>
      have hused := hlinked.step _ (run_amid hd (.useFailed hu))
      dsimp only
      cases hclose : k.close link w with
      | ok _ w =>
        exact ⟨_, (hused.step _ (run_amid hd (.close hclose))).step _ (run_amid hd .report)⟩
      | error g w =>
        exact ⟨_, (hused.step _ (run_amid hd (.closeFailed hclose))).step _ (run_amid hd .report)⟩

theorem over_append (a : Agent) (result : Except Fault Bool)
    (hd : ∀ e ∈ done, e.stage.isOver = true) :
    ∀ e ∈ done ++ [⟨a, .ended result⟩], e.stage.isOver = true :=
  List.forall_mem_append.mpr ⟨hd, List.forall_mem_singleton.mpr rfl⟩

/-- After a failure the rest is skipped. -/
theorem run_skip (rest : List Agent) (hd : ∀ e ∈ done, e.stage.isOver = true) (w : σ) :
    ∃ deeds, (Pool.mk (done ++ rest.map (⟨·, .queued⟩)) true w).Run k 1 deeds
      ⟨done ++ rest.map (⟨·, .ended (.ok false)⟩), true, w⟩ := by
  induction rest generalizing done with
  | nil => exact ⟨[], .refl⟩
  | cons a rest ih =>
    have hfirst : (amid done a .queued rest true w).Run k 1 _
        (amid done a (.ended (.ok false)) rest true w) :=
      (Run.refl.step _ (run_amid hd .start)).step _ (run_amid hd .skip)
    obtain ⟨deeds, hrest⟩ := ih (over_append a (.ok false) hd)
    simp only [List.append_assoc, List.singleton_append] at hrest
    exact ⟨_, hfirst.trans hrest⟩

/-- The agents are visited in turn. -/
theorem run_inTurn (k : Contact σ κ) (agents : List Agent)
    (hd : ∀ e ∈ done, e.stage = .ended (.ok true)) (w : σ) :
    ∃ deeds p, (Pool.mk (done ++ agents.map (⟨·, .queued⟩)) false w).Run k 1 deeds p ∧
      p.isOver = true ∧
      match k.inTurn agents w with
        | .ok () w => p.world = w ∧ verdict p.results = .ok (done.length + agents.length)
        | .error f w => p.world = w ∧ verdict p.results = .error f := by
  have hover : ∀ e ∈ done, e.stage.isOver = true := by
    intro e he
    rw [hd e he]
    rfl
  induction agents generalizing done w with
  | nil =>
    simp only [List.map_nil, List.append_nil]
    exact ⟨[], _, .refl, List.all_eq_true.mpr hover, rfl, verdict_of_done hd⟩
  | cons a rest ih =>
    obtain ⟨deeds, hvisit⟩ := run_visit k a rest hover w
    cases hv : k.visit a w with
    | ok _ w' =>
      rw [hv] at hvisit
      have hd' : ∀ e ∈ done ++ [⟨a, .ended (.ok true)⟩], e.stage = .ended (.ok true) :=
        List.forall_mem_append.mpr ⟨hd, List.forall_mem_singleton.mpr rfl⟩
      obtain ⟨more, p, hrest, hp, hresult⟩ := ih hd' w' (over_append a _ hover)
      simp only [List.append_assoc, List.singleton_append] at hrest
      refine ⟨_, p, hvisit.trans hrest, hp, ?_⟩
      have hlength : (done ++ [Errand.mk a (.ended (.ok true))]).length + rest.length =
          done.length + (a :: rest).length := by
        rw [List.length_append, List.length_singleton, List.length_cons]
        omega
      rw [hlength] at hresult
      rw [k.inTurn_ok hv]
      exact hresult
    | error f w' =>
      rw [hv] at hvisit
      obtain ⟨more, hskip⟩ := run_skip (k := k) rest (over_append a (.error f) hover) w'
      simp only [List.append_assoc, List.singleton_append] at hskip
      have hp : (Pool.mk (done ++ ⟨a, .ended (.error f)⟩ :: rest.map (⟨·, .ended (.ok false)⟩)) true
          w' : Pool σ κ).isOver = true :=
        List.all_eq_true.mpr (List.forall_mem_append.mpr ⟨hover, List.forall_mem_cons.mpr
          ⟨rfl, List.forall_mem_map.mpr fun _ _ => rfl⟩⟩)
      refine ⟨_, _, hvisit.trans hskip, hp, ?_⟩
      rw [k.inTurn_error hv]
      refine ⟨rfl, verdict_eq_error.mpr ⟨done.length, a, f, ?_, fun j hj b g => ?_, rfl⟩⟩
      · rw [getElem?_results hp]
        simp
      · rw [ne_eq, getElem?_results hp, List.getElem?_append_left hj]
        intro hb
        cases hd _ (List.mem_of_getElem? hb)

end Pool

namespace Parallel

open Pool

/-- With one worker the agents are visited in turn, up to the first that fails. -/
theorem deliver_one (k : Contact σ κ) (agents : List Agent) :
    deliver k 1 agents = do
      k.inTurn agents
      return agents.length := by
  funext w
  have hnone : ∀ e ∈ ([] : List (Errand κ)), e.stage = .ended (.ok true) := by simp
  obtain ⟨deeds, p, hrun, hp, hresult⟩ := run_inTurn k agents hnone w
  have hsettle : p = (start agents w).settle k 1 := Run.eq_settle hrun hp
  change _ = EStateM.bind (k.inTurn agents) (fun _ => pure agents.length) w
  rw [deliver_run, ← hsettle, EStateM.bind]
  cases hturn : k.inTurn agents w with
  | ok _ w' =>
    rw [hturn] at hresult
    obtain ⟨rfl, hv⟩ := hresult
    rw [hv, List.length_nil, Nat.zero_add]
    rfl
  | error f w' =>
    rw [hturn] at hresult
    obtain ⟨rfl, hv⟩ := hresult
    rw [hv]

end Parallel

end AgentFleet
