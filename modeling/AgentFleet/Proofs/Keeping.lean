import AgentFleet.Proofs.Outcome

namespace AgentFleet.Action

variable {P I : Situation → Prop}

/-- From where `P` holds an action leads to where `I` holds, whether it fails or not. What it gives
has `Q`. -/
def Brings (P : Situation → Prop) (act : Action α) (I : Situation → Prop) (Q : α → Prop) : Prop :=
  ∀ s, P s → match act s with
    | .ok a t => I t ∧ Q a
    | .error _ t => I t

/-- What holds before an action holds after it. -/
abbrev Keeps (I : Situation → Prop) (act : Action α) (Q : α → Prop) : Prop :=
  Brings I act I Q

/-- Nothing is said of what an action gives. -/
abbrev Any (_ : α) : Prop := True

namespace Brings

variable {act : Action α} {Q : α → Prop} {R : β → Prop} {s t : Situation}

theorem ok (h : Brings P act I Q) (hs : P s) {a : α} (hr : act s = .ok a t) : I t ∧ Q a := by
  have := h s hs
  rwa [hr] at this

theorem error (h : Brings P act I Q) (hs : P s) {f : Fault} (hr : act s = .error f t) : I t := by
  have := h s hs
  rwa [hr] at this

theorem after (h : Brings P act I Q) (hs : P s) : I (act.after s) := by
  unfold Action.after
  split
  · rename_i a t hr
    exact (h.ok hs hr).1
  · rename_i f t hr
    exact h.error hs hr

theorem of_parts (h : ∀ s, P s → I (act.after s))
    (hq : ∀ s, P s → ∀ a, act.outcome s = .ok a → Q a) : Brings P act I Q := by
  intro s hs
  have hi := h s hs
  have hg := hq s hs
  unfold Action.after at hi
  unfold Action.outcome at hg
  split
  · rename_i a t hr
    rw [hr] at hi hg
    exact ⟨hi, hg a rfl⟩
  · rename_i f t hr
    rwa [hr] at hi

theorem of_after (h : ∀ s, P s → I (act.after s)) : Brings P act I Any :=
  of_parts h fun _ _ _ _ => trivial

theorem pure {a : α} (hq : Q a) : Keeps I (Pure.pure a : Action α) Q :=
  fun _ hs => ⟨hs, hq⟩

theorem throw {f : Fault} : Keeps I (MonadExcept.throw f : Action α) Q :=
  fun _ hs => hs

/-- The second action starts where the first one led to. -/
theorem bind {f : α → Action β} (h : Brings P act I Q) (hf : ∀ a, Q a → Keeps I (f a) R) :
    Brings P (act >>= f) I R := by
  intro s hs
  have hact := h s hs
  change match EStateM.bind act f s with | .ok b t => _ | .error _ t => _
  unfold EStateM.bind
  cases hr : act s with
  | ok a t =>
    rw [hr] at hact
    exact hf a hact.2 t hact.1
  | error e t =>
    rw [hr] at hact
    exact hact

theorem get_bind {f : Situation → Action α} (h : ∀ s, P s → Brings P (f s) I Q) :
    Brings P (get >>= f) I Q :=
  fun s hs => h s hs s hs

theorem modify {g : Situation → Situation} (h : ∀ s, P s → I (g s)) :
    Brings P (modify g) I Any :=
  fun s hs => ⟨h s hs, trivial⟩

theorem ofExcept {x : Except Fault α} (h : ∀ a, x = .ok a → Q a) :
    Keeps I (MonadExcept.ofExcept x : Action α) Q := by
  cases x with
  | ok a => exact fun s hs => ⟨hs, h a rfl⟩
  | error f => exact fun s hs => hs

theorem ofAny {x : Except Fault α} : Keeps I (MonadExcept.ofExcept x : Action α) Any :=
  ofExcept fun _ _ => trivial

theorem attempt (h : Brings P act I Q) :
    Brings P act.attempt I (fun x => ∀ a, x = .ok a → Q a) := by
  intro s hs
  have hact := h s hs
  unfold Action.attempt
  cases hr : act s with
  | ok a t =>
    rw [hr] at hact
    refine ⟨hact.1, ?_⟩
    rintro b ⟨⟩
    exact hact.2
  | error e t =>
    rw [hr] at hact
    exact ⟨hact, fun a he => by cases he⟩

theorem explain (h : Brings P act I Q) (meaning : Fault → Option Trouble) :
    Brings P (act.explain meaning) I Q := by
  refine h.attempt.bind fun x hx => ?_
  cases x with
  | ok a => exact pure (hx a rfl)
  | error f =>
    dsimp only
    split
    · exact throw
    · exact throw

end Brings

/-- What a fault is led on to does not change what was done. -/
theorem after_explain (act : Action α) (meaning : Fault → Option Trouble) (s : Situation) :
    (act.explain meaning).after s = act.after s := by
  have h : Brings (· = s) (act.explain meaning) (· = act.after s) Any :=
    (Brings.of_after fun t ht => by rw [ht]).explain meaning
  exact h.after rfl

theorem explain_ok_run {act : Action α} {s t : Situation} {a : α}
    (meaning : Fault → Option Trouble) (h : act s = .ok a t) :
    act.explain meaning s = .ok a t := by
  unfold Action.explain
  rw [bind_run (attempt_ok h)]
  rfl

theorem explain_error_run {act : Action α} {s t : Situation} {f : Fault}
    (meaning : Fault → Option Trouble) (h : act s = .error f t) :
    act.explain meaning s = .error (((meaning f).map f.because).getD f) t := by
  unfold Action.explain
  rw [bind_run (attempt_error h)]
  dsimp only
  cases meaning f with
  | none => rfl
  | some trouble => rfl

/-- Actions go alike: where `R` relates situations they give the same, and `R` still does after. -/
def Alike (R : Situation → Situation → Prop) (act : Action α) : Prop :=
  ∀ s t, R s t → act.outcome s = act.outcome t ∧ R (act.after s) (act.after t)

theorem outcome_bind (act : Action α) (f : α → Action β) (s : Situation) :
    (act >>= f).outcome s = act.outcome s >>= fun a => (f a).outcome (act.after s) := by
  change (match EStateM.bind act f s with | .ok a _ => Except.ok a | .error e _ => .error e) = _
  unfold EStateM.bind outcome after
  cases act s <;> rfl

theorem after_bind (act : Action α) (f : α → Action β) (s : Situation) :
    (act >>= f).after s = match act.outcome s with
      | .ok a => (f a).after (act.after s)
      | .error _ => act.after s := by
  change (match EStateM.bind act f s with | .ok _ t => t | .error _ t => t) = _
  unfold EStateM.bind outcome after
  cases act s <;> rfl

namespace Alike

variable {R : Situation → Situation → Prop} {act : Action α}

theorem pure (a : α) : Alike R (Pure.pure a : Action α) :=
  fun _ _ h => ⟨rfl, h⟩

theorem throw (f : Fault) : Alike R (MonadExcept.throw f : Action α) :=
  fun _ _ h => ⟨rfl, h⟩

theorem bind {f : α → Action β} (h : Alike R act) (hf : ∀ a, Alike R (f a)) :
    Alike R (act >>= f) := by
  intro s t hst
  obtain ⟨ho, ha⟩ := h s t hst
  rw [outcome_bind, outcome_bind, after_bind, after_bind, ← ho]
  cases act.outcome s with
  | ok a => exact hf a _ _ ha
  | error e => exact ⟨rfl, ha⟩

theorem ofExcept (x : Except Fault α) : Alike R (MonadExcept.ofExcept x : Action α) := by
  cases x with
  | ok a => exact pure a
  | error f => exact throw f

theorem attempt (h : Alike R act) : Alike R act.attempt := by
  intro s t hst
  obtain ⟨ho, ha⟩ := h s t hst
  have he : ∀ u, act.attempt u = .ok (act.outcome u) (act.after u) := by
    intro u
    unfold Action.attempt outcome after
    cases act u <;> rfl
  simp only [outcome, after, he] at ho ha ⊢
  exact ⟨congrArg _ ho, ha⟩

theorem explain (h : Alike R act) (meaning : Fault → Option Trouble) :
    Alike R (act.explain meaning) := by
  refine h.attempt.bind fun x => ?_
  cases x with
  | ok a => exact pure a
  | error f =>
    dsimp only
    split
    · exact throw _
    · exact throw f

end Alike

end AgentFleet.Action
