import AgentFleet.Proofs.CloudCalls

namespace AgentFleet.Action

/-- What holds before an action holds after it. What it gives has `Q`, and what it fails with has
`E`. -/
structure Ends (I : Situation → Prop) (act : Action α) (Q : α → Prop) (E : Fault → Prop) :
    Prop where
  keeps : Keeps I act Q
  fails : ∀ s, I s → ∀ f, act.outcome s = .error f → E f

namespace Ends

variable {I : Situation → Prop} {act : Action α} {Q : α → Prop} {R : β → Prop} {E F : Fault → Prop}

theorem pure {a : α} (hq : Q a) : Ends I (Pure.pure a : Action α) Q E :=
  ⟨Brings.pure hq, fun _ _ _ h => nomatch h⟩

theorem throw {f : Fault} (he : E f) : Ends I (MonadExcept.throw f : Action α) Q E := by
  refine ⟨Brings.throw, fun s _ g h => ?_⟩
  cases h
  exact he

theorem bind {f : α → Action β} (h : Ends I act Q E) (hf : ∀ a, Q a → Ends I (f a) R E) :
    Ends I (act >>= f) R E := by
  refine ⟨h.keeps.bind fun a ha => (hf a ha).keeps, fun s hs e he => ?_⟩
  rw [outcome_bind] at he
  rcases except_bind_eq_error.mp he with he | ⟨a, ha, he⟩
  · exact h.fails s hs e he
  · obtain ⟨ht, hq⟩ := h.keeps.ok hs (run_ok ha)
    exact (hf a hq).fails _ ht e he

theorem get_bind {f : Situation → Action α} (h : ∀ s, I s → Ends I (f s) Q E) :
    Ends I (get >>= f) Q E :=
  ⟨Brings.get_bind fun s hs => (h s hs).keeps, fun s hs => (h s hs).fails s hs⟩

theorem ofExcept {x : Except Fault α} (h : ∀ a, x = .ok a → Q a) (he : ∀ f, x = .error f → E f) :
    Ends I (MonadExcept.ofExcept x : Action α) Q E := by
  cases x with
  | ok a => exact pure (h a rfl)
  | error f => exact throw (he f rfl)

theorem mono (h : Ends I act Q E) {Q' : α → Prop} (hq : ∀ a, Q a → Q' a) (he : ∀ f, E f → F f) :
    Ends I act Q' F := by
  refine ⟨fun s hs => ?_, fun s hs f hf => he f (h.fails s hs f hf)⟩
  have := h.keeps s hs
  split
  · rename_i hr
    rw [hr] at this
    exact ⟨this.1, hq _ this.2⟩
  · rename_i hr
    rwa [hr] at this

/-- An action at which one looks does not fail. -/
theorem attempt (h : Ends I act Q E) :
    Ends I act.attempt (fun x => match x with | .ok a => Q a | .error f => E f) F := by
  refine ⟨fun s hs => ?_, fun s hs f hf => ?_⟩
  · have hkeeps := h.keeps s hs
    have hfails := h.fails s hs
    unfold Action.outcome at hfails
    unfold Action.attempt
    cases hr : act s with
    | ok a t =>
      rw [hr] at hkeeps
      exact hkeeps
    | error f t =>
      rw [hr] at hkeeps hfails
      exact ⟨hkeeps, hfails f rfl⟩
  · unfold Action.outcome Action.attempt at hf
    cases hr : act s with
    | ok a t => simp [hr] at hf
    | error g t => simp [hr] at hf

theorem explain {meaning : Fault → Option Trouble} (h : Ends I act Q E)
    (hm : ∀ f, E f → F (((meaning f).map f.because).getD f)) :
    Ends I (act.explain meaning) Q F := by
  refine h.attempt.bind fun x hx => ?_
  cases x with
  | ok a => exact pure hx
  | error f =>
    have := hm f hx
    dsimp only
    cases hf : meaning f with
    | some t =>
      rw [hf] at this
      exact throw this
    | none =>
      rw [hf] at this
      exact throw this

/-- The action goes on as another one does elsewhere. -/
theorem then_as (h : ∀ s, I s → ∃ other t, act s = other t ∧ I t ∧ Ends I other Q E) :
    Ends I act Q E := by
  refine ⟨fun s hs => ?_, fun s hs f hf => ?_⟩
  · obtain ⟨other, t, hr, ht, hother⟩ := h s hs
    rw [hr]
    exact hother.keeps t ht
  · obtain ⟨other, t, hr, ht, hother⟩ := h s hs
    rw [outcome_congr hr] at hf
    exact hother.fails t ht f hf

end Ends

end AgentFleet.Action
