import AgentFleet.Action

namespace AgentFleet

theorem except_bind_eq_ok {x : Except ε α} {f : α → Except ε β} {b : β} :
    x >>= f = .ok b ↔ ∃ a, x = .ok a ∧ f a = .ok b := by
  cases x <;> simp [bind, Except.bind]

theorem except_bind_eq_error {x : Except ε α} {f : α → Except ε β} {e : ε} :
    x >>= f = .error e ↔ x = .error e ∨ ∃ a, x = .ok a ∧ f a = .error e := by
  cases x <;> simp [bind, Except.bind]

theorem except_map_eq_ok {x : Except ε α} {f : α → β} {b : β} :
    x.map f = .ok b ↔ ∃ a, x = .ok a ∧ f a = b := by
  cases x <;> simp [Except.map]

theorem mapError_eq_ok {x : Except ε α} {f : ε → ε'} {a : α} :
    x.mapError f = .ok a ↔ x = .ok a := by
  cases x with
  | ok b =>
    constructor
    · intro h
      cases h
      rfl
    · intro h
      cases h
      rfl
  | error e =>
    constructor
    · intro h
      cases h
    · intro h
      cases h

theorem mapError_eq_error {x : Except ε α} {f : ε → ε'} {e : ε'} :
    x.mapError f = .error e ↔ ∃ d, x = .error d ∧ f d = e := by
  cases x with
  | ok a =>
    constructor
    · intro h
      cases h
    · rintro ⟨d, h, _⟩
      cases h
  | error d =>
    constructor
    · intro h
      exact ⟨d, rfl, Except.error.inj h⟩
    · rintro ⟨d, ⟨⟩, rfl⟩
      rfl

/-- What is made of the members of a list comes of members. -/
theorem mem_of_mapM {f : α → Except ε β} {l : List α} {l' : List β} (h : l.mapM f = .ok l') :
    ∀ b ∈ l', ∃ a ∈ l, f a = .ok b := by
  induction l generalizing l' with
  | nil =>
    cases h
    simp
  | cons a rest ih =>
    rw [List.mapM_cons] at h
    obtain ⟨b, hb, h⟩ := except_bind_eq_ok.mp h
    obtain ⟨bs, hbs, h⟩ := except_bind_eq_ok.mp h
    cases h
    intro c hc
    rcases List.mem_cons.mp hc with rfl | hc
    · exact ⟨a, List.mem_cons_self, hb⟩
    · obtain ⟨a', ha', hf⟩ := ih hbs c hc
      exact ⟨a', List.mem_cons_of_mem _ ha', hf⟩

theorem mem_of_mapM_error {f : α → Except ε β} {l : List α} {e : ε} (h : l.mapM f = .error e) :
    ∃ a ∈ l, f a = .error e := by
  induction l with
  | nil => cases h
  | cons a rest ih =>
    rw [List.mapM_cons] at h
    rcases except_bind_eq_error.mp h with ha | ⟨b, _, h⟩
    · exact ⟨a, List.mem_cons_self, ha⟩
    · rcases except_bind_eq_error.mp h with hrest | ⟨bs, _, h⟩
      · obtain ⟨a', ha', he⟩ := ih hrest
        exact ⟨a', List.mem_cons_of_mem _ ha', he⟩
      · cases h

theorem mapM_ok {f : α → Except ε β} {P : α → Prop} {Q : β → Prop} {l : List α}
    (hf : ∀ a, P a → ∃ b, f a = .ok b ∧ Q b) (h : ∀ a ∈ l, P a) :
    ∃ l', l.mapM f = .ok l' ∧ ∀ b ∈ l', Q b := by
  induction l with
  | nil => exact ⟨[], rfl, List.forall_mem_nil _⟩
  | cons a rest ih =>
    obtain ⟨b, hb, hq⟩ := hf a (h a List.mem_cons_self)
    obtain ⟨bs, hbs, hqs⟩ := ih fun c hc => h c (List.mem_cons_of_mem a hc)
    exact ⟨b :: bs, by rw [List.mapM_cons, hb, hbs]; rfl, List.forall_mem_cons.mpr ⟨hq, hqs⟩⟩

/-- A situation with nothing to come: no answers, no wish to stop, no trouble with hosts. -/
def Situation.bare (disk : Disk.Store) (roster : Roster) : Situation :=
  ⟨disk, roster, fun _ => [], fun _ => [], [], fun _ => true, fun _ => .sound, fun _ _ => .ok (),
    .never, .warning, []⟩

namespace Action

variable {s t : Situation}

/-- The situation after an action, whether it fails or not. -/
def after (act : Action α) (s : Situation) : Situation :=
  match act s with
  | .ok _ t => t
  | .error _ t => t

/-- What comes of an action. -/
def outcome (act : Action α) (s : Situation) : Except Fault α :=
  match act s with
  | .ok a _ => .ok a
  | .error f _ => .error f

@[simp] theorem pure_run (a : α) : (pure a : Action α) s = .ok a s := rfl

@[simp] theorem throw_run (f : Fault) : (throw f : Action α) s = .error f s := rfl

@[simp] theorem modify_run (g : Situation → Situation) :
    (modify g : Action Unit) s = .ok () (g s) := rfl

@[simp] theorem get_bind_run (f : Situation → Action α) : (get >>= f) s = f s s := rfl

@[simp] theorem ofExcept_ok_run (a : α) : (ofExcept (.ok a) : Action α) s = .ok a s := rfl

@[simp] theorem ofExcept_error_run (f : Fault) :
    (ofExcept (.error f) : Action α) s = .error f s := rfl

theorem bind_eq_ok {act : Action α} {f : α → Action β} {b : β} :
    (act >>= f) s = .ok b t ↔ ∃ a u, act s = .ok a u ∧ f a u = .ok b t := by
  change EStateM.bind act f s = _ ↔ _
  unfold EStateM.bind
  cases act s with
  | ok a u =>
    refine ⟨fun h => ⟨a, u, rfl, h⟩, ?_⟩
    rintro ⟨a', u', he, h⟩
    cases he
    exact h
  | error f u => simp

theorem bind_eq_error {act : Action α} {f : α → Action β} {e : Fault} :
    (act >>= f) s = .error e t ↔
      act s = .error e t ∨ ∃ a u, act s = .ok a u ∧ f a u = .error e t := by
  change EStateM.bind act f s = _ ↔ _
  unfold EStateM.bind
  cases act s with
  | ok a u =>
    refine ⟨fun h => .inr ⟨a, u, rfl, h⟩, ?_⟩
    rintro (he | ⟨a', u', he, h⟩)
    · cases he
    · cases he
      exact h
  | error f u => simp

theorem outcome_congr {act other : Action α} (h : act s = other t) :
    act.outcome s = other.outcome t := by
  unfold outcome
  rw [h]

theorem after_congr {act other : Action α} (h : act s = other t) :
    act.after s = other.after t := by
  unfold after
  rw [h]

theorem after_of_ok {act : Action α} {a : α} (h : act s = .ok a t) : act.after s = t := by
  rw [after, h]

theorem after_of_error {act : Action α} {f : Fault} (h : act s = .error f t) :
    act.after s = t := by
  rw [after, h]

theorem run_ok {act : Action α} {a : α} (h : act.outcome s = .ok a) :
    act s = .ok a (act.after s) := by
  unfold outcome at h
  unfold after
  cases hr : act s with
  | ok b t =>
    rw [hr] at h
    cases h
    rfl
  | error f t =>
    rw [hr] at h
    cases h

theorem run_error {act : Action α} {f : Fault} (h : act.outcome s = .error f) :
    act s = .error f (act.after s) := by
  unfold outcome at h
  unfold after
  cases hr : act s with
  | ok b t =>
    rw [hr] at h
    cases h
  | error g t =>
    rw [hr] at h
    cases h
    rfl

theorem bind_run {act : Action α} {f : α → Action β} {a : α} (h : act s = .ok a t) :
    (act >>= f) s = f a t := by
  change EStateM.bind act f s = _
  unfold EStateM.bind
  rw [h]

theorem bind_run_congr {act other : Action α} {f : α → Action β} (h : act s = other s) :
    (act >>= f) s = (other >>= f) s := by
  change EStateM.bind act f s = EStateM.bind other f s
  unfold EStateM.bind
  rw [h]

theorem bind_run_error {act : Action α} {f : α → Action β} {e : Fault}
    (h : act s = .error e t) : (act >>= f) s = .error e t := by
  change EStateM.bind act f s = _
  unfold EStateM.bind
  rw [h]

theorem ofExcept_eq_ok {x : Except Fault α} {a : α} :
    (ofExcept x : Action α) s = .ok a t ↔ x = .ok a ∧ t = s := by
  cases x with
  | ok b =>
    rw [ofExcept_ok_run]
    constructor
    · intro h
      cases h
      exact ⟨rfl, rfl⟩
    · rintro ⟨h, rfl⟩
      cases h
      rfl
  | error f => simp

theorem ofExcept_eq_error {x : Except Fault α} {f : Fault} :
    (ofExcept x : Action α) s = .error f t ↔ x = .error f ∧ t = s := by
  cases x with
  | ok b => simp
  | error g =>
    rw [ofExcept_error_run]
    constructor
    · intro h
      cases h
      exact ⟨rfl, rfl⟩
    · rintro ⟨h, rfl⟩
      cases h
      rfl

theorem modify_bind_run (g : Situation → Situation) (f : Unit → Action α) :
    (modify g >>= f) s = f () (g s) := rfl

end Action

end AgentFleet
