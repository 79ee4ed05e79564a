namespace AgentFleet

/-- Set a key; a key that is there already keeps its place and loses its value. -/
def setEntry [BEq κ] : List (κ × α) → κ → α → List (κ × α)
  | [], key, a => [(key, a)]
  | (k, b) :: rest, key, a =>
    if key == k then (key, a) :: rest else (k, b) :: setEntry rest key a

def eraseEntry [BEq κ] (entries : List (κ × α)) (key : κ) : List (κ × α) :=
  entries.filter (·.1 != key)

theorem lookup_setEntry [BEq κ] [LawfulBEq κ] (entries : List (κ × α)) (key q : κ) (a : α) :
    (setEntry entries key a).lookup q = if q == key then some a else entries.lookup q := by
  induction entries with
  | nil => cases h : q == key <;> simp [setEntry, List.lookup_cons, h]
  | cons e rest ih =>
    obtain ⟨k, b⟩ := e
    by_cases hk : key = k
    · subst hk
      cases h : q == key <;> simp [setEntry, List.lookup_cons, h]
    · have hne : (key == k) = false := by simpa using hk
      simp only [setEntry, hne, Bool.false_eq_true, if_false, List.lookup_cons]
      cases hq : q == k
      · simpa using ih
      · have : q = k := by simpa using hq
        subst this
        have : (q == key) = false := by simpa using Ne.symm hk
        simp [this]

/-- A key that is not there comes last. -/
theorem setEntry_fresh [BEq κ] [LawfulBEq κ] {entries : List (κ × α)} {key : κ}
    (h : key ∉ entries.map (·.1)) (a : α) : setEntry entries key a = entries ++ [(key, a)] := by
  induction entries with
  | nil => rfl
  | cons e rest ih =>
    rw [List.map_cons, List.mem_cons, not_or] at h
    rw [setEntry, if_neg (by simpa using h.1), ih h.2, List.cons_append]

theorem forall_setEntry [BEq κ] {P : κ × α → Prop} {entries : List (κ × α)} {key : κ} {a : α}
    (h : ∀ e ∈ entries, P e) (ha : P (key, a)) : ∀ e ∈ setEntry entries key a, P e := by
  induction entries with
  | nil => simpa [setEntry] using ha
  | cons e rest ih =>
    obtain ⟨he, hrest⟩ := List.forall_mem_cons.mp h
    rw [setEntry]
    split
    · exact List.forall_mem_cons.mpr ⟨ha, hrest⟩
    · exact List.forall_mem_cons.mpr ⟨he, ih hrest⟩

/-- A key that is set again keeps its one place. -/
theorem nodup_setEntry [BEq κ] [LawfulBEq κ] {entries : List (κ × α)} {key : κ} {a : α}
    (h : (entries.map (·.1)).Nodup) : ((setEntry entries key a).map (·.1)).Nodup := by
  induction entries with
  | nil => simp [setEntry]
  | cons e rest ih =>
    obtain ⟨he, hrest⟩ := List.nodup_cons.mp h
    rw [setEntry]
    split
    · rename_i hkey
      rw [beq_iff_eq] at hkey
      subst hkey
      exact h
    · rename_i hkey
      refine List.nodup_cons.mpr ⟨?_, ih hrest⟩
      have hne : ∀ d ∈ setEntry rest key a, d.1 ≠ e.1 := by
        apply forall_setEntry
        · intro d hd heq
          exact he (List.mem_map.mpr ⟨d, hd, heq⟩)
        · simpa using hkey
      intro hmem
      obtain ⟨d, hd, heq⟩ := List.mem_map.mp hmem
      exact hne d hd heq

theorem lookup_eraseEntry [BEq κ] [LawfulBEq κ] (entries : List (κ × α)) (key q : κ) :
    (eraseEntry entries key).lookup q = if q == key then none else entries.lookup q := by
  unfold eraseEntry
  induction entries with
  | nil => simp
  | cons e rest ih =>
    obtain ⟨k, b⟩ := e
    by_cases hk : k = key
    · subst hk
      simp only [List.filter_cons, bne_self_eq_false, Bool.false_eq_true, if_false,
        List.lookup_cons]
      rw [ih]
      cases q == k <;> simp
    · have hne : (k != key) = true := by simpa using hk
      simp only [List.filter_cons, hne, if_true, List.lookup_cons]
      cases hq : q == k
      · simpa using ih
      · have : q = k := by simpa using hq
        subst this
        have : (q == key) = false := by simpa using hk
        simp [this]

end AgentFleet
