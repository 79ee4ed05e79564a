import AgentFleet.Fields
import AgentFleet.Text.Blank
import AgentFleet.Text.Line
import AgentFleet.Text.Numeral
import Mathlib.Data.List.DropRight

namespace AgentFleet

namespace Text

/-- A text with no blank at either end. -/
structure Tight (t : Text) : Prop where
  head : ∀ p, t.head? = some p → isBlank p = false
  last : ∀ p, t.getLast? = some p → isBlank p = false

theorem strip_eq (t : Text) : strip t = (t.dropWhile isBlank).rdropWhile isBlank := rfl

theorem strip_subset {t : Text} {p : Point} (h : p ∈ strip t) : p ∈ t := by
  rw [strip_eq] at h
  exact List.dropWhile_subset _ ((List.rdropWhile_prefix isBlank _).subset h)

theorem tight_strip (t : Text) : (strip t).Tight := by
  rw [strip_eq]
  constructor
  · intro p hp
    have hd : (t.dropWhile isBlank).head? = some p := by
      obtain ⟨rest, hr⟩ := List.rdropWhile_prefix isBlank (t.dropWhile isBlank)
      rw [← hr, List.head?_append, hp]
      rfl
    have := List.head?_dropWhile_not isBlank t
    rw [hd] at this
    simpa using this
  · intro p hp
    have hne : (t.dropWhile isBlank).rdropWhile isBlank ≠ [] := by
      intro e
      simp [e] at hp
    have := List.rdropWhile_last_not isBlank (t.dropWhile isBlank) hne
    rw [List.getLast?_eq_getLast_of_ne_nil hne] at hp
    rw [Option.some.inj hp] at this
    simpa using this

theorem Tight.strip {t : Text} (h : t.Tight) : Text.strip t = t := by
  have hd : t.dropWhile isBlank = t := by
    cases t with
    | nil => rfl
    | cons p r => exact List.dropWhile_cons_of_neg (by simp [h.head p rfl])
  rw [strip_eq, hd, List.rdropWhile_eq_self_iff]
  intro hl
  simp [h.last _ (List.getLast?_eq_getLast_of_ne_nil hl)]

theorem strip_eq_self {t : Text} : strip t = t ↔ t.Tight :=
  ⟨fun h => h ▸ tight_strip t, Tight.strip⟩

theorem strip_strip (t : Text) : strip (strip t) = strip t :=
  (tight_strip t).strip

/-- A text keeps a first point that is not blank. -/
theorem head?_strip {t : Text} {p : Point} (h : t.head? = some p) (hp : isBlank p = false) :
    (strip t).head? = some p := by
  obtain ⟨r, rfl⟩ : ∃ r, t = p :: r := by
    cases t with
    | nil => cases h
    | cons q r => exact ⟨r, by rw [Option.some.inj h]⟩
  have hd : (p :: r).dropWhile isBlank = p :: r := List.dropWhile_cons_of_neg (by simp [hp])
  have hne : (p :: r).rdropWhile isBlank ≠ [] := by
    intro e
    have := List.rdropWhile_eq_nil_iff.mp e p (by simp)
    rw [hp] at this
    cases this
  obtain ⟨rest, hr⟩ := List.rdropWhile_prefix isBlank (p :: r)
  rw [strip_eq, hd]
  obtain ⟨q, u, hu⟩ := List.exists_cons_of_ne_nil hne
  rw [hu] at hr ⊢
  rw [List.cons_append] at hr
  rw [(List.cons.inj hr).1]
  rfl

/-- What is put between texts with tight ends does not matter to the ends. -/
theorem Tight.append {t u : Text} (ht : t.Tight) (hu : u.Tight) (h : t ≠ []) (h' : u ≠ [])
    (between : Text) : (t ++ between ++ u).Tight := by
  obtain ⟨p, r, rfl⟩ := List.exists_cons_of_ne_nil h
  constructor
  · intro q hq
    exact ht.head q (by simpa using hq)
  · intro q hq
    rw [List.getLast?_append, List.getLast?_eq_getLast_of_ne_nil h'] at hq
    exact hu.last q (by rw [List.getLast?_eq_getLast_of_ne_nil h']; simpa using hq)

/-- A text without line ends. -/
def OneLine (t : Text) : Prop :=
  .char '\n' ∉ t ∧ .char '\r' ∉ t

theorem lines_cons {p : Point} (hn : p ≠ .char '\n') (hr : p ≠ .char '\r') (r : Text) :
    lines (p :: r) = match lines r with
      | l :: ls => (p :: l) :: ls
      | [] => [[p]] := by
  rw [lines]
  all_goals first
    | rfl
    | exact hn
    | exact hr
    | exact fun _ e _ => hr e

/-- What ends a line before this text: a carriage return and a line feed do so together. -/
inductive LineEnd : Text → Text → Prop
  | feed {t : Text} : LineEnd [.char '\n'] t
  | both {t : Text} : LineEnd [.char '\r', .char '\n'] t
  | carriageReturn {t : Text} (h : t.head? ≠ some (.char '\n')) : LineEnd [.char '\r'] t

/-- A line that is ended is the first line. -/
theorem lines_ended {l e t : Text} (h : l.OneLine) (he : LineEnd e t) :
    lines (l ++ e ++ t) = l :: lines t := by
  induction l with
  | nil =>
    cases he with
    | feed | both => rfl
    | carriageReturn hr =>
      rw [List.nil_append, List.singleton_append, lines]
      rintro r rfl
      exact hr rfl
  | cons p l ih =>
    obtain ⟨hn, hr⟩ := h
    simp only [List.mem_cons, not_or] at hn hr
    rw [List.cons_append, List.cons_append, lines_cons (Ne.symm hn.1) (Ne.symm hr.1),
      ih ⟨hn.2, hr.2⟩]

theorem lines_line {l : Text} (h : l.OneLine) (r : Text) :
    lines (l ++ .char '\n' :: r) = l :: lines r := by
  rw [← lines_ended h .feed, List.append_assoc, List.singleton_append]

theorem OneLine.cons {p : Point} {l : Text} (hn : p ≠ .char '\n') (hr : p ≠ .char '\r')
    (h : l.OneLine) : Text.OneLine (p :: l) := by
  constructor
  · simpa [List.mem_cons, Ne.symm hn] using h.1
  · simpa [List.mem_cons, Ne.symm hr] using h.2

theorem oneLine_of_mem_lines {t l : Text} (h : l ∈ lines t) : l.OneLine := by
  have hnil : Text.OneLine [] := by simp [OneLine]
  fun_induction lines t generalizing l with
  | case1 => simp at h
  | case2 r ih =>
    rcases List.mem_cons.mp h with rfl | h
    · exact hnil
    · exact ih h
  | case3 r ih =>
    rcases List.mem_cons.mp h with rfl | h
    · exact hnil
    · exact ih h
  | case4 r _ ih =>
    rcases List.mem_cons.mp h with rfl | h
    · exact hnil
    · exact ih h
  | case5 p r hn hrn hr l' ls he ih =>
    rcases List.mem_cons.mp h with rfl | h
    · exact (ih (he ▸ List.mem_cons_self)).cons hn hr
    · exact ih (he ▸ List.mem_cons_of_mem _ h)
  | case6 p r hn hrn hr he ih =>
    rw [List.mem_singleton.mp h]
    exact hnil.cons hn hr

end Text

section Fields

variable [DecidableEq α] {separator : α}

theorem fields_piece {l : List α} (h : separator ∉ l) : fields separator l = [l] := by
  induction l with
  | nil => rfl
  | cons a l ih =>
    simp only [List.mem_cons, not_or] at h
    rw [fields, if_neg (Ne.symm h.1), ih h.2]

/-- A piece that is ended by a separator is the first piece. -/
theorem fields_append {l : List α} (h : separator ∉ l) (r : List α) :
    fields separator (l ++ separator :: r) = l :: fields separator r := by
  induction l with
  | nil => rw [List.nil_append, fields, if_pos rfl]
  | cons a l ih =>
    simp only [List.mem_cons, not_or] at h
    rw [List.cons_append, fields, if_neg (Ne.symm h.1), ih h.2]

theorem not_mem_of_mem_fields {l f : List α} (h : f ∈ fields separator l) : separator ∉ f := by
  induction l generalizing f with
  | nil => simp_all [fields]
  | cons a l ih =>
    rw [fields] at h
    split at h
    · rcases List.mem_cons.mp h with rfl | h
      · simp
      · exact ih h
    · rename_i ha
      split at h
      · rename_i g gs he
        rcases List.mem_cons.mp h with rfl | h
        · have := ih (he ▸ List.mem_cons_self)
          simpa [Ne.symm ha] using this
        · exact ih (he ▸ List.mem_cons_of_mem _ h)
      · rw [List.mem_singleton.mp h]
        simpa using Ne.symm ha

theorem subset_of_mem_fields {l f : List α} (h : f ∈ fields separator l) : ∀ a ∈ f, a ∈ l := by
  induction l generalizing f with
  | nil => simp_all [fields]
  | cons a l ih =>
    intro b hb
    rw [fields] at h
    split at h
    · rcases List.mem_cons.mp h with rfl | h
      · cases hb
      · exact List.mem_cons_of_mem _ (ih h b hb)
    · split at h
      · rename_i g gs he
        rcases List.mem_cons.mp h with rfl | h
        · rcases List.mem_cons.mp hb with rfl | hb
          · exact List.mem_cons_self
          · exact List.mem_cons_of_mem _ (ih (he ▸ List.mem_cons_self) b hb)
        · exact List.mem_cons_of_mem _ (ih (he ▸ List.mem_cons_of_mem _ h) b hb)
      · rw [List.mem_singleton.mp h] at hb
        simp [List.mem_singleton.mp hb]

/-- The first piece starts where the list starts. -/
theorem head_fields {l f : List α} {fs : List (List α)} (h : fields separator l = f :: fs)
    (hf : f ≠ []) : f.head? = l.head? := by
  cases l with
  | nil => simp_all [fields]
  | cons a l =>
    rw [fields] at h
    split at h
    · exact absurd (List.cons.inj h).1.symm hf
    · split at h <;> rw [← (List.cons.inj h).1] <;> rfl

end Fields

namespace Text

theorem length_toDigits_foldl {ds : List Nat} (h : ∀ d ∈ ds, d < 10) (n : Nat) :
    (Nat.toDigits 10 (ds.foldl (fun n d => 10 * n + d) n)).length ≤
      (Nat.toDigits 10 n).length + ds.length := by
  induction ds generalizing n with
  | nil => exact Nat.le_refl _
  | cons d rest ih =>
    obtain ⟨hd, hrest⟩ := List.forall_mem_cons.mp h
    have hone : (Nat.toDigits 10 d).length = 1 := by
      rw [Nat.toDigits_of_lt_base hd, List.length_singleton]
    have hstep : (Nat.toDigits 10 (10 * n + d)).length ≤ (Nat.toDigits 10 n).length + 1 := by
      cases n with
      | zero =>
        rw [Nat.mul_zero, Nat.zero_add, hone]
        exact Nat.le_add_left _ _
      | succ n =>
        rw [← Nat.toDigits_append_toDigits (by decide) (Nat.succ_pos n) hd, List.length_append,
          hone]
    have := ih hrest (10 * n + d)
    rw [List.foldl_cons, List.length_cons]
    omega

theorem length_toDigits_ofDigits {ds : List Nat} (h : ∀ d ∈ ds, d < 10) (hne : ds ≠ []) :
    (Nat.toDigits 10 (ofDigits ds)).length ≤ ds.length := by
  obtain ⟨d, rest, rfl⟩ := List.exists_cons_of_ne_nil hne
  obtain ⟨hd, hrest⟩ := List.forall_mem_cons.mp h
  have := length_toDigits_foldl hrest d
  rw [Nat.toDigits_of_lt_base hd, List.length_singleton, Nat.add_comm] at this
  simpa [ofDigits] using this

end Text

end AgentFleet
