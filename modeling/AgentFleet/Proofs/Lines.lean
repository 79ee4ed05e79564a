import AgentFleet.Proofs.Texts
import AgentFleet.Settings.File

namespace AgentFleet

namespace Text

/-- All points are blank. -/
def Blank (t : Text) : Prop :=
  ∀ p ∈ t, isBlank p = true

instance (t : Text) : Decidable t.Blank :=
  inferInstanceAs (Decidable (∀ p ∈ t, _))

theorem dropWhile_around {f : α → Bool} {a : α} (h : f a = false) (l r : List α) :
    (l ++ a :: r).dropWhile f = l.dropWhile f ++ a :: r := by
  rw [List.dropWhile_append, List.dropWhile_cons_of_neg (by simp [h])]
  split
  · rename_i hnil
    rw [List.isEmpty_iff.mp hnil, List.nil_append]
  · rfl

theorem rdropWhile_around {f : α → Bool} {a : α} (h : f a = false) (l r : List α) :
    (l ++ a :: r).rdropWhile f = l ++ a :: r.rdropWhile f := by
  unfold List.rdropWhile
  rw [List.reverse_append, List.reverse_cons, List.append_assoc, List.singleton_append,
    dropWhile_around h]
  simp

/-- The blanks that are taken off do not reach beyond a point that is not blank. -/
theorem strip_around {p : Point} (hp : isBlank p = false) (t u : Text) :
    strip (t ++ p :: u) = t.dropWhile isBlank ++ p :: u.rdropWhile isBlank := by
  rw [strip_eq, dropWhile_around hp, rdropWhile_around hp]

theorem strip_eq_nil {t : Text} : strip t = [] ↔ t.Blank := by
  constructor
  · intro h p hp
    by_contra hb
    obtain ⟨u, v, rfl⟩ := List.append_of_mem hp
    rw [strip_around (Bool.eq_false_iff.mpr hb)] at h
    exact List.append_ne_nil_of_right_ne_nil _ (List.cons_ne_nil _ _) h
  · intro h
    rw [strip_eq, List.dropWhile_eq_nil_iff.mpr h]
    rfl

theorem strip_padded {before after : Text} (hb : before.Blank) (ha : after.Blank) (t : Text) :
    strip (before ++ t ++ after) = strip t := by
  by_cases ht : t.Blank
  · rw [strip_eq_nil.mpr ht]
    refine strip_eq_nil.mpr fun p hp => ?_
    rcases List.mem_append.mp hp with hp | hp
    · rcases List.mem_append.mp hp with hp | hp
      · exact hb p hp
      · exact ht p hp
    · exact ha p hp
  · -- a point that is not blank parts what is taken off in front from what is taken off behind
    obtain ⟨p, hp, hblank⟩ : ∃ p ∈ t, ¬ isBlank p = true := by simpa [Blank] using ht
    obtain ⟨u, v, rfl⟩ := List.append_of_mem hp
    have hp : isBlank p = false := Bool.eq_false_iff.mpr hblank
    rw [strip_around hp, List.append_assoc, List.append_assoc, List.cons_append,
      ← List.append_assoc, strip_around hp, List.dropWhile_append_of_pos hb]
    unfold List.rdropWhile
    rw [List.reverse_append, List.dropWhile_append_of_pos (by simpa [Blank] using ha)]

theorem blank_nil : Blank [] :=
  List.forall_mem_nil _

theorem Blank.not_mem {t : Text} {p : Point} (h : t.Blank) (hp : isBlank p = false) : p ∉ t :=
  fun hm => Bool.false_ne_true (hp.symm.trans (h p hm))

theorem Blank.of_append {t u : Text} (h : Blank (t ++ u)) : t.Blank ∧ u.Blank :=
  List.forall_mem_append.mp h

theorem blank_takeWhile (t : Text) : Blank (t.takeWhile isBlank) :=
  fun _ => List.mem_takeWhile_imp

theorem blank_rtakeWhile (t : Text) : Blank (t.rtakeWhile isBlank) :=
  fun _ => List.mem_rtakeWhile_imp

/-- What is taken off both ends is blank. -/
theorem exists_padding (t : Text) :
    ∃ before after : Text, before.Blank ∧ after.Blank ∧ t = before ++ strip t ++ after := by
  refine ⟨_, _, blank_takeWhile t, blank_rtakeWhile (t.dropWhile isBlank), ?_⟩
  rw [strip_eq, List.append_assoc, List.rdropWhile_append_rtakeWhile,
    List.takeWhile_append_dropWhile]

theorem strip_dropWhile (t : Text) : strip (t.dropWhile isBlank) = strip t := by
  have := strip_padded (blank_takeWhile t) blank_nil (t.dropWhile isBlank)
  rwa [List.append_nil, List.takeWhile_append_dropWhile, eq_comm] at this

theorem strip_rdropWhile (t : Text) : strip (t.rdropWhile isBlank) = strip t := by
  have := strip_padded blank_nil (blank_rtakeWhile t) (t.rdropWhile isBlank)
  rwa [List.nil_append, List.rdropWhile_append_rtakeWhile, eq_comm] at this

/-- A text with its lines. The last one need not be ended, if there is something in it. -/
inductive Lined : Text → List Text → Prop
  | nil : Lined [] []
  | last {l : Text} (hne : l ≠ []) (h : l.OneLine) : Lined l [l]
  | line {l e t : Text} {ls : List Text} (h : l.OneLine) (he : LineEnd e t) (ht : Lined t ls) :
      Lined (l ++ e ++ t) (l :: ls)

theorem lines_oneLine {l : Text} (h : l.OneLine) (hne : l ≠ []) : lines l = [l] := by
  induction l with
  | nil => exact absurd rfl hne
  | cons p l ih =>
    obtain ⟨hn, hr⟩ := h
    simp only [List.mem_cons, not_or] at hn hr
    rw [lines_cons (Ne.symm hn.1) (Ne.symm hr.1)]
    cases l with
    | nil => rfl
    | cons q l => rw [ih ⟨hn.2, hr.2⟩ (List.cons_ne_nil q l)]

theorem Lined.lines_eq {t : Text} {ls : List Text} (h : Lined t ls) : lines t = ls := by
  induction h with
  | nil => rfl
  | last hne h => exact lines_oneLine h hne
  | line h he _ ih => rw [lines_ended h he, ih]

/-- A point that ends no line belongs to the first line. -/
theorem Lined.cons {p : Point} {t l : Text} {ls : List Text} (hn : p ≠ .char '\n')
    (hr : p ≠ .char '\r') (h : Lined t (l :: ls)) : Lined (p :: t) ((p :: l) :: ls) := by
  cases h with
  | last _ h => exact .last (List.cons_ne_nil _ _) (h.cons hn hr)
  | line h he ht => exact .line (h.cons hn hr) he ht

theorem lined_lines (t : Text) : Lined t (lines t) := by
  have hnil : Text.OneLine [] := by simp [OneLine]
  fun_induction lines t with
  | case1 => exact .nil
  | case2 r ih => exact .line hnil .feed ih
  | case3 r ih => exact .line hnil .both ih
  | case4 r hr ih =>
    refine .line hnil (.carriageReturn fun h => ?_) ih
    obtain ⟨r', rfl⟩ := List.head?_eq_some_iff.mp h
    exact hr r' rfl
  | case5 p r hn _ hr l ls he ih =>
    rw [he] at ih
    exact ih.cons hn hr
  | case6 p r hn _ hr he ih =>
    rw [he] at ih
    cases ih
    exact .last (List.cons_ne_nil _ _) (hnil.cons hn hr)

/-- The text is empty or ends in a line feed. -/
def EndsLine (t : Text) : Prop :=
  t = [] ∨ t.getLast? = some (.char '\n')

instance (t : Text) : Decidable t.EndsLine :=
  inferInstanceAs (Decidable (_ ∨ _))

theorem EndsLine.rest {before t : Text} (h : EndsLine (before ++ t)) : t.EndsLine := by
  by_cases ht : t = []
  · exact .inl ht
  · rcases h with h | h
    · exact absurd (List.append_eq_nil_iff.mp h).2 ht
    · rw [List.getLast?_append_of_ne_nil _ ht] at h
      exact .inr h

/-- A line that ends in a carriage return is not the last one before a text that is written
behind. -/
theorem LineEnd.append {l e t : Text} (h : LineEnd e t) (ha : EndsLine (l ++ e ++ t)) (b : Text) :
    LineEnd e (t ++ b) := by
  cases h with
  | feed => exact .feed
  | both => exact .both
  | carriageReturn hr =>
    cases t with
    | nil => simp [EndsLine] at ha
    | cons p t => exact .carriageReturn hr

/-- Behind a text that ends its last line, lines go on as in a text of their own. -/
theorem lines_append {a : Text} (ha : a.EndsLine) (b : Text) :
    lines (a ++ b) = lines a ++ lines b := by
  have hlined := lined_lines a
  generalize lines a = ls at hlined
  -- by induction on the lines of `a`; a last one that is not ended would go on in `b`
  induction hlined with
  | nil => rfl
  | last hne h =>
    rcases ha with ha | ha
    · exact absurd ha hne
    · exact absurd (List.mem_of_getLast? ha) h.1
  | line h he _ ih =>
    rw [List.append_assoc, lines_ended h (he.append ha b), ih ha.rest, List.cons_append]

/-- Lines with their numbers, the first being `n`. -/
def numberedFrom (n : Nat) (ls : List Text) : List (Nat × Text) :=
  (ls.zipIdx n).map Prod.swap

theorem numbered_eq (ls : List Text) : numbered ls = numberedFrom 1 ls := rfl

theorem numberedFrom_cons (n : Nat) (l : Text) (ls : List Text) :
    numberedFrom n (l :: ls) = (n, l) :: numberedFrom (n + 1) ls := rfl

end Text

/-- What the lines of a text hold, where each one may hold something, or is at fault with its
number. The first line that is at fault ends it. -/
def gather (item : Text → Except (Nat → Fault) (Option α)) :
    (n : Nat) → List Text → Except Fault (List α)
  | _, [] => .ok []
  | n, line :: rest =>
    match item line with
    | .ok a => (gather item (n + 1) rest).map (a.toList ++ ·)
    | .error fault => .error (fault n)

section Gathering

variable {item : Text → Except (Nat → Fault) (Option α)} {line : Text}

theorem gather_ok {a : Option α} (h : item line = .ok a) (n : Nat) (rest : List Text) :
    gather item n (line :: rest) = (gather item (n + 1) rest).map (a.toList ++ ·) := by
  rw [gather, h]

theorem gather_error {fault : Nat → Fault} (h : item line = .error fault) (n : Nat)
    (rest : List Text) : gather item n (line :: rest) = .error (fault n) := by
  rw [gather, h]

theorem gather_map {value : β → Option α} {write : β → Text} {l : List β}
    (h : ∀ b ∈ l, item (write b) = .ok (value b)) (n : Nat) :
    gather item n (l.map write) = .ok (l.filterMap value) := by
  induction l generalizing n with
  | nil => rfl
  | cons b l ih =>
    obtain ⟨hb, hl⟩ := List.forall_mem_cons.mp h
    rw [List.map_cons, gather_ok hb, ih hl, List.filterMap_cons]
    cases value b <;> rfl

theorem of_mem_gather {n : Nat} {ls : List Text} {held : List α} (h : gather item n ls = .ok held) :
    ∀ a ∈ held, ∃ line, item line = .ok (some a) := by
  induction ls generalizing n held with
  | nil =>
    cases h
    exact List.forall_mem_nil _
  | cons line rest ih =>
    cases hline : item line with
    | error fault =>
      rw [gather_error hline] at h
      cases h
    | ok b =>
      rw [gather_ok hline] at h
      cases hrest : gather item (n + 1) rest with
      | error f =>
        rw [hrest] at h
        cases h
      | ok more =>
        rw [hrest] at h
        cases h
        intro a ha
        rcases List.mem_append.mp ha with ha | ha
        · exact ⟨line, hline.trans (congrArg Except.ok (Option.mem_toList.mp ha))⟩
        · exact ih hrest a ha

/-- Either no line is at fault, or there is a first one. -/
theorem gather_cases (item : Text → Except (Nat → Fault) (Option α)) (n : Nat) (ls : List Text) :
    (∃ held, List.Forall₂ (fun line a => item line = .ok a) ls held ∧
      gather item n ls = .ok held.reduceOption) ∨
    ∃ before line after fault, ls = before ++ line :: after ∧
      (∀ l ∈ before, ∃ a, item l = .ok a) ∧ item line = .error fault ∧
      gather item n ls = .error (fault (n + before.length)) := by
  induction ls generalizing n with
  | nil => exact .inl ⟨[], .nil, rfl⟩
  | cons line rest ih =>
    cases hline : item line with
    | error fault =>
      exact .inr ⟨[], line, rest, fault, rfl, List.forall_mem_nil _, hline,
        gather_error hline n rest⟩
    | ok a =>
      rw [gather_ok hline]
      rcases ih (n + 1) with ⟨held, hheld, hrun⟩ | ⟨before, bad, after, fault, rfl, hb, hbad, hrun⟩
      · refine .inl ⟨a :: held, .cons hline hheld, ?_⟩
        rw [hrun]
        cases a <;> rfl
      · refine .inr ⟨line :: before, bad, after, fault, rfl,
          List.forall_mem_cons.mpr ⟨⟨a, hline⟩, hb⟩, hbad, ?_⟩
        rw [hrun, List.length_cons, Nat.add_assoc, Nat.add_comm 1]
        rfl

end Gathering

/-- A trouble in a line, when there are `above` more lines before it. -/
def Trouble.below (above : Nat) : Trouble → Trouble
  | .agentsFile path reason (some n) => .agentsFile path reason (some (n + above))
  | .configuration (.badLine n path text) => .configuration (.badLine (n + above) path text)
  | t => t

def Fault.below (above : Nat) (f : Fault) : Fault :=
  { f with trouble := f.trouble.below above }

/-- What comes of a text, from what comes of two texts that it consists of. The first one has this
many lines. -/
inductive Joins (merge : α → α → α) (above : Nat) :
    (first second whole : Except Fault α) → Prop
  | both {a b : α} : Joins merge above (.ok a) (.ok b) (.ok (merge a b))
  | first {f : Fault} {second : Except Fault α} : Joins merge above (.error f) second (.error f)
  | second {a : α} {f : Fault} : Joins merge above (.ok a) (.error f) (.error (f.below above))

namespace Joins

variable {above : Nat} {first second whole : Except Fault α}

theorem map {merge : α → α → α} {merge' : β → β → β} {g : α → β}
    (h : Joins merge above first second whole) (hg : ∀ a b, merge' (g a) (g b) = g (merge a b)) :
    Joins merge' above (first.map g) (second.map g) (whole.map g) := by
  cases h with
  | both =>
    simp only [Except.map, ← hg]
    exact .both
  | first => exact .first
  | second => exact .second

end Joins

theorem gather_append (item : Text → Except (Nat → Fault) (Option α)) (n : Nat)
    (ls more : List Text) :
    gather item n (ls ++ more) = gather item n ls >>= fun held =>
      (gather item (n + ls.length) more).map (held ++ ·) := by
  induction ls generalizing n with
  | nil =>
    change gather item n more = (gather item n more).map fun l => l
    cases gather item n more <;> rfl
  | cons line rest ih =>
    rw [List.cons_append]
    cases hline : item line with
    | error fault =>
      rw [gather_error hline, gather_error hline]
      rfl
    | ok a =>
      rw [gather_ok hline, gather_ok hline, ih, List.length_cons, Nat.add_assoc, Nat.add_comm 1]
      cases gather item (n + 1) rest with
      | error f => rfl
      | ok held =>
        change ((gather item (n + (rest.length + 1)) more).map _).map _ =
          (gather item (n + (rest.length + 1)) more).map _
        cases gather item (n + (rest.length + 1)) more with
        | error f => rfl
        | ok more => exact congrArg Except.ok (List.append_assoc ..).symm

theorem gather_below {item : Text → Except (Nat → Fault) (Option α)} {above : Nat}
    (hitem : ∀ line fault, item line = .error fault →
      ∀ n, fault (n + above) = (fault n).below above) (n : Nat) (ls : List Text) :
    gather item (n + above) ls = (gather item n ls).mapError (Fault.below above) := by
  induction ls generalizing n with
  | nil => rfl
  | cons line rest ih =>
    cases hline : item line with
    | error fault =>
      rw [gather_error hline, gather_error hline, hitem line fault hline]
      rfl
    | ok a =>
      rw [gather_ok hline, gather_ok hline, Nat.add_right_comm, ih]
      cases gather item (n + 1) rest <;> rfl

/-- The lines of two texts, one behind the other, hold what those of the one and then those of the
other do. -/
theorem joins_gather {item : Text → Except (Nat → Fault) (Option α)}
    (hitem : ∀ line fault, item line = .error fault →
      ∀ n above, fault (n + above) = (fault n).below above) (n : Nat) (ls more : List Text) :
    Joins (· ++ ·) ls.length (gather item n ls) (gather item n more)
      (gather item n (ls ++ more)) := by
  rw [gather_append, gather_below fun line fault h n => hitem line fault h n _]
  cases gather item n ls with
  | error f => exact .first
  | ok held =>
    cases gather item n more with
    | error f => exact .second
    | ok more => exact .both

namespace Disk.Store

/-- There is a file with a text where the path leads. -/
def Holds (s : Store) (path text : Text) : Prop :=
  s.read (s.expand path) = .ok (.text text)

/-- A disk with a text in the one file "a". -/
def holding (t : Text) : Store :=
  ⟨.root, [([[97]], .file (.text t))], []⟩

theorem holds_holding (t : Text) : (holding t).Holds "a" t := rfl

end Disk.Store

end AgentFleet
