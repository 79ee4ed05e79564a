import AgentFleet.Proofs.Passing

namespace AgentFleet.Disk

/-- Texts that are added one after another stand one after another. -/
theorem Content.foldl_add (t : Text) (texts : List Text) :
    texts.foldl Content.add (.text t) = .text (t ++ texts.flatten) := by
  induction texts generalizing t with
  | nil => simp
  | cons u rest ih =>
    rw [List.foldl_cons, Content.add, ih, List.flatten_cons, List.append_assoc]

namespace Store

variable {s : Store} {p : Place}

theorem locateFile_eq_ok {path : List UInt8} (h : s.locateFile path = .ok p) :
    s.locate path = .ok p := by
  unfold locateFile at h
  unfold locate
  split at h
  · obtain ⟨_, _, h⟩ := except_bind_eq_ok.mp h
    cases h
  · rename_i hfile
    rw [if_neg hfile, List.append_nil]
    exact h

theorem locateWritable_eq_ok {path : List UInt8} (h : s.locateWritable path = .ok p) :
    s.locate path = .ok p ∧ s.node? p ≠ some .directory := by
  unfold locateWritable at h
  obtain ⟨q, hq, h⟩ := except_bind_eq_ok.mp h
  split at h
  · cases h
  · rename_i hdirectory
    cases h
    exact ⟨locateFile_eq_ok hq, hdirectory⟩

theorem leads_of_writable {path : Text} (h : answered path s.locateWritable = .ok p) :
    s.Leads path p ∧ s.node? p ≠ some .directory := by
  obtain ⟨bytes, hbytes, hwritable⟩ := answered_eq_ok.mp h
  obtain ⟨hlocate, hd⟩ := locateWritable_eq_ok hwritable
  exact ⟨answered_eq_ok.mpr ⟨bytes, hbytes, hlocate⟩, hd⟩

theorem ne_root_of_not_directory (hd : s.node? p ≠ some .directory) : p ≠ [] := by
  rintro rfl
  exact hd rfl

/-- `s'` is `s`, but for a file that may be another one, or a new one, where a path leads. -/
structure SameBeside (path : Text) (s s' : Store) : Prop where
  base : s'.base = s.base
  directory_iff : ∀ q, s'.node? q = some .directory ↔ s.node? q = some .directory
  node? : ∀ q, ¬ s.Leads path q → s'.node? q = s.node? q

namespace SameBeside

variable {path other : Text} {s s' s'' : Store}

theorem expand (h : SameBeside path s s') (other : Text) : s'.expand other = s.expand other := by
  unfold Store.expand
  rw [h.base]

theorem refl (path : Text) (s : Store) : SameBeside path s s :=
  ⟨rfl, fun _ => .rfl, fun _ _ => rfl⟩

theorem leads (h : SameBeside path s s') {q : Place} : s'.Leads other q ↔ s.Leads other q := by
  simp only [Leads, answered_eq_ok, locate_congr h.base h.directory_iff]

theorem trans (h : SameBeside path s s') (h' : SameBeside path s' s'') :
    SameBeside path s s'' := by
  refine ⟨h'.base.trans h.base, fun q => (h'.directory_iff q).trans (h.directory_iff q), ?_⟩
  intro q hq
  have hq' : ¬ s'.Leads path q := fun hl => hq (h.leads.mp hl)
  rw [h'.node? q hq', h.node? q hq]

/-- What leads elsewhere leads to what was there. -/
theorem node?_other (h : SameBeside path s s')
    (hother : ∀ p, s.Leads other p → ¬ s.Leads path p) {p : Place} {n : Node} :
    (s'.Leads other p ∧ s'.node? p = some n) ↔ (s.Leads other p ∧ s.node? p = some n) := by
  rw [h.leads]
  exact and_congr_right fun hp => by rw [h.node? p (hother p hp)]

theorem read_other (h : SameBeside path s s') (hother : ∀ p, s.Leads other p → ¬ s.Leads path p)
    (c : Content) : s'.read other = .ok c ↔ s.read other = .ok c := by
  simp only [read_eq_ok, h.node?_other hother]

theorem hasPath_other (h : SameBeside path s s')
    (hother : ∀ p, s.Leads other p → ¬ s.Leads path p) : s'.hasPath other = s.hasPath other := by
  rw [Bool.eq_iff_iff, hasPath_iff, hasPath_iff]
  simp only [h.node?_other hother]

theorem put {p : Place} (h : s.Leads path p) (hd : s.node? p ≠ some .directory) (c : Content) :
    SameBeside path s (s.put p (.file c)) := by
  have hnode := fun q => s.node?_put p q (.file c) (ne_root_of_not_directory hd)
  refine ⟨rfl, fun q => ?_, fun q hq => ?_⟩
  · rw [hnode]
    split
    · rename_i hqp
      subst hqp
      simpa using hd
    · rfl
  · have hne : q ≠ p := by
      rintro rfl
      exact hq h
    rw [hnode, if_neg hne]

theorem append (path text : Text) (s : Store) : SameBeside path s (s.append path text).2 := by
  unfold Store.append
  split
  · exact refl path s
  · rename_i p hanswered
    obtain ⟨hleads, hd⟩ := leads_of_writable hanswered
    dsimp only
    split
    · exact put hleads hd _
    · exact put hleads hd _

end SameBeside

/-- A path leads to a file that is put there. -/
theorem read_put {path : Text} (h : s.Leads path p) (hd : s.node? p ≠ some .directory)
    (c : Content) : (s.put p (.file c)).read path = .ok c := by
  have hnode := s.node?_put p p (.file c) (ne_root_of_not_directory hd)
  rw [if_pos rfl] at hnode
  exact read_eq_ok.mpr ⟨p, (SameBeside.put h hd c).leads.mpr h, hnode⟩

/-- What a file holds. One that is not there, or cannot be read, holds nothing. -/
def contents (s : Store) (path : Text) : Content :=
  (s.read (s.expand path)).toOption.getD (.text [])

theorem contents_of_file {path : Text} {c : Content} (h : s.Leads (s.expand path) p)
    (hn : s.node? p = some (.file c)) : s.contents path = c := by
  unfold contents
  rw [read_eq_ok.mpr ⟨p, h, hn⟩]
  rfl

theorem contents_of_none {path : Text} (h : s.Leads (s.expand path) p) (hn : s.node? p = none) :
    s.contents path = .text [] := by
  unfold contents
  cases hread : s.read (s.expand path) with
  | error => rfl
  | ok c =>
    obtain ⟨q, hq, hc⟩ := read_eq_ok.mp hread
    rw [hq.unique h, hn] at hc
    cases hc

/-- The text is added, or what the file holds stays. -/
theorem contents_append (s : Store) (path text : Text) :
    (s.append (s.expand path) text).2.contents path =
      match (s.append (s.expand path) text).1 with
      | .ok () => (s.contents path).add text
      | .error _ => s.contents path := by
  unfold append
  split
  · rfl
  · rename_i p hanswered
    obtain ⟨hleads, hd⟩ := leads_of_writable hanswered
    have hput (c : Content) : (s.put p (.file c)).contents path = c := by
      unfold contents
      rw [show (s.put p (.file c)).expand path = s.expand path from rfl, read_put hleads hd c]
      rfl
    cases hn : s.node? p with
    | none =>
      rw [contents_of_none hleads hn]
      dsimp only
      split <;> exact hput _
    | some n =>
      cases n with
      | directory => exact absurd hn hd
      | file c =>
        rw [contents_of_file hleads hn]
        dsimp only
        split <;> exact hput _

end Store

end AgentFleet.Disk
