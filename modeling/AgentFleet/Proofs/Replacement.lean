import AgentFleet.Proofs.Outcome

namespace AgentFleet.Disk

theorem answered_eq_ok {path : Text} {ask : List UInt8 → Except Refusal α} {a : α} :
    answered path ask = .ok a ↔ ∃ bytes, systemPath path = .ok bytes ∧ ask bytes = .ok a := by
  simp only [answered, except_bind_eq_ok, mapError_eq_ok]

namespace Store

/-- A path that the user wrote leads to a place. -/
def Leads (s : Store) (path : Text) (p : Place) : Prop :=
  answered path s.locate = .ok p

theorem Leads.unique {s : Store} {path : Text} {p q : Place} (h : s.Leads path p)
    (h' : s.Leads path q) : p = q :=
  Except.ok.inj (h.symm.trans h')

/-- Where names lead hangs on the directories alone. -/
theorem follow_congr {s s' : Store}
    (hd : ∀ q, s'.node? q = some .directory ↔ s.node? q = some .directory)
    (names : List Name) (here p : Place) :
    s'.follow here names = .ok p ↔ s.follow here names = .ok p := by
  induction names generalizing here with
  | nil => simp [follow]
  | cons name rest ih =>
    by_cases h : s.node? here = some .directory
    · simp only [follow, h, (hd here).mpr h]
      split
      · simp
      · exact ih _
    · have h' : ¬ s'.node? here = some .directory := fun e => h ((hd here).mp e)
      have no : ∀ (u : Store), ¬ u.node? here = some .directory →
          u.follow here (name :: rest) ≠ .ok p := by
        intro u hu
        rw [follow]
        split
        · rename_i e
          exact absurd e hu
        · simp
        · simp
      exact iff_of_false (no s' h') (no s h)

theorem locate_congr {s s' : Store} (hh : s'.base = s.base)
    (hd : ∀ q, s'.node? q = some .directory ↔ s.node? q = some .directory)
    (path : List UInt8) (p : Place) : s'.locate path = .ok p ↔ s.locate path = .ok p := by
  unfold locate walk
  rw [hh]
  split
  · simp
  · split
    · simp
    · exact follow_congr hd _ _ _

theorem find_eq_ok {s : Store} {path : List UInt8} {n : Node} :
    s.find path = .ok n ↔ ∃ p, s.locate path = .ok p ∧ s.node? p = some n := by
  simp only [find, except_bind_eq_ok]
  constructor
  · rintro ⟨p, hp, h⟩
    refine ⟨p, hp, ?_⟩
    split at h
    · rename_i m hm
      exact hm.trans (congrArg some (Except.ok.inj h))
    · cases h
  · rintro ⟨p, hp, h⟩
    exact ⟨p, hp, by rw [h]; rfl⟩

theorem answered_find_eq_ok {s : Store} {path : Text} {n : Node} :
    answered path s.find = .ok n ↔ ∃ p, s.Leads path p ∧ s.node? p = some n := by
  simp only [answered_eq_ok, find_eq_ok, Leads]
  constructor
  · rintro ⟨bytes, hb, p, hp, hn⟩
    exact ⟨p, ⟨bytes, hb, hp⟩, hn⟩
  · rintro ⟨p, ⟨bytes, hb, hp⟩, hn⟩
    exact ⟨bytes, hb, p, hp, hn⟩

theorem read_eq_ok {s : Store} {path : Text} {c : Content} :
    s.read path = .ok c ↔ ∃ p, s.Leads path p ∧ s.node? p = some (.file c) := by
  rw [← answered_find_eq_ok]
  simp only [read, except_bind_eq_ok]
  constructor
  · rintro ⟨n, hn, h⟩
    cases n with
    | file c' => cases h; exact hn
    | directory => cases h
  · intro h
    exact ⟨_, h, rfl⟩

theorem hasPath_iff {s : Store} {path : Text} :
    s.hasPath path = true ↔ ∃ p n, s.Leads path p ∧ s.node? p = some n := by
  have h : s.hasPath path = true ↔ ∃ n, answered path s.find = .ok n := by
    unfold hasPath
    cases answered path s.find <;> simp [Except.toOption]
  simp only [h, answered_find_eq_ok]
  exact exists_comm

/-- `s'` is `s` with a text in the file at `p`, which may be a new file. -/
structure Written (s s' : Store) (p : Place) (text : Text) : Prop where
  base : s'.base = s.base
  node? : ∀ q, s'.node? q = if q = p then some (.file (.text text)) else s.node? q
  noDirectory : s.node? p ≠ some .directory

namespace Written

variable {s s' : Store} {p : Place} {text : Text}

theorem directory_iff (w : Written s s' p text) (q : Place) :
    s'.node? q = some .directory ↔ s.node? q = some .directory := by
  rw [w.node? q]
  split
  · rename_i hq
    subst q
    simpa using w.noDirectory
  · rfl

/-- A file more or less changes no way. -/
theorem leads (w : Written s s' p text) {path : Text} {q : Place} :
    s'.Leads path q ↔ s.Leads path q := by
  simp only [Leads, answered_eq_ok, locate_congr w.base w.directory_iff]

theorem read_same (w : Written s s' p text) {path : Text} (h : s.Leads path p) :
    s'.read path = .ok (.text text) :=
  read_eq_ok.mpr ⟨p, w.leads.mpr h, by rw [w.node? p, if_pos rfl]⟩

theorem read_other (w : Written s s' p text) {path : Text} (h : ¬ s.Leads path p) (c : Content) :
    s'.read path = .ok c ↔ s.read path = .ok c := by
  simp only [read_eq_ok, w.leads]
  refine exists_congr fun q => and_congr_right fun hq => ?_
  have hne : q ≠ p := fun e => h (e ▸ hq)
  rw [w.node? q, if_neg hne]

theorem hasPath_other (w : Written s s' p text) {path : Text} (h : ¬ s.Leads path p) :
    s'.hasPath path = s.hasPath path := by
  rw [Bool.eq_iff_iff, hasPath_iff, hasPath_iff]
  simp only [w.leads]
  refine exists_congr fun q => exists_congr fun n => and_congr_right fun hq => ?_
  have hne : q ≠ p := fun e => h (e ▸ hq)
  rw [w.node? q, if_neg hne]

end Written

/-- An entry that is new goes without a trace. -/
theorem eraseEntry_setEntry [BEq κ] [LawfulBEq κ] {entries : List (κ × α)} {key : κ}
    (h : entries.lookup key = none) (a : α) :
    eraseEntry (setEntry entries key a) key = entries := by
  induction entries with
  | nil => simp [setEntry, eraseEntry]
  | cons e rest ih =>
    obtain ⟨k, b⟩ := e
    have hk : (key == k) = false := by
      cases hk : key == k with
      | false => rfl
      | true => simp [List.lookup_cons, hk] at h
    have hrest : rest.lookup key = none := by simpa [List.lookup_cons, hk] using h
    have hne : (k != key) = true := by
      have : key ≠ k := by simpa using hk
      simpa using this.symm
    have := ih hrest
    simp only [eraseEntry] at this ⊢
    simp [setEntry, hk, hne, this]

theorem ne_root_of_node? {s : Store} {p : Place} (h : s.node? p = none) : p ≠ [] := by
  rintro rfl
  simp [Store.node?] at h

theorem erase_put {s : Store} {p : Place} (h : s.node? p = none) (n : Node) :
    (s.put p n).erase p = s := by
  have hp := ne_root_of_node? h
  have hl : s.nodes.lookup p = none := by simpa [Store.node?, hp] using h
  simp only [put, erase, eraseEntry_setEntry hl]

theorem not_hasPath_of_fresh {s : Store} {t x : Target} {tries n : Nat}
    (h : s.freshTarget? t tries n = some x) : s.hasPath x.text = false := by
  induction tries generalizing n with
  | zero => simp [freshTarget?] at h
  | succ k ih =>
    rw [freshTarget?] at h
    split at h
    · rename_i hc
      cases h
      simpa using (Bool.and_eq_true_iff.mp hc).2
    · exact ih h

theorem unlessRefused_eq_ok {refusal : Option Refusal} {fault : Refusal → Fault} {u : Unit} :
    unlessRefused refusal fault = .ok u ↔ refusal = none := by
  cases refusal <;> simp [unlessRefused]

/-- A temporary file is a new one. -/
theorem makeTemporary_ok {s made : Store} {t : Target} {refusal : Option Refusal}
    {temporary : Temporary} (h : s.makeTemporary t refusal = .ok (temporary, made)) :
    s.node? temporary.place = none ∧ made = s.put temporary.place (.file (.text [])) := by
  unfold makeTemporary at h
  split at h
  · cases h
  · rename_i x hx
    simp only [except_bind_eq_ok, unlessRefused_eq_ok] at h
    obtain ⟨place, hplace, _, _, hr⟩ := h
    cases hr
    refine ⟨?_, rfl⟩
    cases hn : s.node? place with
    | none => rfl
    | some n =>
      have := hasPath_iff.mpr ⟨place, n, hplace, hn⟩
      rw [not_hasPath_of_fresh hx] at this
      cases this

theorem fill_ok {s s' : Store} {p : Place} {text : Text} {refusal : Option Refusal}
    (h : s.fill p text refusal = .ok s') :
    Text.isWritable text = true ∧ s' = s.put p (.file (.text text)) := by
  unfold fill at h
  cases hw : Text.isWritable text with
  | false => simp [hw, bind, Except.bind, throw, throwThe, MonadExceptOf.throw] at h
  | true =>
    simp only [hw, Bool.not_true, Bool.false_eq_true, if_false, except_bind_eq_ok,
      unlessRefused_eq_ok] at h
    obtain ⟨_, _, hr⟩ := h
    cases hr
    exact ⟨rfl, rfl⟩

theorem landing_ok {s : Store} {path : List UInt8} {p : Place} (h : s.landing path = .ok p) :
    s.locate path = .ok p ∧ p ≠ [] ∧ s.node? p ≠ some .directory := by
  simp only [landing, except_bind_eq_ok] at h
  obtain ⟨q, hq, h⟩ := h
  split at h
  · cases h
  · rename_i hroot
    split at h
    · cases h
    · rename_i hdir
      cases h
      exact ⟨hq, hroot, hdir⟩

theorem move_ok {s s' : Store} {source : Temporary} {target : Text} {refusal : Option Refusal}
    (h : s.move source target refusal = .ok s') :
    ∃ p n, s.Leads target p ∧ p ≠ [] ∧ s.node? p ≠ some .directory ∧
      s.node? source.place = some n ∧ s' = s.moveNode source.place p n := by
  simp only [move, except_bind_eq_ok] at h
  obtain ⟨path, hpath, h⟩ := h
  split at h
  · rename_i p n hp hn
    simp only [except_bind_eq_ok, unlessRefused_eq_ok] at h
    obtain ⟨_, _, hr⟩ := h
    cases hr
    obtain ⟨hl, hroot, hdir⟩ := landing_ok hp
    exact ⟨p, n, answered_eq_ok.mpr ⟨path, hpath, hl⟩, hroot, hdir, hn, rfl⟩
  · cases h
  · cases h

/-- The places of a disk after a new file took the place of another one, or stayed. -/
theorem node?_moveNode {s : Store} {source p : Place} {n : Node} (hs : source ≠ []) (hp : p ≠ [])
    (hn : s.node? source = some n) (q : Place) :
    (s.moveNode source p n).node? q =
      if q = p then some n else if q = source then none else s.node? q := by
  unfold moveNode
  split
  · rename_i e
    subst e
    by_cases hq : q = p
    · simp [hq, hn]
    · simp [hq]
  · rename_i hne
    rw [node?_erase _ _ _ hs, node?_put _ _ _ _ hp]
    by_cases hq : q = p
    · subst hq
      simp [hne]
    · simp [hq]

/-- The file that takes the place of another one was filled before. -/
theorem written_of_fill_move {s made filled s' : Store} {temporary : Temporary} {target text : Text}
    {filling moving : Option Refusal} (hnew : s.node? temporary.place = none)
    (hmade : made = s.put temporary.place (.file (.text [])))
    (hf : made.fill temporary.place text filling = .ok filled)
    (hm : filled.move temporary target moving = .ok s') :
    ∃ p, s.Leads target p ∧ Written s s' p text := by
  have hroot := ne_root_of_node? hnew
  obtain ⟨_, rfl⟩ := fill_ok hf
  subst hmade
  have hfilled : Written s
      ((s.put temporary.place (.file (.text []))).put temporary.place (.file (.text text)))
      temporary.place text := by
    refine ⟨rfl, ?_, by simp [hnew]⟩
    intro q
    rw [node?_put _ _ _ _ hroot, node?_put _ _ _ _ hroot]
    split <;> rfl
  obtain ⟨p, n, hl, hp, hdir, hn, rfl⟩ := move_ok hm
  have hn' : n = .file (.text text) := by
    rw [hfilled.node?, if_pos rfl] at hn
    exact (Option.some.inj hn).symm
  subst hn'
  refine ⟨p, hfilled.leads.mp hl, ?_, ?_, fun e => hdir ((hfilled.directory_iff p).mpr e)⟩
  · unfold moveNode
    split <;> rfl
  · intro q
    rw [node?_moveNode hroot hp hn, hfilled.node?]
    by_cases hq : q = p
    · simp [hq]
    · by_cases ht : q = temporary.place
      · simp [ht, hnew]
      · simp [hq, ht]

theorem replaceUpset_ok {s s' : Store} {t : Target} {text : Text} {upset : Upset}
    (h : s.replaceUpset t text upset = (.ok (), s')) :
    ∃ p, s.Leads t.text p ∧ Written s s' p text := by
  unfold replaceUpset at h
  split at h
  · cases h
  · rename_i temporary made hmade
    obtain ⟨hnew, he⟩ := makeTemporary_ok hmade
    split at h
    · rename_i u hr
      obtain ⟨filled, hf, hm⟩ := except_bind_eq_ok.mp hr
      cases h
      exact written_of_fill_move hnew he hf hm
    · cases h

/-- A replacement that fails leaves no trace. -/
theorem replaceUpset_error {s s' : Store} {t : Target} {text : Text} {upset : Upset} {f : Fault}
    (h : s.replaceUpset t text upset = (.error f, s')) : s' = s := by
  unfold replaceUpset at h
  split at h
  · cases h
    rfl
  · rename_i temporary made hmade
    obtain ⟨hnew, rfl⟩ := makeTemporary_ok hmade
    split at h
    · cases h
    · cases h
      exact erase_put hnew _

/-- The disk with its next upset behind it. -/
def pastUpset (s : Store) : Store :=
  { s with upsets := s.upsets.tail }

theorem pastUpset_follow (s : Store) (names : List Name) (here : Place) :
    s.pastUpset.follow here names = s.follow here names := by
  induction names generalizing here with
  | nil => rfl
  | cons name rest ih =>
    have hn : s.pastUpset.node? here = s.node? here := rfl
    simp only [follow, hn, ih]

theorem pastUpset_locate (s : Store) : s.pastUpset.locate = s.locate := by
  funext path
  simp only [locate, walk, pastUpset_follow]
  rfl

theorem pastUpset_find (s : Store) : s.pastUpset.find = s.find := by
  funext path
  simp only [find, pastUpset_locate]
  rfl

theorem pastUpset_read (s : Store) (path : Text) : s.pastUpset.read path = s.read path := by
  simp only [read, pastUpset_find]

theorem pastUpset_hasPath (s : Store) (path : Text) :
    s.pastUpset.hasPath path = s.hasPath path := by
  simp only [hasPath, pastUpset_find]

theorem pastUpset_list (s : Store) (path : Text) : s.pastUpset.list path = s.list path := by
  simp only [list, pastUpset_locate]
  rfl

theorem pastUpset_leads {s : Store} {path : Text} {p : Place} :
    s.pastUpset.Leads path p ↔ s.Leads path p := by
  simp only [Leads, pastUpset_locate]

/-- What a replacement that succeeds does to the disk. -/
theorem replace_ok {s s' : Store} {t : Target} {text : Text}
    (h : s.replace t text = (.ok (), s')) : ∃ p, s.Leads t.text p ∧ Written s s' p text := by
  obtain ⟨p, hl, w⟩ := replaceUpset_ok (s := s.pastUpset) h
  exact ⟨p, pastUpset_leads.mp hl, w.base, w.node?, w.noDirectory⟩

/-- What a replacement that fails does to the disk. -/
theorem replace_error {s s' : Store} {t : Target} {text : Text} {f : Fault}
    (h : s.replace t text = (.error f, s')) : s' = s.pastUpset :=
  replaceUpset_error (s := s.pastUpset) h

end Store

end AgentFleet.Disk
