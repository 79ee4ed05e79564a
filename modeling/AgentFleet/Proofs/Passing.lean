import AgentFleet.Proofs.Replacement
import AgentFleet.Proofs.Texts

namespace AgentFleet

namespace Text

/-- The system takes a point as a part of a path. -/
def Point.isTaken (p : Point) : Bool :=
  match pointBytes? p with
  | some bytes => !bytes.contains 0
  | none => false

/-- The system takes a text as a path. -/
def Taken (t : Text) : Prop :=
  ∀ p ∈ t, p.isTaken = true

instance (t : Text) : Decidable t.Taken :=
  inferInstanceAs (Decidable (∀ p ∈ t, p.isTaken = true))

theorem Taken.append {t u : Text} (ht : t.Taken) (hu : u.Taken) : (t ++ u).Taken := by
  intro p hp
  rcases List.mem_append.mp hp with hp | hp
  · exact ht p hp
  · exact hu p hp

theorem Taken.subset {t u : Text} (ht : t.Taken) (h : ∀ p ∈ u, p ∈ t) : u.Taken :=
  fun p hp => ht p (h p hp)

theorem Taken.join {separator : Text} {texts : List Text} (hs : separator.Taken)
    (ht : ∀ t ∈ texts, t.Taken) : (Text.join separator texts).Taken := by
  unfold Text.join
  induction texts with
  | nil => simp [Taken]
  | cons t rest ih =>
    have hrest := ih fun u hu => ht u (List.mem_cons_of_mem t hu)
    cases rest with
    | nil => simpa [List.intercalate] using ht t List.mem_cons_self
    | cons u rest =>
      rw [List.intercalate_cons_cons]
      exact ((ht t List.mem_cons_self).append hs).append hrest

theorem mapM_pointBytes? {t : Text} (h : t.Taken) :
    ∃ bytes, t.mapM pointBytes? = some bytes ∧ ∀ b ∈ bytes, 0 ∉ b := by
  induction t with
  | nil => exact ⟨[], rfl, by simp⟩
  | cons p rest ih =>
    obtain ⟨bytes, hbytes, hzero⟩ := ih (h.subset fun q hq => List.mem_cons_of_mem p hq)
    have hp := h p List.mem_cons_self
    unfold Point.isTaken at hp
    cases hb : pointBytes? p with
    | none =>
      rw [hb] at hp
      cases hp
    | some b =>
      rw [hb] at hp
      refine ⟨b :: bytes, by simp [List.mapM_cons, hb, hbytes], ?_⟩
      intro c hc
      rcases List.mem_cons.mp hc with rfl | hc
      · simpa using hp
      · exact hzero c hc

theorem Taken.systemPath {t : Text} (h : t.Taken) : ∃ bytes, Disk.systemPath t = .ok bytes := by
  obtain ⟨bytes, hbytes, hzero⟩ := mapM_pointBytes? h
  refine ⟨bytes.flatten, ?_⟩
  unfold Disk.systemPath bytes?
  rw [hbytes]
  have : (0 : UInt8) ∉ bytes.flatten := by
    intro hm
    obtain ⟨b, hb, hm⟩ := List.mem_flatten.mp hm
    exact hzero b hb hm
  simp [this]

theorem uint8_ofNat_ne_zero {n : Nat} (h : n < 256) (h0 : n ≠ 0) : UInt8.ofNat n ≠ 0 := by
  intro he
  have hmod : n % 256 = 0 := by simpa using congrArg UInt8.toNat he
  exact h0 (Nat.mod_eq_of_lt h ▸ hmod)

/-- Of the characters only NUL is not taken. -/
theorem isTaken_char {c : Char} (h : c ≠ '\x00') : (Point.char c).isTaken = true := by
  have h0 : c.val.toNat ≠ 0 := fun he => h (Char.ext (UInt32.toNat_inj.mp he))
  have hall : ∀ b ∈ String.utf8EncodeChar c, b ≠ 0 := by
    unfold String.utf8EncodeChar
    intro b hb
    dsimp only at hb
    split at hb
    · rw [List.mem_singleton.mp hb]
      exact uint8_ofNat_ne_zero (by omega) h0
    · split at hb
      · simp only [List.mem_cons, List.not_mem_nil, or_false] at hb
        rcases hb with rfl | rfl <;> exact uint8_ofNat_ne_zero (by omega) (by omega)
      · split at hb
        · simp only [List.mem_cons, List.not_mem_nil, or_false] at hb
          rcases hb with rfl | rfl | rfl <;> exact uint8_ofNat_ne_zero (by omega) (by omega)
        · simp only [List.mem_cons, List.not_mem_nil, or_false] at hb
          rcases hb with rfl | rfl | rfl | rfl <;> exact uint8_ofNat_ne_zero (by omega) (by omega)
  have hnot : (0 : UInt8) ∉ String.utf8EncodeChar c := fun hm => hall 0 hm rfl
  simp [Point.isTaken, pointBytes?, hnot]

theorem taken_ofNat (n : Nat) : (ofNat n).Taken := by
  intro p hp
  obtain ⟨c, hc, rfl⟩ := List.mem_map.mp hp
  refine isTaken_char ?_
  rintro rfl
  exact absurd (Nat.isDigit_of_mem_toDigits (by decide) (by decide) hc) (by decide)

end Text

namespace Disk

open Text

theorem taken_of_mem_names {path name : Text} (h : path.Taken) (hn : name ∈ names path) :
    name.Taken :=
  h.subset (subset_of_mem_fields (List.mem_of_mem_filter hn))

theorem taken_step {here : List Text} {name : Text} (hh : ∀ n ∈ here, n.Taken) (hn : name.Taken) :
    ∀ n ∈ step here name, Text.Taken n := by
  unfold step
  intro n hm
  split at hm
  · exact hh n hm
  · split at hm
    · exact hh n ((List.dropLast_sublist _).subset hm)
    · rcases List.mem_append.mp hm with hm | hm
      · exact hh n hm
      · rw [List.mem_singleton.mp hm]
        exact hn

theorem taken_absolute {here : List Text} {path : Text} (hh : ∀ n ∈ here, n.Taken)
    (hp : path.Taken) : ∀ n ∈ absolute here path, Text.Taken n := by
  have hfold : ∀ (pieces start : List Text), (∀ n ∈ pieces, n.Taken) → (∀ n ∈ start, n.Taken) →
      ∀ n ∈ pieces.foldl step start, Text.Taken n := by
    intro pieces
    induction pieces with
    | nil => exact fun start _ hs => hs
    | cons piece rest ih =>
      intro start hpieces hs
      exact ih _ (fun n hn => hpieces n (List.mem_cons_of_mem _ hn))
        (taken_step hs (hpieces piece List.mem_cons_self))
  unfold absolute
  refine hfold _ _ (fun n hn => taken_of_mem_names hp hn) ?_
  split
  · simp
  · exact hh

/-- The system takes the text of a target. -/
def Target.Taken (t : Target) : Prop :=
  ∀ n ∈ t.names, n.Taken

theorem Target.Taken.text {t : Target} (h : t.Taken) : t.text.Taken := by
  unfold Target.text
  refine Text.Taken.append ?_ (Text.Taken.join (by decide) h)
  split
  · decide
  · decide

theorem Target.Taken.beside {t : Target} (h : t.Taken) {name : Text} (hn : name.Taken) :
    (t.beside name).Taken := by
  intro n hm
  rcases List.mem_append.mp hm with hm | hm
  · exact h n ((List.dropLast_sublist _).subset hm)
  · rw [List.mem_singleton.mp hm]
    exact hn

/-- The system takes the names on the way to where paths start from. -/
structure Base.Taken (b : Base) : Prop where
  home : ∀ n ∈ b.home.texts, n.Taken
  here : ∀ n ∈ b.here.texts, n.Taken

namespace Store

variable {s : Store} {t : Target} {text : Text} {f : Fault}

theorem taken_expand {path : Text} (hb : s.base.Taken) (hp : path.Taken) :
    (s.expand path).Taken := by
  have hhome : s.base.home.text.Taken :=
    Text.Taken.append (by decide) (Text.Taken.join (by decide) hb.home)
  have hfront : (if s.base.home = [] then [] else s.base.home.text : Text).Taken := by
    split
    · decide
    · exact hhome
  unfold expand expandHome
  split
  · exact hhome
  · refine (hfront.append (by decide)).append (hp.subset fun p hm => ?_)
    exact List.mem_cons_of_mem _ (List.mem_cons_of_mem _ hm)
  · exact hp

theorem taken_target {path : Text} (hb : s.base.Taken) (hp : path.Taken) :
    (s.target path).Taken :=
  taken_absolute hb.here (taken_expand hb hp)

theorem answered_error {path : Text} {ask : List UInt8 → Except Refusal α} (hp : path.Taken)
    (h : answered path ask = .error f) : f.isSystem = true := by
  obtain ⟨bytes, hbytes⟩ := hp.systemPath
  unfold answered at h
  rw [hbytes] at h
  change (ask bytes).mapError _ = _ at h
  cases ha : ask bytes with
  | ok a =>
    rw [ha] at h
    cases h
  | error why =>
    rw [ha] at h
    cases h
    rfl

theorem unlessRefused_error {refusal : Option Refusal} {fault : Refusal → Fault}
    (hs : ∀ why, (fault why).isSystem = true) (h : unlessRefused refusal fault = .error f) :
    f.isSystem = true := by
  cases refusal with
  | none => cases h
  | some why =>
    cases h
    exact hs why

theorem taken_temporaryName (n : Nat) : (temporaryName n).Taken := by
  refine Text.Taken.append (by decide) (Text.Taken.append ?_ (Text.taken_ofNat n))
  intro p hp
  rw [List.eq_of_mem_replicate hp]
  decide

theorem freshTarget?_taken {tries n : Nat} {fresh : Target} (ht : t.Taken)
    (h : s.freshTarget? t tries n = some fresh) : fresh.Taken := by
  induction tries generalizing n with
  | zero => cases h
  | succ k ih =>
    unfold freshTarget? at h
    dsimp only at h
    split at h
    · cases h
      exact ht.beside (taken_temporaryName n)
    · exact ih h

theorem makeTemporary_error {refusal : Option Refusal} (ht : t.Taken)
    (h : s.makeTemporary t refusal = .error f) : f.isSystem = true := by
  unfold makeTemporary at h
  split at h
  · cases h
    rfl
  · rename_i fresh hfresh
    rcases except_bind_eq_error.mp h with h | ⟨place, _, h⟩
    · exact answered_error (freshTarget?_taken ht hfresh).text h
    · rcases except_bind_eq_error.mp h with h | ⟨_, _, h⟩
      · exact unlessRefused_error (fun _ => rfl) h
      · cases h

theorem fill_error {p : Place} {refusal : Option Refusal} (hw : Text.isWritable text = true)
    (h : s.fill p text refusal = .error f) : f.isSystem = true := by
  unfold fill at h
  simp only [hw, Bool.not_true, Bool.false_eq_true, if_false] at h
  rcases except_bind_eq_error.mp h with h | ⟨_, _, h⟩
  · exact unlessRefused_error (fun _ => rfl) h
  · cases h

theorem move_error {source : Temporary} {target : Text} {refusal : Option Refusal}
    (ht : target.Taken) (h : s.move source target refusal = .error f) : f.isSystem = true := by
  obtain ⟨bytes, hbytes⟩ := ht.systemPath
  unfold move at h
  rw [hbytes] at h
  rcases except_bind_eq_error.mp h with h | ⟨_, hb, h⟩
  · cases h
  · cases hb
    split at h
    · rcases except_bind_eq_error.mp h with h | ⟨_, _, h⟩
      · exact unlessRefused_error (fun _ => rfl) h
      · cases h
    · cases h
      rfl
    · cases h
      rfl

/-- Only the system refuses to replace a file by a text, where it takes the path. -/
theorem replace_error_system (ht : t.Taken) (hw : Text.isWritable text = true) {disk : Store}
    (h : s.replace t text = (.error f, disk)) : f.isSystem = true := by
  unfold replace replaceUpset at h
  split at h
  · rename_i g hmake
    cases h
    exact makeTemporary_error ht hmake
  · rename_i temporary made hmake
    split at h
    · cases h
    · rename_i g hg
      cases h
      rcases except_bind_eq_error.mp hg with hfill | ⟨filled, _, hmove⟩
      · exact fill_error hw hfill
      · exact move_error ht.text hmove

theorem append_base (path text : Text) : (s.append path text).2.base = s.base := by
  unfold append
  split
  · rfl
  · dsimp only
    split
    · rfl
    · rfl

/-- Only the system refuses to add a text to a file, where it takes the path. -/
theorem append_error_system {path : Text} (hp : path.Taken) (hw : Text.isWritable text = true)
    (h : (s.append path text).1 = .error f) : f.isSystem = true := by
  unfold append at h
  split at h
  · rename_i g hg
    cases h
    exact answered_error hp hg
  · rw [if_pos hw] at h
    cases h

end Store

end Disk

/-- A file can hold the agent. -/
def Agent.IsWritable (a : Agent) : Prop :=
  Text.isWritable a.publicAddress = true ∧ Text.isWritable a.privateAddress = true

theorem isWritable_append (t u : Text) :
    Text.isWritable (t ++ u) = (Text.isWritable t && Text.isWritable u) :=
  List.all_append

theorem isWritable_subset {t u : Text} (ht : Text.isWritable t = true) (h : ∀ p ∈ u, p ∈ t) :
    Text.isWritable u = true :=
  List.all_eq_true.mpr fun p hp => List.all_eq_true.mp ht p (h p hp)

theorem Text.subset_of_mem_lines {t l : Text} (h : l ∈ lines t) : ∀ p ∈ l, p ∈ t := by
  fun_induction lines t generalizing l with
  | case1 => simp at h
  | case2 r ih =>
    rcases List.mem_cons.mp h with rfl | h
    · simp
    · exact fun p hp => List.mem_cons_of_mem _ (ih h p hp)
  | case3 r ih =>
    rcases List.mem_cons.mp h with rfl | h
    · simp
    · exact fun p hp => List.mem_cons_of_mem _ (List.mem_cons_of_mem _ (ih h p hp))
  | case4 r _ ih =>
    rcases List.mem_cons.mp h with rfl | h
    · simp
    · exact fun p hp => List.mem_cons_of_mem _ (ih h p hp)
  | case5 q r hn hrn hr l' ls he ih =>
    rcases List.mem_cons.mp h with rfl | h
    · intro p hp
      rcases List.mem_cons.mp hp with rfl | hp
      · exact List.mem_cons_self
      · exact List.mem_cons_of_mem _ (ih (he ▸ List.mem_cons_self) p hp)
    · exact fun p hp => List.mem_cons_of_mem _ (ih (he ▸ List.mem_cons_of_mem _ h) p hp)
  | case6 q r hn hrn hr he ih =>
    rw [List.mem_singleton.mp h]
    intro p hp
    rw [List.mem_singleton.mp hp]
    exact List.mem_cons_self

theorem Agent.isWritable_of_ofLine {line : Text} {a : Agent} (h : ofLine line = .ok a)
    (hw : Text.isWritable line = true) : a.IsWritable := by
  have hfield : ∀ t ∈ (fields (.char ',') line).map Text.strip, Text.isWritable t = true := by
    intro t ht
    obtain ⟨f, hf, rfl⟩ := List.mem_map.mp ht
    exact isWritable_subset hw fun p hp => subset_of_mem_fields hf p (Text.strip_subset hp)
  unfold ofLine at h
  split at h
  · rename_i outer inner hm
    rw [hm] at hfield
    split at h
    · cases h
    · split at h
      · cases h
      · cases h
        exact ⟨hfield outer (by simp), hfield inner (by simp)⟩
  · cases h

theorem isWritable_agentLines {agents : List Agent} (h : ∀ a ∈ agents, a.IsWritable) :
    Text.isWritable (agentLines agents) = true := by
  unfold agentLines Text.isWritable
  rw [List.all_flatMap, List.all_eq_true]
  intro a ha
  obtain ⟨houter, hinner⟩ := h a ha
  change Text.isWritable (a.publicAddress ++ "," ++ a.privateAddress ++ "\n") = true
  simp only [isWritable_append, houter, hinner]
  decide

end AgentFleet
