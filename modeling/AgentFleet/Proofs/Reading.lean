import AgentFleet.Cloud.Credentials
import AgentFleet.Proofs.AgentsFile
import AgentFleet.Proofs.Passing

namespace AgentFleet

namespace Disk

theorem systemPath_error {path : Text} {why : Fault} (h : systemPath path = .error why) :
    why.isSystem = false := by
  unfold systemPath at h
  split at h
  · cases h
    rfl
  · split at h
    · cases h
      rfl
    · cases h

namespace Store

/-- Every file holds what its bytes are taken for. -/
def Faithful (s : Store) : Prop :=
  ∀ p c, s.node? p = some (.file c) → ∃ bytes, c = .ofBytes bytes

variable {s : Store} {path : Text}

/-- A text that is read can be written. -/
theorem Faithful.isWritable (h : s.Faithful) {text : Text} (hr : s.read path = .ok (.text text)) :
    Text.isWritable text = true := by
  obtain ⟨p, _, hp⟩ := read_eq_ok.mp hr
  obtain ⟨bytes, hbytes⟩ := h p _ hp
  unfold Content.ofBytes at hbytes
  dsimp only at hbytes
  split at hbytes
  · rename_i hw
    cases hbytes
    exact hw
  · cases hbytes

theorem isFile_of_read {c : Content} (h : s.read path = .ok c) : s.isFile path = true := by
  obtain ⟨node, hnode, hc⟩ := except_bind_eq_ok.mp h
  unfold isFile
  rw [hnode]
  cases node with
  | file _ => rfl
  | directory => cases hc

theorem hasPath_of_read {c : Content} (h : s.read path = .ok c) : s.hasPath path = true := by
  obtain ⟨node, hnode, _⟩ := except_bind_eq_ok.mp h
  unfold hasPath
  rw [hnode]
  rfl

theorem systemPath_of_isFile (h : s.isFile path = true) : ∃ bytes, systemPath path = .ok bytes := by
  unfold isFile at h
  split at h
  · rename_i hc
    obtain ⟨bytes, hb, _⟩ := answered_eq_ok.mp hc
    exact ⟨bytes, hb⟩
  · cases h

theorem systemPath_of_hasPath (h : s.hasPath path = true) :
    ∃ bytes, systemPath path = .ok bytes := by
  obtain ⟨p, n, hl, _⟩ := hasPath_iff.mp h
  obtain ⟨bytes, hb, _⟩ := answered_eq_ok.mp hl
  exact ⟨bytes, hb⟩

end Store

end Disk

/-- At the path is a file whose content is no text, and nothing is wrong with the lines of it that
come before that shows. -/
def Undecoded (disk : Disk.Store) (path : Text) (parse : Text → Except Fault α) : Prop :=
  ∃ bytes a, disk.read path = .ok (.bytes bytes) ∧ parse (Text.legible bytes) = .ok a

/-- A file is not read for a reason that no reader reports: the system does not take the path, or
the content is no text. -/
inductive Unread (disk : Disk.Store) (path : Text) (parse : Text → Except Fault α) : Fault → Prop
  | path {why : Disk.Fault} (h : Disk.systemPath path = .error why) :
      Unread disk path parse (.of (.disk why))
  | content (h : Undecoded disk path parse) : Unread disk path parse (.of .notText)

section Reading

variable {disk : Disk.Store} {path : Text} {parse : Text → Except Fault α} {f : Fault}

theorem Unread.not_system (h : Unread disk path parse f) : f.trouble.isSystem = false := by
  cases h with
  | path h => exact Disk.systemPath_error h
  | content h => rfl

theorem Unread.not_reported (h : Unread disk path parse f) : f.trouble.isReported = false := by
  cases h with
  | path h => rfl
  | content h => rfl

theorem Unread.parseFile (h : Unread disk path parse f) : parseFile disk path parse = .error f := by
  unfold AgentFleet.parseFile
  cases h with
  | path h =>
    have hread : disk.read path = .error _ :=
      except_bind_eq_error.mpr (.inl (except_bind_eq_error.mpr (.inl h)))
    rw [hread]
    rfl
  | content h =>
    obtain ⟨bytes, a, h, ha⟩ := h
    rw [h]
    exact except_bind_eq_error.mpr (.inr ⟨a, ha, rfl⟩)

theorem Disk.Store.read_error {why : Disk.Fault} (h : disk.read path = .error why) :
    why.isSystem = true ∨ Disk.systemPath path = .error why := by
  rcases except_bind_eq_error.mp h with h | ⟨node, _, h⟩
  · rcases except_bind_eq_error.mp h with h | ⟨bytes, _, h⟩
    · exact .inr h
    · obtain ⟨_, _, rfl⟩ := mapError_eq_error.mp h
      exact .inl rfl
  · cases node with
    | file c => cases h
    | directory =>
      cases h
      exact .inl rfl

/-- A file is not parsed if the system refuses to read it, or it is not read, or the parser refuses
a text. -/
theorem parseFile_error (h : parseFile disk path parse = .error f) :
    f.trouble.isSystem = true ∨ Unread disk path parse f ∨ ∃ text, parse text = .error f := by
  unfold parseFile at h
  cases hr : disk.read path with
  | error why =>
    rw [hr] at h
    cases h
    exact (Disk.Store.read_error hr).imp id fun h => .inl (.path h)
  | ok c =>
    rw [hr] at h
    cases c with
    | text t => exact .inr (.inr ⟨t, h⟩)
    | bytes b =>
      rcases except_bind_eq_error.mp h with h | ⟨a, ha, h⟩
      · exact .inr (.inr ⟨_, h⟩)
      · cases h
        exact .inr (.inl (.content ⟨b, a, hr, ha⟩))

/-- Where the system takes the path, only the content matters. -/
theorem Unread.of_taken {bytes : List UInt8} (hp : Disk.systemPath path = .ok bytes) :
    Unread disk path parse f ↔ f = .of .notText ∧ Undecoded disk path parse := by
  constructor
  · intro h
    cases h with
    | path h =>
      rw [hp] at h
      cases h
    | content h => exact ⟨rfl, h⟩
  · rintro ⟨rfl, h⟩
    exact .content h

/-- A reader that puts what the system refuses in words of its own passes on what it does not
report. -/
theorem Unread.mapped {wrap : Fault → Fault} (h : Unread disk path parse f) :
    (AgentFleet.parseFile disk path parse).mapError
      (fun f => if f.trouble.isSystem then wrap f else f) = .error f :=
  mapError_eq_error.mpr ⟨f, h.parseFile, if_neg (by rw [h.not_system]; decide)⟩

/-- Such a reader fails with its own words, or for a file that is not read, or for a text that the
parser refuses. -/
theorem mapped_error {wrap : Fault → Fault}
    (h : (parseFile disk path parse).mapError
      (fun f => if f.trouble.isSystem then wrap f else f) = .error f) :
    (∃ g, f = wrap g) ∨ Unread disk path parse f ∨ ∃ text, parse text = .error f := by
  obtain ⟨g, hg, hf⟩ := mapError_eq_error.mp h
  cases hs : g.trouble.isSystem with
  | true =>
    rw [hs, if_pos rfl] at hf
    exact .inl ⟨g, hf.symm⟩
  | false =>
    rw [hs, if_neg Bool.false_ne_true] at hf
    rw [← hf]
    exact .inr ((parseFile_error hg).resolve_left (by rw [hs]; decide))

theorem parseFile_text {text : Text} (h : disk.read path = .ok (.text text)) :
    AgentFleet.parseFile disk path parse = parse text := by
  unfold AgentFleet.parseFile
  rw [h]

theorem parseFile_noText (h : ∀ text, disk.read path ≠ .ok (.text text)) :
    ∃ f, AgentFleet.parseFile disk path parse = .error f := by
  unfold AgentFleet.parseFile
  cases hr : disk.read path with
  | error why => exact ⟨_, rfl⟩
  | ok c =>
    cases c with
    | text t => exact absurd hr (h t)
    | bytes b =>
      cases hp : parse (Text.legible b) with
      | ok a => exact ⟨.of .notText, by simp only [hp]; rfl⟩
      | error f => exact ⟨f, by simp only [hp]; rfl⟩

theorem Trouble.not_system_of_reported {t : Trouble} (h : t.isReported = true) :
    t.isSystem = false := by
  cases t with
  | disk _ => cases h
  | foreign => cases h
  | _ => rfl

/-- Such a reader does with a text what the parser does, if what the parser refuses is reported. -/
theorem mapped_text {wrap : Fault → Fault} {text : Text} (h : disk.read path = .ok (.text text))
    (hp : ∀ f, parse text = .error f → f.trouble.isReported = true) :
    (AgentFleet.parseFile disk path parse).mapError
      (fun f => if f.trouble.isSystem then wrap f else f) = parse text := by
  rw [parseFile_text h]
  cases ht : parse text with
  | ok a => rfl
  | error f =>
    have hf := Trouble.not_system_of_reported (hp f ht)
    exact mapError_eq_error.mpr ⟨f, rfl, if_neg (by rw [hf]; decide)⟩

end Reading

namespace Settings

variable {disk : Disk.Store} {path : Text} {f : Fault}

theorem parse_error {text : Text} (h : parse path text = .error f) :
    f.trouble.isConfiguration = true := by
  unfold parse at h
  generalize Text.numbered (Text.lines text) = ls at h
  generalize ([] : List (Text × Text)) = done at h
  induction ls generalizing done with
  | nil => cases h
  | cons l rest ih =>
    obtain ⟨n, raw⟩ := l
    unfold entriesOf at h
    dsimp only at h
    split at h
    · exact ih _ h
    · split at h
      · exact ih _ h
      · cases h
        rfl

theorem isReported_of_isConfiguration {t : Trouble} (h : t.isConfiguration = true) :
    t.isReported = true := by
  unfold Trouble.isConfiguration at h
  unfold Trouble.isReported
  rcases Bool.or_eq_true_iff.mp h with h | h
  · rw [of_decide_eq_true h]
    decide
  · rw [of_decide_eq_true h]
    decide

theorem entriesIn_error (h : entriesIn disk path = .error f) :
    f.trouble.isConfiguration = true ∨ Unread disk (disk.expand path) (parse path) f := by
  rcases mapped_error h with ⟨g, rfl⟩ | hu | ⟨_, h⟩
  · exact .inl rfl
  · exact .inr hu
  · exact .inl (parse_error h)

theorem entriesIn_unread (h : Unread disk (disk.expand path) (parse path) f) :
    entriesIn disk path = .error f :=
  h.mapped

/-- Settings that are loaded are those of a file, or there is no file. -/
theorem load_cases (disk : Disk.Store) (path : Option Text) {p : Text}
    (hp : path.getD Default.settingsFile = p) :
    (disk.isFile (disk.expand p) = true ∧ load disk path [] = (do
        let entries ← entriesIn disk p
        return ⟨some p, entries.map fun (k, v) => (k, .text v)⟩)) ∨
      (disk.isFile (disk.expand p) = false ∧ (load disk path [] = .ok ⟨none, []⟩ ∨
        load disk path [] = .error (.of (.configuration (.noFile p))))) := by
  subst hp
  cases path with
  | none =>
    -- the name of the default file has no tilde to be expanded
    have hexpand : disk.expand Default.settingsFile = Default.settingsFile := rfl
    unfold load
    rw [Option.getD_none, hexpand]
    cases disk.isFile Default.settingsFile with
    | false => exact .inr ⟨rfl, .inl rfl⟩
    | true => exact .inl ⟨rfl, rfl⟩
  | some p =>
    unfold load
    rw [Option.getD_some]
    dsimp only
    cases disk.isFile (disk.expand p) with
    | false => exact .inr ⟨rfl, .inr rfl⟩
    | true => exact .inl ⟨rfl, rfl⟩

/-- Settings are not loaded for a reason that is not reported exactly if their file holds no
text. -/
theorem load_unreported {path : Option Text} (hf : f.trouble.isReported = false) :
    load disk path [] = .error f ↔ f = .of .notText ∧
      Undecoded disk (disk.expand (path.getD Default.settingsFile))
        (parse (path.getD Default.settingsFile)) := by
  rcases load_cases disk path rfl with ⟨hfile, hload⟩ | ⟨hfile, hload⟩
  · obtain ⟨bytes, hbytes⟩ := Disk.Store.systemPath_of_isFile hfile
    rw [← Unread.of_taken hbytes, hload]
    constructor
    · intro h
      rcases except_bind_eq_error.mp h with h | ⟨_, _, h⟩
      · rcases entriesIn_error h with hc | hu
        · rw [isReported_of_isConfiguration hc] at hf
          cases hf
        · exact hu
      · cases h
    · intro h
      rw [entriesIn_unread h]
      rfl
  · refine iff_of_false ?_ ?_
    · intro h
      rcases hload with hl | hl
      · rw [hl] at h
        cases h
      · rw [hl] at h
        cases h
        cases hf
    · rintro ⟨_, _, _, hr, _⟩
      rw [Disk.Store.isFile_of_read hr] at hfile
      cases hfile

/-- All settings are texts. -/
def OfTexts (c : Settings) : Prop :=
  ∀ e ∈ c.entries, ∃ t, e.2 = .text t

theorem ofTexts_of_load {path : Option Text} {c : Settings} (h : load disk path [] = .ok c) :
    c.OfTexts := by
  rcases load_cases disk path rfl with ⟨_, hload⟩ | ⟨_, hload | hload⟩
  · rw [hload] at h
    obtain ⟨entries, _, h⟩ := except_bind_eq_ok.mp h
    cases h
    intro e he
    obtain ⟨⟨k, v⟩, _, rfl⟩ := List.mem_map.mp he
    exact ⟨v, rfl⟩
  · rw [hload] at h
    cases h
    exact fun e he => nomatch he
  · rw [hload] at h
    cases h

/-- A setting that is no text is the default of its key. -/
theorem OfTexts.value {c : Settings} (h : c.OfTexts) (key : Text) :
    (∃ t, c.value key = .text t) ∨
      c.value key = (Default.settings.lookup key).getD .absent := by
  unfold Settings.value Settings.get
  cases hl : c.entries.lookup key with
  | none => exact .inr rfl
  | some v =>
    obtain ⟨before, after, hsplit, _⟩ := List.lookup_eq_some_iff.mp hl
    obtain ⟨t, ht⟩ := h (key, v) (by rw [hsplit]; simp)
    exact .inl ⟨t, ht⟩

/-- Settings that are texts, or have a default that is whole, are whole or are reported. -/
theorem whole_error {c : Settings} {key : Text} (h : c.OfTexts)
    (hd : ∃ n, Default.settings.lookup key = some (.whole n)) (he : c.whole key = .error f) :
    f.trouble.isReported = true := by
  obtain ⟨n, hn⟩ := hd
  unfold whole wholeOr at he
  change (c.value key).toWhole.mapError _ = _ at he
  rcases h.value key with ⟨t, ht⟩ | hv
  · rw [ht] at he
    change ((Text.readInteger t).mapError _).mapError _ = _ at he
    cases hr : Text.readInteger t with
    | ok n =>
      rw [hr] at he
      cases he
    | error g =>
      rw [hr] at he
      cases he
      rfl
  · rw [hv, hn] at he
    cases he

end Settings

/-- Credentials are not loaded for a reason that is not reported exactly if their file is not read
for such a reason. -/
theorem Cloud.Credentials.load_unreported {disk : Disk.Store} {path : Text} {f : Fault}
    (hf : f.trouble.isReported = false) :
    Credentials.load disk path = .error f ↔
      Unread disk (disk.expand path) (Settings.parse path) f := by
  unfold Credentials.load
  constructor
  · intro h
    split at h
    · unfold Credentials.ofEntries at h
      split at h
      · cases h
      · cases h
        cases hf
    · rename_i g hg
      split at h
      · cases h
        cases hf
      · rename_i hc
        cases h
        exact (Settings.entriesIn_error hg).resolve_left hc
  · intro h
    rw [Settings.entriesIn_unread h]
    dsimp only
    rw [if_neg]
    intro hc
    rw [Settings.isReported_of_isConfiguration hc] at hf
    cases hf

namespace Roster

variable {disk : Disk.Store} {path : Text} {mustExist : Bool} {f : Fault} {r : Roster}

theorem agentsOf_error {ls : List (Nat × Text)} (h : agentsOf path ls = .error f) :
    f.trouble.isReported = true := by
  induction ls with
  | nil => cases h
  | cons l rest ih =>
    unfold agentsOf at h
    split at h
    · split at h
      · cases hr : agentsOf path rest with
        | ok agents =>
          rw [hr] at h
          cases h
        | error g =>
          rw [hr] at h
          cases h
          exact ih hr
      · cases h
        rfl
    · exact ih h

theorem parse_error {text : Text} (h : parse path text = .error f) :
    f.trouble.isReported = true := by
  unfold parse at h
  cases ha : agentsOf path (Text.numbered (Text.lines text)) with
  | ok agents =>
    rw [ha] at h
    cases h
  | error g =>
    rw [ha] at h
    cases h
    exact agentsOf_error ha

theorem read_unparsed (hp : disk.hasPath (disk.expand path) = true)
    (h : ∃ f, parseFile disk (disk.expand path) (parse path) = .error f) :
    ∃ f, read disk path mustExist = .error f := by
  obtain ⟨f, h⟩ := h
  unfold read
  dsimp only
  rw [hp, Bool.not_true, if_neg (by decide)]
  exact ⟨_, mapError_eq_error.mpr ⟨f, h, rfl⟩⟩

/-- A roster is not read for a reason that is not reported exactly if its file holds no text. -/
theorem read_unreported (hf : f.trouble.isReported = false) :
    read disk path mustExist = .error f ↔
      f = .of .notText ∧ Undecoded disk (disk.expand path) (parse path) := by
  cases hp : disk.hasPath (disk.expand path) with
  | false =>
    refine iff_of_false ?_ ?_
    · intro h
      unfold read at h
      dsimp only at h
      rw [hp] at h
      cases mustExist with
      | true =>
        cases h
        cases hf
      | false => cases h
    · rintro ⟨_, _, _, hr, _⟩
      rw [Disk.Store.hasPath_of_read hr] at hp
      cases hp
  | true =>
    obtain ⟨bytes, hbytes⟩ := Disk.Store.systemPath_of_hasPath hp
    rw [← Unread.of_taken hbytes]
    unfold read
    dsimp only
    rw [hp, Bool.not_true, if_neg (by decide)]
    constructor
    · intro h
      rcases mapped_error h with ⟨g, rfl⟩ | hu | ⟨_, h⟩
      · cases hf
      · exact hu
      · rw [parse_error h] at hf
        cases hf
    · exact Unread.mapped

theorem mem_agentsOf {ls : List (Nat × Text)} {agents : List Agent} {a : Agent}
    (h : agentsOf path ls = .ok agents) (ha : a ∈ agents) :
    ∃ l ∈ ls, Agent.ofLine (Text.strip l.2) = .ok a := by
  induction ls generalizing agents with
  | nil =>
    cases h
    cases ha
  | cons l rest ih =>
    unfold agentsOf at h
    split at h
    · split at h
      · rename_i b hb
        cases hr : agentsOf path rest with
        | ok more =>
          rw [hr] at h
          cases h
          rcases List.mem_cons.mp ha with rfl | ha
          · exact ⟨l, List.mem_cons_self, hb⟩
          · obtain ⟨l', hl', ha⟩ := ih hr ha
            exact ⟨l', List.mem_cons_of_mem l hl', ha⟩
        | error g =>
          rw [hr] at h
          cases h
      · cases h
    · obtain ⟨l', hl', ha⟩ := ih h ha
      exact ⟨l', List.mem_cons_of_mem l hl', ha⟩

/-- A roster is read with agents that can be written. -/
theorem read_writable (hd : disk.Faithful) (h : read disk path mustExist = .ok r) :
    ∀ a ∈ r.agents, a.IsWritable := by
  rcases read_eq_ok.mp h with ⟨_, _, rfl⟩ | ⟨text, htext, hp⟩
  · simp
  · obtain ⟨agents, hagents, rfl⟩ := parse_eq_ok.mp hp
    intro a ha
    obtain ⟨l, hl, hof⟩ := mem_agentsOf hagents ((mem_distinct agents a).mp ha)
    obtain ⟨⟨line, n⟩, hz, rfl⟩ := List.mem_map.mp hl
    refine Agent.isWritable_of_ofLine hof (isWritable_subset (hd.isWritable htext) fun p hp => ?_)
    exact Text.subset_of_mem_lines (List.fst_mem_of_mem_zipIdx hz) p (Text.strip_subset hp)

end Roster

end AgentFleet
