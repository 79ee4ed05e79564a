import AgentFleet.Roster.File
import AgentFleet.Proofs.Replacement
import AgentFleet.Proofs.Texts

namespace AgentFleet

/-- An address that is fit for an agents file. -/
structure FitAddress (t : Text) : Prop where
  ne_nil : t ≠ []
  strip : Text.strip t = t
  noComma : .char ',' ∉ t
  oneLine : t.OneLine

theorem fitAddress_iff {t : Text} : FitAddress t ↔
    t ≠ [] ∧ Text.strip t = t ∧ .char ',' ∉ t ∧ .char '\n' ∉ t ∧ .char '\r' ∉ t := by
  constructor
  · intro h
    exact ⟨h.ne_nil, h.strip, h.noComma, h.oneLine⟩
  · rintro ⟨hne, hs, hc, hl⟩
    exact ⟨hne, hs, hc, hl⟩

instance (t : Text) : Decidable (FitAddress t) :=
  decidable_of_iff _ fitAddress_iff.symm

namespace Agent

/-- An agent that is fit for an agents file. -/
structure Fit (a : Agent) : Prop where
  outer : FitAddress a.publicAddress
  inner : FitAddress a.privateAddress
  noComment : a.publicAddress.head? ≠ some (.char '#')

instance (a : Agent) : Decidable a.Fit :=
  decidable_of_iff
    (FitAddress a.publicAddress ∧ FitAddress a.privateAddress ∧
      a.publicAddress.head? ≠ some (.char '#'))
    ⟨fun ⟨outer, inner, noComment⟩ => ⟨outer, inner, noComment⟩,
      fun h => ⟨h.outer, h.inner, h.noComment⟩⟩

theorem line_eq (a : Agent) : a.line = a.publicAddress ++ .char ',' :: a.privateAddress := by
  simp only [line, List.append_assoc]
  rfl

namespace Fit

variable {a : Agent}

theorem line_tight (h : a.Fit) : a.line.Tight :=
  Text.Tight.append (Text.strip_eq_self.mp h.outer.strip) (Text.strip_eq_self.mp h.inner.strip)
    h.outer.ne_nil h.inner.ne_nil ","

theorem line_oneLine (h : a.Fit) : a.line.OneLine := by
  rw [line_eq]
  constructor
  · simp [h.outer.oneLine.1, h.inner.oneLine.1]
  · simp [h.outer.oneLine.2, h.inner.oneLine.2]

theorem line_isSignificant (h : a.Fit) : Roster.isSignificant a.line = true := by
  obtain ⟨p, r, he⟩ := List.exists_cons_of_ne_nil h.outer.ne_nil
  have hp : p ≠ .char '#' := by
    rintro rfl
    exact h.noComment (by rw [he]; rfl)
  rw [Roster.isSignificant, h.line_tight.strip, line_eq, he]
  simpa using hp

theorem ofLine_line (h : a.Fit) : ofLine a.line = .ok a := by
  have hf : fields (.char ',') a.line = [a.publicAddress, a.privateAddress] := by
    rw [line_eq, fields_append h.outer.noComma, fields_piece h.inner.noComma]
  simp only [ofLine, hf, List.map_cons, List.map_nil, h.outer.strip, h.inner.strip]
  simp [h.outer.ne_nil, h.inner.ne_nil]

end Fit

theorem fitAddress_of_field {line f : Text} (hl : line.OneLine)
    (hf : f ∈ fields (.char ',') (Text.strip line)) (hne : Text.strip f ≠ []) :
    FitAddress (Text.strip f) := by
  have hsub : ∀ p ∈ Text.strip f, p ∈ line := fun p hp =>
    Text.strip_subset (subset_of_mem_fields hf p (Text.strip_subset hp))
  refine ⟨hne, Text.strip_strip f, ?_, fun h => hl.1 (hsub _ h), fun h => hl.2 (hsub _ h)⟩
  exact fun h => not_mem_of_mem_fields hf (Text.strip_subset h)

/-- An agent that is read from a line that counts is fit. -/
theorem fit_of_ofLine {line : Text} {a : Agent} (hl : line.OneLine)
    (hs : Roster.isSignificant line = true) (h : ofLine (Text.strip line) = .ok a) : a.Fit := by
  unfold ofLine at h
  split at h
  · rename_i outer inner hm
    obtain ⟨f, fs, hfields, rfl, hrest⟩ := List.map_eq_cons_iff.mp hm
    obtain ⟨g, gs, rfl, rfl, hnil⟩ := List.map_eq_cons_iff.mp hrest
    split at h
    · cases h
    · rename_i houter
      split at h
      · cases h
      · rename_i hinner
        cases h
        have ho : Text.strip f ≠ [] := by simpa using houter
        have hi : Text.strip g ≠ [] := by simpa using hinner
        refine ⟨fitAddress_of_field hl (by simp [hfields]) ho,
          fitAddress_of_field hl (by simp [hfields]) hi, ?_⟩
        have hfne : f ≠ [] := by
          rintro rfl
          exact ho rfl
        obtain ⟨p, r, hp⟩ := List.exists_cons_of_ne_nil hfne
        have hhead : (Text.strip line).head? = some p := by
          rw [← head_fields hfields hfne, hp]
          rfl
        have hblank := (Text.tight_strip line).head p hhead
        change (Text.strip f).head? ≠ _
        rw [Text.head?_strip (by rw [hp]; rfl) hblank]
        intro e
        rw [Option.some.inj e] at hhead
        obtain ⟨r', hr'⟩ : ∃ r', Text.strip line = .char '#' :: r' := by
          cases hsl : Text.strip line with
          | nil => simp [hsl] at hhead
          | cons q r' => exact ⟨r', by simp [hsl] at hhead; rw [hhead]⟩
        rw [Roster.isSignificant, hr'] at hs
        simp at hs
  · cases h

end Agent

namespace Roster

theorem lines_agentLines {agents : List Agent} (h : ∀ a ∈ agents, a.Fit) :
    Text.lines (agentLines agents) = agents.map Agent.line := by
  induction agents with
  | nil => rfl
  | cons a rest ih =>
    have hrest := ih fun b hb => h b (List.mem_cons_of_mem _ hb)
    have he : agentLines (a :: rest) = a.line ++ .char '\n' :: agentLines rest := by
      simp only [agentLines, List.flatMap_cons, List.append_assoc]
      rfl
    rw [he, Text.lines_line (h a List.mem_cons_self).line_oneLine, hrest, List.map_cons]

theorem agentsOf_lines (path : Text) {agents : List Agent} (h : ∀ a ∈ agents, a.Fit) (n : Nat) :
    agentsOf path (((agents.map Agent.line).zipIdx n).map fun (l, n) => (n, l)) = .ok agents := by
  induction agents generalizing n with
  | nil => rfl
  | cons a rest ih =>
    have ha := h a List.mem_cons_self
    have hrest := ih (fun b hb => h b (List.mem_cons_of_mem _ hb)) (n + 1)
    simp only [List.map_cons, List.zipIdx_cons, agentsOf, ha.line_isSignificant, if_true,
      ha.line_tight.strip, ha.ofLine_line, hrest]
    rfl

theorem distinct_of_nodup {l : List Agent} (h : l.Nodup) : distinct l = l := by
  induction l with
  | nil => rfl
  | cons a r ih =>
    obtain ⟨ha, hr⟩ := List.nodup_cons.mp h
    rw [distinct, ih hr, List.filter_eq_self.mpr]
    intro b hb
    have : b ≠ a := fun e => ha (e ▸ hb)
    simpa using this

/-- Fit agents are read back. -/
theorem parse_agentLines (path : Text) {agents : List Agent} (hf : ∀ a ∈ agents, a.Fit)
    (hn : agents.Nodup) : parse path (agentLines agents) = .ok ⟨path, agents⟩ := by
  simp only [parse, Text.numbered, lines_agentLines hf, agentsOf_lines path hf, Except.map, ofList,
    distinct_of_nodup hn]

theorem fit_of_agentsOf {path : Text} {ls : List (Nat × Text)} {agents : List Agent}
    (hl : ∀ l ∈ ls, l.2.OneLine) (h : agentsOf path ls = .ok agents) : ∀ a ∈ agents, a.Fit := by
  induction ls generalizing agents with
  | nil =>
    cases h
    simp
  | cons l rest ih =>
    obtain ⟨n, line⟩ := l
    have hrest : ∀ l ∈ rest, l.2.OneLine := fun l hm => hl l (List.mem_cons_of_mem _ hm)
    rw [agentsOf] at h
    split at h
    · rename_i hs
      split at h
      · rename_i a ha
        cases hr : agentsOf path rest with
        | error f =>
          rw [hr] at h
          cases h
        | ok more =>
          rw [hr] at h
          cases h
          intro b hb
          rcases List.mem_cons.mp hb with rfl | hb
          · exact Agent.fit_of_ofLine (hl (n, line) List.mem_cons_self) hs ha
          · exact ih hrest hr b hb
      · cases h
    · exact ih hrest h

theorem parse_eq_ok {path text : Text} {r : Roster} : parse path text = .ok r ↔
    ∃ agents, agentsOf path (Text.numbered (Text.lines text)) = .ok agents ∧
      r = ofList path agents := by
  unfold parse
  cases agentsOf path (Text.numbered (Text.lines text)) <;> simp [Except.map, eq_comm]

/-- Whatever is parsed is fit, and is there once. -/
theorem fit_of_parse {path text : Text} {r : Roster} (h : parse path text = .ok r) :
    (∀ a ∈ r.agents, a.Fit) ∧ r.agents.Nodup := by
  obtain ⟨agents, ha, rfl⟩ := parse_eq_ok.mp h
  refine ⟨fun a hm => ?_, nodup_distinct agents⟩
  refine fit_of_agentsOf (fun l hl => ?_) ha a ((mem_distinct agents a).mp hm)
  obtain ⟨⟨line, n⟩, hz, rfl⟩ := List.mem_map.mp hl
  exact Text.oneLine_of_mem_lines (List.fst_mem_of_mem_zipIdx hz)

section Loading

variable {disk before after : Disk.Store} {path : Text} {mustExist : Bool} {agents : List Agent}
  {r : Roster}

/-- Only of a text something is made in the end. -/
theorem parseFile_eq_ok {parse : Text → Except Fault α} {a : α} :
    parseFile disk path parse = .ok a ↔
      ∃ text, disk.read path = .ok (.text text) ∧ parse text = .ok a := by
  unfold parseFile
  cases disk.read path with
  | error why => exact ⟨fun h => (nomatch h), fun ⟨_, h, _⟩ => (nomatch h)⟩
  | ok c =>
    cases c with
    | text t => simp
    | bytes b =>
      refine ⟨fun h => ?_, fun ⟨_, h, _⟩ => (nomatch h)⟩
      obtain ⟨_, _, h⟩ := except_bind_eq_ok.mp h
      cases h

/-- A roster is read where there is nothing, if that may be, or from a text. -/
theorem read_eq_ok : read disk path mustExist = .ok r ↔
    (mustExist = false ∧ disk.hasPath (disk.expand path) = false ∧ r = ⟨path, []⟩) ∨
      ∃ text, disk.read (disk.expand path) = .ok (.text text) ∧ parse path text = .ok r := by
  cases hp : disk.hasPath (disk.expand path) with
  | false =>
    have hnone : ∀ text, disk.read (disk.expand path) ≠ .ok (.text text) := by
      intro text ht
      obtain ⟨p, hl, hn⟩ := Disk.Store.read_eq_ok.mp ht
      rw [Disk.Store.hasPath_iff.mpr ⟨p, _, hl, hn⟩] at hp
      cases hp
    cases mustExist <;> simp [read, hp, hnone, eq_comm]
  | true =>
    simp only [read, hp, Bool.not_true, Bool.false_eq_true, if_false, reduceCtorEq, false_and,
      and_false, false_or, mapError_eq_ok, parseFile_eq_ok]

theorem read_path (h : read disk path mustExist = .ok r) : r.path = path := by
  rcases read_eq_ok.mp h with ⟨_, _, rfl⟩ | ⟨text, _, hp⟩
  · rfl
  · obtain ⟨agents, _, rfl⟩ := parse_eq_ok.mp hp
    rfl

/-- Whatever is read is fit, and is there once. -/
theorem read_fit (h : read disk path mustExist = .ok r) :
    (∀ a ∈ r.agents, a.Fit) ∧ r.agents.Nodup := by
  rcases read_eq_ok.mp h with ⟨_, _, rfl⟩ | ⟨text, _, hp⟩
  · simp
  · exact fit_of_parse hp

theorem read_of_file (h : disk.read (disk.expand path) = .ok (.text (agentLines agents)))
    (hf : ∀ a ∈ agents, a.Fit) (hn : agents.Nodup) :
    read disk path mustExist = .ok ⟨path, agents⟩ :=
  read_eq_ok.mpr (.inr ⟨_, h, parse_agentLines path hf hn⟩)

/-- A path is read as before when what it leads to, and whether it leads anywhere, is as before. -/
theorem read_congr (he : after.expand path = before.expand path)
    (hp : after.hasPath (before.expand path) = before.hasPath (before.expand path))
    (hr : ∀ c, after.read (before.expand path) = .ok c ↔ before.read (before.expand path) = .ok c) :
    read after path mustExist = .ok r ↔ read before path mustExist = .ok r := by
  simp only [read_eq_ok, he, hp, hr]

/-- The list that a path loads as. -/
def Loads (disk : Disk.Store) (path : Text) (agents : List Agent) : Prop :=
  (read disk path false).map (·.agents) = .ok agents

theorem loads_iff :
    Loads disk path agents ↔ ∃ r, read disk path false = .ok r ∧ r.agents = agents := by
  unfold Loads
  cases read disk path false <;> simp [Except.map]

theorem Loads.unique {more : List Agent} (h : Loads disk path agents) (h' : Loads disk path more) :
    agents = more :=
  Except.ok.inj (Eq.trans (Eq.symm h) h')

/-- What loads is fit, and is there once. -/
theorem Loads.fit (h : Loads disk path agents) : (∀ a ∈ agents, a.Fit) ∧ agents.Nodup := by
  obtain ⟨r, hr, rfl⟩ := loads_iff.mp h
  exact read_fit hr

theorem loads_of_file (h : disk.read (disk.expand path) = .ok (.text (agentLines agents)))
    (hf : ∀ a ∈ agents, a.Fit) (hn : agents.Nodup) : Loads disk path agents :=
  loads_iff.mpr ⟨⟨path, agents⟩, read_of_file h hf hn, rfl⟩

theorem loads_congr (he : after.expand path = before.expand path)
    (hp : after.hasPath (before.expand path) = before.hasPath (before.expand path))
    (hr : ∀ c, after.read (before.expand path) = .ok c ↔ before.read (before.expand path) = .ok c) :
    Loads after path agents ↔ Loads before path agents := by
  simp only [loads_iff, read_congr he hp hr]

end Loading

end Roster

end AgentFleet
