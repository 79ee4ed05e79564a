import AgentFleet.Proofs.Lines
import AgentFleet.Proofs.Reading

namespace AgentFleet

theorem fields_eq_cons [DecidableEq α] {separator : α} {l f : List α} {fs : List (List α)}
    (h : fields separator l = f :: fs) :
    (fs = [] ∧ l = f) ∨ ∃ r, l = f ++ separator :: r ∧ fields separator r = fs := by
  induction l generalizing f with
  | nil =>
    cases h
    exact .inl ⟨rfl, rfl⟩
  | cons a l ih =>
    rw [fields] at h
    split at h
    · rename_i ha
      cases h
      exact .inr ⟨l, by rw [ha, List.nil_append], rfl⟩
    · split at h
      · rename_i g gs hg
        cases h
        rcases ih hg with ⟨rfl, rfl⟩ | ⟨r, rfl, hr⟩
        · exact .inl ⟨rfl, rfl⟩
        · exact .inr ⟨r, rfl, hr⟩
      · rename_i hnil
        exact absurd hnil (fields_ne_nil separator l)

theorem fields_eq_pair [DecidableEq α] {separator : α} {l f g : List α} :
    fields separator l = [f, g] ↔ separator ∉ f ∧ separator ∉ g ∧ l = f ++ separator :: g := by
  constructor
  · intro h
    refine ⟨not_mem_of_mem_fields (h ▸ List.mem_cons_self),
      not_mem_of_mem_fields (h ▸ List.mem_cons_of_mem _ List.mem_cons_self), ?_⟩
    rcases fields_eq_cons h with ⟨hnil, _⟩ | ⟨r, rfl, hr⟩
    · cases hnil
    · rcases fields_eq_cons hr with ⟨_, rfl⟩ | ⟨r', _, hr'⟩
      · rfl
      · exact absurd hr' (fields_ne_nil separator r')
  · rintro ⟨hf, hg, rfl⟩
    rw [fields_append hf, fields_piece hg]

namespace Agent

/-- A line holds an agent: there is one comma in it, and something that is not blank on each side
of that. -/
inductive Held : Text → Agent → Prop
  | mk {outer inner : Text} (houter : .char ',' ∉ outer) (hinner : .char ',' ∉ inner)
      (ho : ¬ outer.Blank) (hi : ¬ inner.Blank) :
      Held (outer ++ .char ',' :: inner) ⟨Text.strip outer, Text.strip inner⟩

variable {line : Text} {a : Agent}

theorem ofLine_eq_ok : ofLine line = .ok a ↔ Held line a := by
  constructor
  · intro h
    unfold ofLine at h
    split at h
    · rename_i outer inner hm
      obtain ⟨f, _, hfields, rfl, hrest⟩ := List.map_eq_cons_iff.mp hm
      obtain ⟨g, _, rfl, rfl, hnil⟩ := List.map_eq_cons_iff.mp hrest
      rw [List.map_eq_nil_iff.mp hnil] at hfields
      obtain ⟨hf, hg, rfl⟩ := fields_eq_pair.mp hfields
      split at h
      · cases h
      · rename_i ho
        split at h
        · cases h
        · rename_i hi
          cases h
          rw [List.isEmpty_iff, Text.strip_eq_nil] at ho hi
          exact .mk hf hg ho hi
    · cases h
  · rintro ⟨hf, hg, ho, hi⟩
    have hfields := fields_eq_pair.mpr ⟨hf, hg, rfl⟩
    rw [← Text.strip_eq_nil] at ho hi
    simp [ofLine, hfields, ho, hi]

theorem held_strip : Held (Text.strip line) a ↔ Held line a := by
  have hcomma : Text.isBlank (.char ',') = false := rfl
  constructor
  · intro h
    obtain ⟨before, after, hb, ha, hline⟩ := Text.exists_padding line
    generalize Text.strip line = stripped at h hline
    obtain @⟨outer, inner, houter, hinner, ho, hi⟩ := h
    have hfull : Held (before ++ outer ++ .char ',' :: (inner ++ after))
        ⟨Text.strip (before ++ outer ++ []), Text.strip ([] ++ inner ++ after)⟩ := by
      rw [List.append_nil, List.nil_append]
      refine .mk ?_ ?_ (fun h => ho h.of_append.2) (fun h => hi h.of_append.1)
      · rw [List.mem_append]
        exact not_or_intro (hb.not_mem hcomma) houter
      · rw [List.mem_append]
        exact not_or_intro hinner (ha.not_mem hcomma)
    rw [Text.strip_padded hb Text.blank_nil, Text.strip_padded Text.blank_nil ha] at hfull
    rw [hline]
    simpa using hfull
  · rintro @⟨outer, inner, houter, hinner, ho, hi⟩
    rw [Text.strip_around hcomma, ← Text.strip_dropWhile outer, ← Text.strip_rdropWhile inner]
    rw [← Text.strip_eq_nil, ← Text.strip_dropWhile, Text.strip_eq_nil] at ho
    rw [← Text.strip_eq_nil, ← Text.strip_rdropWhile, Text.strip_eq_nil] at hi
    exact .mk (fun h => houter (List.dropWhile_subset _ h))
      (fun h => hinner ((List.rdropWhile_prefix _ _).subset h)) ho hi

end Agent

theorem distinct_append (l more : List Agent) :
    distinct (l ++ more) = distinct l ++ (distinct more).filter (· ∉ l) := by
  induction l with
  | nil => simp [distinct]
  | cons a l ih =>
    have hfilter : ((distinct more).filter (· ∉ l)).filter (· ≠ a) =
        (distinct more).filter (· ∉ a :: l) := by
      rw [List.filter_filter]
      refine List.filter_congr fun b _ => ?_
      simp
    rw [List.cons_append, distinct, ih, List.filter_append, hfilter, distinct, List.cons_append]

/-- What is left out of parts of a list would be left out of the whole. -/
theorem distinct_distinct_append (l more : List Agent) :
    distinct (distinct l ++ distinct more) = distinct (l ++ more) := by
  rw [distinct_append, distinct_append, Roster.distinct_of_nodup (nodup_distinct l),
    Roster.distinct_of_nodup (nodup_distinct more)]
  simp only [mem_distinct]

namespace Roster

open Agent

/-- A line that is neither blank nor a comment. -/
def Significant (line : Text) : Prop :=
  Text.strip line ≠ [] ∧ (Text.strip line).head? ≠ some (.char '#')

instance : DecidablePred Significant :=
  fun _ => inferInstanceAs (Decidable (_ ∧ _))

theorem isSignificant_iff {line : Text} : isSignificant line = true ↔ Significant line := by
  unfold isSignificant Significant
  cases Text.strip line <;> simp

/-- What a line of an agents file holds. -/
def agentItem (path line : Text) : Except (Nat → Fault) (Option Agent) :=
  if Significant line then
    match ofLine (Text.strip line) with
    | .ok a => .ok (some a)
    | .error f => .error fun n => .of (.agentsFile path f.message (some n))
  else .ok none

variable {path line : Text}

theorem agentItem_eq_ok {a : Option Agent} : agentItem path line = .ok a ↔
    if Significant line then ∃ b, Held line b ∧ a = some b else a = none := by
  unfold agentItem
  split
  · simp only [← @held_strip line, ← ofLine_eq_ok]
    cases ofLine (Text.strip line) <;> simp [eq_comm]
  · simp [eq_comm]

theorem agentItem_eq_error {fault : Nat → Fault} : agentItem path line = .error fault ↔
    Significant line ∧ ∃ f, ofLine (Text.strip line) = .error f ∧
      fault = fun n => .of (.agentsFile path f.message (some n)) := by
  unfold agentItem
  split
  · cases ofLine (Text.strip line) <;> simp [*, eq_comm]
  · simp [*]

theorem agentsOf_eq (n : Nat) (ls : List Text) :
    agentsOf path (Text.numberedFrom n ls) = gather (agentItem path) n ls := by
  induction ls generalizing n with
  | nil => rfl
  | cons line rest ih =>
    rw [Text.numberedFrom_cons, agentsOf, ih, gather, agentItem]
    by_cases hs : Significant line
    · rw [if_pos (isSignificant_iff.mpr hs), if_pos hs]
      cases ofLine (Text.strip line) <;> rfl
    · rw [if_neg fun h => hs (isSignificant_iff.mp h), if_neg hs]
      cases gather (agentItem path) (n + 1) rest <;> rfl

/-- What comes of the lines of an agents file. -/
inductive Loading (path : Text) (ls : List Text) : Except Fault Roster → Prop
  | loaded {agents : List Agent} (h : List.Forall₂ Held (ls.filter Significant) agents) :
      Loading path ls (.ok ⟨path, distinct agents⟩)
  | broken {before after : List Text} {line : Text} {f : LineFault}
      (hls : ls = before ++ line :: after)
      (hbefore : ∀ l ∈ before, Significant l → ∃ a, Held l a)
      (hline : Significant line) (hnone : ∀ a, ¬ Held line a)
      (hf : ofLine (Text.strip line) = .error f) :
      Loading path ls (.error (.of (.agentsFile path f.message (some (before.length + 1)))))

theorem held_of_items {ls : List Text} {held : List (Option Agent)}
    (h : List.Forall₂ (fun line a => agentItem path line = .ok a) ls held) :
    List.Forall₂ Held (ls.filter Significant) held.reduceOption := by
  induction h with
  | nil => exact .nil
  | @cons line a ls held ha _ ih =>
    rw [agentItem_eq_ok] at ha
    split at ha
    · rename_i hs
      obtain ⟨b, hb, rfl⟩ := ha
      rw [List.filter_cons_of_pos (by simpa using hs)]
      exact .cons hb ih
    · rename_i hs
      cases ha
      rw [List.filter_cons_of_neg (by simpa using hs)]
      exact ih

theorem parse_eq (path text : Text) :
    parse path text = (gather (agentItem path) 1 (Text.lines text)).map (ofList path) := by
  rw [parse, Text.numbered_eq, agentsOf_eq]

theorem loading_parse (path text : Text) :
    Loading path (Text.lines text) (parse path text) := by
  rw [parse_eq]
  rcases gather_cases (agentItem path) 1 (Text.lines text) with
    ⟨held, hheld, hrun⟩ | ⟨before, line, after, fault, hls, hbefore, hline, hrun⟩
  · rw [hrun]
    exact .loaded (held_of_items hheld)
  · obtain ⟨hs, f, hf, rfl⟩ := agentItem_eq_error.mp hline
    rw [hrun, Nat.add_comm 1]
    refine .broken hls (fun l hl hsl => ?_) hs (fun a ha => ?_) hf
    · obtain ⟨a, ha⟩ := hbefore l hl
      rw [agentItem_eq_ok, if_pos hsl] at ha
      exact ha.imp fun _ => And.left
    · rw [← held_strip, ← ofLine_eq_ok, hf] at ha
      cases ha

theorem joins_parse {a : Text} (ha : a.EndsLine) (path b : Text) :
    Joins (fun r more => ofList path (r.agents ++ more.agents)) (Text.lines a).length
      (parse path a) (parse path b) (parse path (a ++ b)) := by
  rw [parse_eq, parse_eq, parse_eq, Text.lines_append ha]
  refine (joins_gather (fun line fault h n above => ?_) 1 _ _).map fun l more => ?_
  · obtain ⟨_, f, _, rfl⟩ := agentItem_eq_error.mp h
    rfl
  · exact congrArg (Roster.mk path) (distinct_distinct_append l more)

theorem read_of_holds {disk : Disk.Store} {text : Text} (h : disk.Holds path text)
    (mustExist : Bool) : read disk path mustExist = parse path text := by
  obtain ⟨p, hl, hn⟩ := Disk.Store.read_eq_ok.mp h
  have hpath : disk.hasPath (disk.expand path) = true := Disk.Store.hasPath_iff.mpr ⟨p, _, hl, hn⟩
  unfold read
  dsimp only
  rw [hpath, Bool.not_true, if_neg (by decide)]
  exact mapped_text h fun _ => parse_error

/-- What is read from a file is told line by line. Where its text is written behind another one,
that ends its last line, the agents of both are read, and a fault in the second one is told with
its line in the whole. -/
theorem read_byLines {disk : Disk.Store} {text : Text} (h : disk.Holds path text)
    (mustExist : Bool) :
    (∃ ls, text.Lined ls ∧ Loading path ls (read disk path mustExist)) ∧
    ∀ (a b : Text) (first second : Disk.Store), text = a ++ b → a.EndsLine →
      first.Holds path a → second.Holds path b →
      ∃ ls, a.Lined ls ∧ Joins (fun r more => ofList path (r.agents ++ more.agents)) ls.length
        (read first path mustExist) (read second path mustExist) (read disk path mustExist) := by
  rw [read_of_holds h]
  refine ⟨⟨_, Text.lined_lines text, loading_parse path text⟩, ?_⟩
  rintro a b first second rfl ha hfirst hsecond
  rw [read_of_holds hfirst, read_of_holds hsecond]
  exact ⟨_, Text.lined_lines a, joins_parse ha path b⟩

/-- Two agents, the first of them twice, and a comment; a tab does not belong to an address. -/
def sound : Text := "p, x\r\n# none\rp,x\nq,\ty\n"

/-- A line that has nothing behind its comma follows one that is blank. -/
def unsound : Text := "\nr,"

/-- The fault in the second line is in the sixth line of the whole. -/
theorem read_byLines_secondBroken :
    read (.holding sound) "a" true = .ok ⟨"a", [⟨"p", "x"⟩, ⟨"q", "y"⟩]⟩ ∧
    read (.holding unsound) "a" true =
      .error (.of (.agentsFile "a" "missing private address in 'r,'" (some 2))) ∧
    read (.holding (sound ++ unsound)) "a" true =
      .error (.of (.agentsFile "a" "missing private address in 'r,'" (some 6))) := by
  have hsound : read (.holding sound) "a" true = .ok ⟨"a", [⟨"p", "x"⟩, ⟨"q", "y"⟩]⟩ := by
    rfl
  have hunsound : read (.holding unsound) "a" true =
      .error (.of (.agentsFile "a" "missing private address in 'r,'" (some 2))) := by
    rfl
  obtain ⟨ls, hlined, hjoins⟩ :=
    (read_byLines (Disk.Store.holds_holding (sound ++ unsound)) true).2 sound unsound
      (.holding sound) (.holding unsound) rfl (by decide) (Disk.Store.holds_holding _)
      (Disk.Store.holds_holding _)
  rw [hsound, hunsound] at hjoins
  refine ⟨hsound, hunsound, ?_⟩
  generalize read (.holding (sound ++ unsound)) "a" true = whole at hjoins
  cases hjoins
  rw [← hlined.lines_eq]
  rfl

end Roster

end AgentFleet
