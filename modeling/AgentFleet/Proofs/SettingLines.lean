import AgentFleet.Proofs.Lines
import AgentFleet.Proofs.Reading

namespace AgentFleet

section Entries

variable [BEq κ] {done more : List (κ × α)} {key other : κ}

/-- Entries with more set on top, one after the other. -/
def updated (done more : List (κ × α)) : List (κ × α) :=
  more.foldl (fun es e => setEntry es e.1 e.2) done

theorem updated_cons (done : List (κ × α)) (e : κ × α) (more : List (κ × α)) :
    updated done (e :: more) = updated (setEntry done e.1 e.2) more := rfl

theorem updated_append (done more others : List (κ × α)) :
    updated done (more ++ others) = updated (updated done more) others :=
  List.foldl_append

theorem forall_updated {P : κ × α → Prop} (h : ∀ e ∈ more, P e) : ∀ e ∈ updated [] more, P e := by
  induction more using List.reverseRecOn with
  | nil => exact List.forall_mem_nil _
  | append_singleton more e ih =>
    obtain ⟨hmore, he⟩ := List.forall_mem_append.mp h
    rw [updated_append]
    exact forall_setEntry (ih hmore) (List.forall_mem_singleton.mp he)

variable [LawfulBEq κ]

theorem setEntry_again (done : List (κ × α)) (key : κ) (a b : α) :
    setEntry (setEntry done key a) key b = setEntry done key b := by
  induction done with
  | nil => simp [setEntry]
  | cons e rest ih =>
    rw [setEntry]
    split
    · rename_i he
      rw [setEntry, setEntry, if_pos he, if_pos (beq_self_eq_true key)]
    · rename_i he
      rw [setEntry, setEntry, if_neg he, if_neg he, ih]

theorem mem_keys_setEntry {a : α} :
    key ∈ (setEntry done other a).map (·.1) ↔ key = other ∨ key ∈ done.map (·.1) := by
  induction done with
  | nil => simp [setEntry]
  | cons e rest ih =>
    rw [setEntry]
    split
    · rename_i he
      rw [eq_of_beq he]
      simp only [List.map_cons, List.mem_cons, ← or_assoc, or_self]
    · simp only [List.map_cons, List.mem_cons, ih, or_left_comm]

/-- A key that is there keeps its place, so it does not matter when another one is set. -/
theorem setEntry_comm (hkey : key ∈ done.map (·.1)) (hne : key ≠ other) (a b : α) :
    setEntry (setEntry done other b) key a = setEntry (setEntry done key a) other b := by
  induction done with
  | nil => cases hkey
  | cons e rest ih =>
    obtain ⟨k, c⟩ := e
    by_cases hk : key = k
    · subst hk
      simp [setEntry, Ne.symm hne]
    · have hrest : key ∈ rest.map (·.1) := (List.mem_cons.mp hkey).resolve_left hk
      by_cases ho : other = k
      · subst ho
        simp [setEntry, hk]
      · simp [setEntry, hk, ho, ih hrest]

theorem setEntry_updated (hkey : key ∈ done.map (·.1)) (hfresh : key ∉ more.map (·.1)) (a : α) :
    setEntry (updated done more) key a = updated (setEntry done key a) more := by
  induction more generalizing done with
  | nil => rfl
  | cons e more ih =>
    rw [List.map_cons, List.mem_cons, not_or] at hfresh
    rw [updated_cons, updated_cons, ih (mem_keys_setEntry.mpr (.inr hkey)) hfresh.2,
      setEntry_comm hkey hfresh.1]

/-- To set an entry among those that are set on top is to set it after them. -/
theorem updated_setEntry (h : (more.map (·.1)).Nodup) (done : List (κ × α)) (key : κ) (a : α) :
    updated done (setEntry more key a) = setEntry (updated done more) key a := by
  induction more generalizing done with
  | nil => rfl
  | cons e more ih =>
    obtain ⟨he, hmore⟩ := List.nodup_cons.mp h
    rw [setEntry]
    split
    · -- the entry stands before those in `more`, none of which has its key
      rename_i hkey
      rw [eq_of_beq hkey, updated_cons, updated_cons,
        setEntry_updated (mem_keys_setEntry.mpr (.inl rfl)) he, setEntry_again]
    · rw [updated_cons, updated_cons, ih hmore]

theorem nodup_updated (more : List (κ × α)) : ((updated [] more).map (·.1)).Nodup := by
  induction more using List.reverseRecOn with
  | nil => exact List.nodup_nil
  | append_singleton more e ih =>
    rw [updated_append]
    exact nodup_setEntry ih

theorem updated_updated (done more : List (κ × α)) :
    updated done (updated [] more) = updated done more := by
  induction more using List.reverseRecOn with
  | nil => rfl
  | append_singleton more e ih =>
    rw [updated_append, updated_append, ← ih]
    exact updated_setEntry (nodup_updated more) done e.1 e.2

/-- Of entries with one key the last one counts. -/
theorem lookup_updated (more : List (κ × α)) (key : κ) :
    (updated [] more).lookup key = more.reverse.lookup key := by
  induction more using List.reverseRecOn with
  | nil => rfl
  | append_singleton more e ih =>
    rw [updated_append, List.reverse_append, List.reverse_singleton, List.singleton_append,
      List.lookup_cons, ← ih, updated_cons]
    refine (lookup_setEntry (updated [] more) e.1 key e.2).trans ?_
    cases key == e.1 <;> rfl

end Entries

namespace Settings

section Dividing

variable {c d : Char} {t rest : Text} {n : Nat}

theorem idxOf?_behind {p q : Text.Point} (hq : q ∉ t) : (t ++ p :: rest).idxOf? q =
    if p = q then some t.length else (rest.idxOf? q).map (· + (t.length + 1)) := by
  induction t with
  | nil => simp [List.idxOf?_cons]
  | cons r t ih =>
    rw [List.mem_cons, not_or] at hq
    rw [List.cons_append, List.idxOf?_cons, if_neg (by simpa using Ne.symm hq.1), ih hq.2]
    split
    · rfl
    · rw [Option.map_map]
      rfl

theorem separator?_first (hne : t ≠ []) (hc : .char c ∉ t) :
    separator? c (t ++ .char c :: rest) = some t.length := by
  obtain ⟨p, t', rfl⟩ := List.exists_cons_of_ne_nil hne
  rw [separator?, idxOf?_behind hc, if_pos rfl]
  rfl

theorem separator?_later (hd : .char d ∉ t) (hcd : c ≠ d)
    (h : separator? d (t ++ .char c :: rest) = some n) : t.length < n := by
  rw [separator?, idxOf?_behind hd, if_neg (by simpa using hcd)] at h
  cases hrest : rest.idxOf? (.char d) with
  | none => simp [hrest] at h
  | some m =>
    simp [hrest] at h
    omega

theorem division?_eq (hne : t ≠ []) (hequals : .char '=' ∉ t) (hcolon : .char ':' ∉ t)
    (hc : c = '=' ∨ c = ':') : division? (t ++ .char c :: rest) = some t.length := by
  unfold division?
  rcases hc with rfl | rfl
  · rw [separator?_first hne hequals]
    cases hlater : separator? ':' (t ++ .char '=' :: rest) with
    | none => rfl
    | some n =>
      have := separator?_later hcolon (by decide) hlater
      exact congrArg some (Nat.min_eq_left this.le)
  · rw [separator?_first hne hcolon]
    cases hlater : separator? '=' (t ++ .char ':' :: rest) with
    | none => rfl
    | some n =>
      have := separator?_later hequals (by decide) hlater
      exact congrArg some (Nat.min_eq_right this.le)

theorem separator?_pos {line : Text} (h : separator? c line = some n) : 0 < n := by
  unfold separator? at h
  split at h
  · cases h
    exact Nat.succ_pos _
  · cases h

theorem division?_pos {line : Text} (h : division? line = some n) : 0 < n := by
  unfold division? at h
  split at h
  · rename_i a b ha hb
    cases h
    exact Nat.lt_min.mpr ⟨separator?_pos ha, separator?_pos hb⟩
  · rename_i a ha _
    cases h
    exact separator?_pos ha
  · exact separator?_pos h

end Dividing

/-- A key that is fit for a settings file. -/
structure FitKey (key : Text) : Prop where
  ne_nil : key ≠ []
  strip : Text.strip key = key
  noEquals : .char '=' ∉ key
  noColon : .char ':' ∉ key
  noComment : isComment key = false

instance (key : Text) : Decidable (FitKey key) :=
  decidable_of_iff
    (key ≠ [] ∧ Text.strip key = key ∧ .char '=' ∉ key ∧ .char ':' ∉ key ∧ isComment key = false)
    ⟨fun ⟨ne_nil, strip, noEquals, noColon, noComment⟩ =>
      ⟨ne_nil, strip, noEquals, noColon, noComment⟩,
      fun h => ⟨h.ne_nil, h.strip, h.noEquals, h.noColon, h.noComment⟩⟩

/-- A key and a value, with a separator between and blanks around them. -/
structure Entry where
  before : Text
  key : Text
  left : Text
  separator : Char
  right : Text
  value : Text
  after : Text

namespace Entry

def line (e : Entry) : Text :=
  e.before ++ e.key ++ e.left ++ .char e.separator :: (e.right ++ e.value ++ e.after)

structure Fit (e : Entry) : Prop where
  before : e.before.Blank
  key : FitKey e.key
  left : e.left.Blank
  separator : e.separator = '=' ∨ e.separator = ':'
  right : e.right.Blank
  value : Text.strip e.value = e.value
  after : e.after.Blank

instance (e : Entry) : Decidable e.Fit :=
  decidable_of_iff
    (e.before.Blank ∧ FitKey e.key ∧ e.left.Blank ∧ (e.separator = '=' ∨ e.separator = ':') ∧
      e.right.Blank ∧ Text.strip e.value = e.value ∧ e.after.Blank)
    ⟨fun ⟨before, key, left, separator, right, value, after⟩ =>
      ⟨before, key, left, separator, right, value, after⟩,
      fun h => ⟨h.before, h.key, h.left, h.separator, h.right, h.value, h.after⟩⟩

namespace Fit

variable {e : Entry}

theorem separator_notBlank (h : e.Fit) : Text.isBlank (.char e.separator) = false := by
  rcases h.separator with hs | hs
  · rw [hs]
    rfl
  · rw [hs]
    rfl

theorem strip_line (h : e.Fit) : Text.strip e.line = e.key ++ e.left ++ .char e.separator ::
    (e.right ++ e.value ++ e.after).rdropWhile Text.isBlank := by
  have hbefore : (e.before ++ e.key ++ e.left).dropWhile Text.isBlank = e.key ++ e.left := by
    obtain ⟨p, key, hkey⟩ := List.exists_cons_of_ne_nil h.key.ne_nil
    have hp : Text.isBlank p = false :=
      (Text.strip_eq_self.mp h.key.strip).head p (by rw [hkey]; rfl)
    rw [List.append_assoc, List.dropWhile_append_of_pos h.before, hkey, List.cons_append,
      List.dropWhile_cons_of_neg (by simp [hp])]
  rw [line, Text.strip_around h.separator_notBlank, hbefore]

/-- No blanks are part of the key or the value. -/
theorem entry?_line (h : e.Fit) : entry? (Text.strip e.line) = some (e.key, e.value) := by
  have hkey : Text.strip (e.key ++ e.left) = e.key :=
    (Text.strip_padded Text.blank_nil h.left e.key).trans h.key.strip
  have hvalue : Text.strip ((e.right ++ e.value ++ e.after).rdropWhile Text.isBlank) = e.value := by
    rw [Text.strip_rdropWhile, Text.strip_padded h.right h.after, h.value]
  have hfree : ∀ c, .char c ∉ e.key → Text.isBlank (.char c) = false →
      .char c ∉ e.key ++ e.left := fun c hc hb hm =>
    (List.mem_append.mp hm).elim hc (h.left.not_mem hb)
  have hne : e.key ++ e.left ≠ [] := List.append_ne_nil_of_left_ne_nil h.key.ne_nil _
  -- what is before the separator is no part of what is behind it, whatever the value holds
  rw [h.strip_line, entry?, division?_eq hne (hfree '=' h.key.noEquals rfl)
    (hfree ':' h.key.noColon rfl) h.separator, Option.map_some, List.take_left, hkey]
  rw [← List.drop_drop, List.drop_left, List.drop_one, List.tail_cons, hvalue]

theorem isComment_line (h : e.Fit) : isComment (Text.strip e.line) = false := by
  obtain ⟨p, key, hkey⟩ := List.exists_cons_of_ne_nil h.key.ne_nil
  have := h.key.noComment
  rw [hkey] at this
  rw [h.strip_line, hkey]
  exact this

end Fit

end Entry

/-- A line of a settings file: an entry, or one that holds nothing. -/
inductive Item
  | entry (e : Entry)
  | note (line : Text)

namespace Item

def line : Item → Text
  | entry e => e.line
  | note line => line

def pair? : Item → Option (Text × Text)
  | entry e => some (e.key, e.value)
  | note _ => none

/-- A line that holds nothing is blank or a comment. -/
def Fit : Item → Prop
  | entry e => e.Fit
  | note line => Text.strip line = [] ∨ isComment (Text.strip line) = true

instance : (i : Item) → Decidable i.Fit
  | entry e => inferInstanceAs (Decidable e.Fit)
  | note _ => inferInstanceAs (Decidable (_ ∨ _))

end Item

/-- What a line of a settings file holds. -/
def settingItem (path raw : Text) : Except (Nat → Fault) (Option (Text × Text)) :=
  let line := Text.strip raw
  if line.isEmpty || isComment line then .ok none
  else match entry? line with
    | some e => .ok (some e)
    | none => .error fun n => .of (.configuration (.badLine n path line))

section Reading

variable {path raw : Text}

theorem settingItem_line (path : Text) {i : Item} (h : i.Fit) :
    settingItem path i.line = .ok i.pair? := by
  cases i with
  | entry e =>
    have hne : (Text.strip e.line).isEmpty = false := by
      rw [h.strip_line]
      simp
    change settingItem path e.line = .ok (some (e.key, e.value))
    simp [settingItem, hne, h.isComment_line, h.entry?_line]
  | note line =>
    change settingItem path line = .ok none
    rcases h with h | h <;> simp [settingItem, h]

theorem settingItem_eq_error {fault : Nat → Fault} (h : settingItem path raw = .error fault) :
    fault = fun n => .of (.configuration (.badLine n path (Text.strip raw))) := by
  unfold settingItem at h
  dsimp only at h
  split at h
  · cases h
  · split at h
    · cases h
    · cases h
      rfl

theorem entry?_sound {line : Text} {e : Text × Text} (hl : line.Tight) (hne : line ≠ [])
    (h : entry? line = some e) : e.1 ≠ [] ∧ Text.strip e.1 = e.1 ∧ Text.strip e.2 = e.2 := by
  obtain ⟨n, hn, rfl⟩ := Option.map_eq_some_iff.mp h
  refine ⟨fun hnil => ?_, Text.strip_strip _, Text.strip_strip _⟩
  obtain ⟨p, rest, rfl⟩ := List.exists_cons_of_ne_nil hne
  obtain ⟨m, rfl⟩ := Nat.exists_eq_add_one.mpr (division?_pos hn)
  have hhead := Text.head?_strip (t := (p :: rest).take (m + 1)) rfl (hl.head p rfl)
  change (Text.strip ((p :: rest).take (m + 1))) = [] at hnil
  rw [hnil] at hhead
  cases hhead

theorem settingItem_eq_some {e : Text × Text} (h : settingItem path raw = .ok (some e)) :
    e.1 ≠ [] ∧ Text.strip e.1 = e.1 ∧ Text.strip e.2 = e.2 := by
  unfold settingItem at h
  dsimp only at h
  split at h
  · cases h
  · rename_i hcounts
    split at h
    · rename_i hentry
      cases h
      refine entry?_sound (Text.tight_strip raw) (fun hnil => hcounts ?_) hentry
      rw [hnil]
      rfl
    · cases h

theorem entriesOf_eq (done : List (Text × Text)) (n : Nat) (ls : List Text) :
    entriesOf path done (Text.numberedFrom n ls) =
      (gather (settingItem path) n ls).map (updated done) := by
  induction ls generalizing done n with
  | nil => rfl
  | cons raw rest ih =>
    rw [Text.numberedFrom_cons, entriesOf, gather, settingItem]
    split
    · rw [ih]
      cases gather (settingItem path) (n + 1) rest <;> rfl
    · cases entry? (Text.strip raw) with
      | none => rfl
      | some e =>
        dsimp only
        rw [ih]
        cases gather (settingItem path) (n + 1) rest <;> rfl

theorem parse_eq (path text : Text) :
    parse path text = (gather (settingItem path) 1 (Text.lines text)).map (updated []) := by
  rw [parse, Text.numbered_eq, entriesOf_eq]

theorem parse_items {text : Text} {items : List Item} (hfit : ∀ i ∈ items, i.Fit)
    (h : text.Lined (items.map (·.line))) (path : Text) :
    parse path text = .ok (updated [] (items.filterMap (·.pair?))) := by
  rw [parse_eq, h.lines_eq, gather_map fun i hi => settingItem_line path (hfit i hi)]
  rfl

theorem sound_of_parse {text : Text} {entries : List (Text × Text)}
    (h : parse path text = .ok entries) :
    ∀ e ∈ entries, e.1 ≠ [] ∧ Text.strip e.1 = e.1 ∧ Text.strip e.2 = e.2 := by
  rw [parse_eq] at h
  cases hrun : gather (settingItem path) 1 (Text.lines text) with
  | error f =>
    rw [hrun] at h
    cases h
  | ok held =>
    rw [hrun] at h
    cases h
    refine forall_updated fun e he => ?_
    obtain ⟨raw, hraw⟩ := of_mem_gather hrun e he
    exact settingItem_eq_some hraw

theorem line_of_parse_error {text : Text} {f : Fault} (h : parse path text = .error f) :
    ∃ before raw after, text.Lined (before ++ raw :: after) ∧
      f = .of (.configuration (.badLine (before.length + 1) path (Text.strip raw))) := by
  rw [parse_eq] at h
  rcases gather_cases (settingItem path) 1 (Text.lines text) with
    ⟨held, _, hrun⟩ | ⟨before, raw, after, fault, hls, _, hraw, hrun⟩
  · rw [hrun] at h
    cases h
  · rw [hrun, settingItem_eq_error hraw, Nat.add_comm 1] at h
    cases h
    exact ⟨before, raw, after, hls ▸ Text.lined_lines text, rfl⟩

theorem joins_parse {a : Text} (ha : a.EndsLine) (path b : Text) :
    Joins updated (Text.lines a).length (parse path a) (parse path b) (parse path (a ++ b)) := by
  rw [parse_eq, parse_eq, parse_eq, Text.lines_append ha]
  refine (joins_gather (fun line fault h n above => ?_) 1 _ _).map fun l more => ?_
  · rw [settingItem_eq_error h]
    rfl
  · rw [updated_updated, ← updated_append]

theorem entriesIn_of_holds {disk : Disk.Store} {text : Text} (h : disk.Holds path text) :
    entriesIn disk path = parse path text :=
  mapped_text h fun _ hf => isReported_of_isConfiguration (parse_error hf)

/-- A file of settings, however its lines are laid out, is read as the entries in them; the last one
with a key counts. Where its text is written behind another one, that ends its last line, its
entries are set on top of the others, and a fault in it is told with its line in the whole. -/
theorem entriesIn_byLines {disk : Disk.Store} {text : Text} (h : disk.Holds path text) :
    (∀ items : List Item, (∀ i ∈ items, i.Fit) → text.Lined (items.map (·.line)) →
      ∃ entries, entriesIn disk path = .ok entries ∧ (entries.map (·.1)).Nodup ∧
        ∀ key, entries.lookup key = (items.filterMap (·.pair?)).reverse.lookup key) ∧
    (∀ entries, entriesIn disk path = .ok entries →
      ∀ e ∈ entries, e.1 ≠ [] ∧ Text.strip e.1 = e.1 ∧ Text.strip e.2 = e.2) ∧
    (∀ f, entriesIn disk path = .error f →
      ∃ before raw after, text.Lined (before ++ raw :: after) ∧
        f = .of (.configuration (.badLine (before.length + 1) path (Text.strip raw)))) ∧
    ∀ (a b : Text) (first second : Disk.Store), text = a ++ b → a.EndsLine →
      first.Holds path a → second.Holds path b →
      ∃ ls, a.Lined ls ∧ Joins updated ls.length (entriesIn first path) (entriesIn second path)
        (entriesIn disk path) := by
  rw [entriesIn_of_holds h]
  refine ⟨fun items hfit hlined => ?_, fun _ => sound_of_parse, fun _ => line_of_parse_error, ?_⟩
  · exact ⟨_, parse_items hfit hlined path, nodup_updated _, lookup_updated _⟩
  · rintro a b first second rfl ha hfirst hsecond
    rw [entriesIn_of_holds hfirst, entriesIn_of_holds hsecond]
    exact ⟨_, Text.lined_lines a, joins_parse ha path b⟩

/-- Two of three entries have one key. -/
def items : List Item := [
  .note "\t# the fleet",
  .entry ⟨" ", "k", " ", '=', "", "a=b", "\t"⟩,
  .note "",
  .entry ⟨"", "k", "", ':', " ", "c", ""⟩,
  .entry ⟨"", "l", "", '=', "", "", ""⟩]

def laidOut : Text := "\t# the fleet\r\n k =a=b\t\n\nk: c\rl=\n"

/-- The second line has nothing before its separator. -/
def keyless : Text := "l=d\n=e"

theorem entriesIn_byLines_laidOut :
    (∃ entries, entriesIn (.holding laidOut) "a" = .ok entries ∧
      entries.lookup ("k" : Text) = some "c" ∧ entries.lookup ("l" : Text) = some "") ∧
    entriesIn (.holding keyless) "a" = .error (.of (.configuration (.badLine 2 "a" "=e"))) ∧
    entriesIn (.holding (laidOut ++ keyless)) "a" =
      .error (.of (.configuration (.badLine 7 "a" "=e"))) := by
  have hlined : laidOut.Lined (items.map (·.line)) := Text.lined_lines laidOut
  have hkeyless : entriesIn (.holding keyless) "a" =
      .error (.of (.configuration (.badLine 2 "a" "=e"))) := by
    rfl
  obtain ⟨entries, hentries, _, hlookup⟩ :=
    (entriesIn_byLines (Disk.Store.holds_holding laidOut)).1 items (by decide) hlined
  obtain ⟨ls, hls, hjoins⟩ :=
    (entriesIn_byLines (Disk.Store.holds_holding (laidOut ++ keyless))).2.2.2 laidOut keyless
      (.holding laidOut) (.holding keyless) rfl (by decide) (Disk.Store.holds_holding _)
      (Disk.Store.holds_holding _)
  refine ⟨⟨entries, hentries, hlookup "k", hlookup "l"⟩, hkeyless, ?_⟩
  rw [hentries, hkeyless] at hjoins
  generalize entriesIn (.holding (laidOut ++ keyless)) "a" = whole at hjoins
  cases hjoins
  rw [← hls.lines_eq]
  rfl

end Reading

end Settings

end AgentFleet
