import AgentFleet.Proofs.Contacting
import AgentFleet.Shell.Token

namespace AgentFleet
open AgentFleet.Action Situation

namespace Shell
open Text (Point)

/-- What is not plain is told apart from what is. -/
theorem ne_of_isPlain {p q : Point} (hp : isPlain p = true) (hq : isPlain q = false) : p ≠ q := by
  intro h
  rw [h, hq] at hp
  cases hp

theorem contains_eq_false {p : Point} {t : Text} (hp : isPlain p = true)
    (ht : ∀ q ∈ t, isPlain q = false) : t.contains p = false := by
  rw [List.contains_eq_mem, decide_eq_false_iff_not]
  intro hmem
  exact ne_of_isPlain hp (ht p hmem) rfl

namespace Reader

variable {r : Reader} {p : Point}

theorem read_append (r : Reader) (t u : Text) : r.read (t ++ u) = (r.read t).read u :=
  List.foldl_append

theorem read_cons (r : Reader) (p : Point) (t : Text) : r.read (p :: t) = (r.step p).read t :=
  rfl

/-- Outside quotes, too, a plain character means itself. -/
theorem step_plain (hr : r.mode = .outside) (hp : isPlain p = true) : r.step p = r.literal p := by
  have hoperator : isOperator p = false := by
    exact contains_eq_false hp (by decide)
  have hexpansion : isExpansion p = false := by
    have hpattern := contains_eq_false (t := Text.ofString "*?[~") hp (by decide)
    have hsubstitution : isSubstitution p = false := by
      simp [isSubstitution, ne_of_isPlain hp (q := .char '$') rfl,
        ne_of_isPlain hp (q := .char '`') rfl]
    rw [isExpansion, hsubstitution, hpattern]
    rfl
  unfold step
  rw [hr]
  simp [hoperator, hexpansion, ne_of_isPlain hp (q := .char '\\') rfl,
    ne_of_isPlain hp (q := .char '\'') rfl, ne_of_isPlain hp (q := .char '"') rfl,
    ne_of_isPlain hp (q := .char ' ') rfl, ne_of_isPlain hp (q := .char '\t') rfl,
    ne_of_isPlain hp (q := .char '#') rfl]

theorem read_plain {t : Text} (hr : r.mode = .outside) (ht : ∀ p ∈ t, isPlain p = true)
    (hne : t ≠ []) :
    r.read t = { r with word := some { r.begun with text := r.begun.text ++ t } } := by
  induction t generalizing r with
  | nil => exact absurd rfl hne
  | cons p rest ih =>
    obtain ⟨hp, hrest⟩ := List.forall_mem_cons.mp ht
    rw [read_cons, step_plain hr hp]
    by_cases hn : rest = []
    · subst hn
      rfl
    · have hmode : (r.literal p).mode = .outside := hr
      rw [ih hmode hrest hn]
      simp [literal, begun]

/-- Between single quotes all is read as it was meant, the quotes themselves between double ones. -/
theorem read_quotedPoint (hr : r.mode = .single) (p : Point) :
    r.read (quotedPoint p) = r.literal p := by
  unfold quotedPoint
  split
  · rename_i hp
    subst hp
    obtain ⟨mode, word, tokens⟩ := r
    cases hr
    rfl
  · rename_i hp
    rw [read_cons]
    unfold step
    rw [hr]
    simp [hp, read]

theorem read_quoted (hr : r.mode = .single) {w : Word} (hw : r.word = some w) (t : Text) :
    r.read (t.flatMap quotedPoint) = { r with word := some { w with text := w.text ++ t } } := by
  induction t generalizing r w with
  | nil =>
    obtain ⟨mode, word, tokens⟩ := r
    cases hw
    simp [read]
  | cons p rest ih =>
    rw [List.flatMap_cons, read_append, read_quotedPoint hr]
    have hliteral : (r.literal p).word = some { w with text := w.text ++ [p] } := by
      simp [literal, begun, hw]
    have hmode : (r.literal p).mode = .single := hr
    rw [ih hmode hliteral]
    simp [literal]

/-- A reader that stands before a word, outside quotes, takes it for the text it was made of, and
stands outside quotes again. -/
theorem read_word (hr : r.mode = .outside) (hw : r.word = none) (t : Text) :
    r.read (Shell.word t) = { r with word := some ⟨t, false⟩ } := by
  have hbegun : r.begun = ⟨[], false⟩ := by
    simp [begun, hw]
  unfold Shell.word
  split
  · rename_i hplain
    simp only [Bool.and_eq_true, Bool.not_eq_true', List.isEmpty_eq_false_iff,
      List.all_eq_true] at hplain
    rw [read_plain hr hplain.2 hplain.1, hbegun]
    rfl
  · have hopen : r.read "'" = { r with mode := .single, word := some ⟨[], false⟩ } := by
      change r.step (.char '\'') = _
      unfold step
      rw [hr]
      simp [quote, hbegun]
    rw [read_append, read_append, hopen, read_quoted rfl rfl]
    obtain ⟨mode, word, tokens⟩ := r
    cases hr
    rfl

end Reader

theorem tokens?_word (t : Text) : tokens? (word t) = some [.word ⟨t, false⟩] := by
  unfold tokens?
  rw [Reader.read_word rfl rfl]
  rfl

/-- Different texts have different words. -/
theorem word_injective {t u : Text} (h : word t = word u) : t = u := by
  have htokens := tokens?_word t
  rw [h, tokens?_word u] at htokens
  simpa using htokens.symm

end Shell

namespace Message
open Shell

/-- A control command that is over where its text is over takes the message as one more word. -/
theorem tokens?_command {control : Text} (h : (Reader.start.read control).mode = .outside)
    (m : Message) :
    tokens? (m.command control) = (tokens? control).map (· ++ [.word ⟨m.toJson, false⟩]) := by
  have hblank : ((Reader.start.read control).read " ") = (Reader.start.read control).parted := by
    change (Reader.start.read control).step (.char ' ') = _
    unfold Reader.step
    rw [h]
    rfl
  have hparted : (Reader.start.read control).parted.mode = .outside := h
  unfold tokens? command
  rw [Reader.read_append, Reader.read_append, hblank, Reader.read_word hparted rfl]
  simp [Reader.finish, h, Reader.parted]

end Message

/-- To hand a message over one command is run: the control command, a blank, and then what a shell,
wherever it stands outside quotes and words, reads as one word without expansions and operators; the
word says what the message says, and the shell is outside quotes again. Messages that say different
things are handed over by different commands. -/
theorem Link.send_oneWord (l : Link) (m : Message) (s : Situation) :
    ∃ argument : Text,
      ((l.send m).after s).links = s.links ++
        [.ran l.agent.publicAddress (l.control.shown ++ " " ++ argument)] ∧
      (∀ r : Shell.Reader, r.mode = .outside → r.word = none →
        r.read argument = { r with word := some ⟨m.toJson, false⟩ }) ∧
      Shell.tokens? argument = some [.word ⟨m.toJson, false⟩] ∧
      ((Shell.Reader.start.read l.control.shown).mode = .outside →
        Shell.tokens? (l.control.shown ++ " " ++ argument) =
          (Shell.tokens? l.control.shown).map (· ++ [.word ⟨m.toJson, false⟩])) ∧
      ∀ (n : Message) (t : Situation), ((l.send n).after t).links = t.links ++
          [.ran l.agent.publicAddress (l.control.shown ++ " " ++ argument)] →
        n.toJson = m.toJson := by
  refine ⟨Shell.word m.toJson, (send_takes s l m).2.links_eq, fun r hr hw => ?_, ?_, ?_, ?_⟩
  · exact Shell.Reader.read_word hr hw m.toJson
  · exact Shell.tokens?_word m.toJson
  · intro h
    exact Message.tokens?_command h m
  · intro n t h
    rw [(send_takes t l n).2.links_eq] at h
    have hcommand : n.command l.control.shown = m.command l.control.shown := by
      simpa [Message.command] using List.append_cancel_left h
    exact Shell.word_injective (List.append_cancel_left hcommand)

end AgentFleet
