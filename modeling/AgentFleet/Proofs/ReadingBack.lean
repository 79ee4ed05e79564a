import AgentFleet.Proofs.Documents

namespace AgentFleet.Json
open Text (Point)

variable {fuel room : Nat} {rest : Text}

theorem skip_eq {p : Point} (h : isSpace p = false) (r : Text) : skip (p :: r) = p :: r := by
  simp [skip, h]

theorem isSpace_of_isDecimal {p : Point} (h : isDecimal p = true) : isSpace p = false := by
  simp [isSpace, ne_of_isDecimal h (q := .char ' ') rfl, ne_of_isDecimal h (q := .char '\t') rfl,
    ne_of_isDecimal h (q := .char '\n') rfl, ne_of_isDecimal h (q := .char '\r') rfl]

theorem endsNumber_nil : EndsNumber [] :=
  fun _ h => nomatch h

/-- What follows a value within another is no part of a number. -/
theorem endsNumber_cons {p : Point} (h : [.char ',', .char ']', .char '\x7d'].contains p)
    (r : Text) : EndsNumber (p :: r) := by
  intro q hq
  cases hq
  simp at h
  rcases h with rfl | rfl | rfl <;> decide

theorem join_comma (t : Text) {texts : List Text} (h : texts ≠ []) (rest : Text) :
    Text.join ", " (t :: texts) ++ rest =
      t ++ .char ',' :: .char ' ' :: (Text.join ", " texts ++ rest) := by
  rw [Text.join_cons _ t h]
  simp [Text.ofString]

theorem length_join_comma (t : Text) {texts : List Text} (h : texts ≠ []) :
    (Text.join ", " (t :: texts)).length = t.length + (Text.join ", " texts).length + 2 := by
  rw [Text.join_cons _ t h]
  simp [Text.ofString]
  omega

theorem join_eq_cons {Q : Point → Prop} {texts : List Text} (hne : texts ≠ [])
    (h : ∀ t ∈ texts, ∃ p r, t = p :: r ∧ Q p) :
    ∃ p r, Text.join ", " texts = p :: r ∧ Q p := by
  obtain ⟨t, ts, rfl⟩ := List.exists_cons_of_ne_nil hne
  obtain ⟨p, r, rfl, hp⟩ := h t List.mem_cons_self
  by_cases hts : ts = []
  · subst hts
    exact ⟨p, r, Text.join_singleton _ _, hp⟩
  · exact ⟨p, _, Text.join_cons _ _ hts, hp⟩

/-- The space after a comma is passed over. -/
theorem skip_space {p : Point} (h : isSpace p = false) (r : Text) :
    skip (.char ' ' :: p :: r) = p :: r :=
  (List.dropWhile_cons_of_pos (by decide)).trans (skip_eq h r)

namespace Value

/-- What is written of the value is read as the value, whatever follows. -/
def ReadsBack (v : Value) : Prop :=
  ∀ (fuel room : Nat) (rest : Text), 2 * v.print.length ≤ fuel → v.depth ≤ room →
    EndsNumber rest → readValue fuel room (v.print ++ rest) = .ok (v.canonical, rest)

/-- The first character of a value is no space, no end of an array and no byte-order mark. -/
abbrev Starts (p : Point) : Prop :=
  isSpace p = false ∧ p ≠ .char ']' ∧ p ≠ .char '\uFEFF'

theorem print_eq_cons {v : Value} (h : ¬v.IsReal) : ∃ p r, v.print = p :: r ∧ Starts p := by
  cases v with
  | null => exact ⟨_, _, rfl, by decide⟩
  | bool b => cases b <;> exact ⟨_, _, rfl, by decide⟩
  | number x =>
    cases x with
    | real => exact absurd trivial h
    | whole n =>
      cases n with
      | ofNat n =>
        obtain ⟨p, r, hp, hdecimal⟩ := ofNat_eq_cons n
        exact ⟨p, r, hp, isSpace_of_isDecimal hdecimal, ne_of_isDecimal hdecimal rfl,
          ne_of_isDecimal hdecimal rfl⟩
      | negSucc n => exact ⟨_, _, rfl, by decide⟩
  | text t => exact ⟨_, _, rfl, by decide⟩
  | array items => exact ⟨_, _, by rw [print_array]; rfl, by decide⟩
  | object members => exact ⟨_, _, by rw [print_object]; rfl, by decide⟩

/-- What starts no text, array or object is read as a scalar. -/
theorem readValue_scalar {p : Point} (r : Text)
    (h : p ≠ .char '"' ∧ p ≠ .char '[' ∧ p ≠ .char '\x7b') :
    readValue (fuel + 1) room (p :: r) = readScalar (p :: r) := by
  rw [readValue]
  · exact fun _ e => h.1 (List.cons.inj e).1
  · exact fun _ e _ => h.2.1 (List.cons.inj e).1
  · exact fun _ e _ => h.2.2 (List.cons.inj e).1
  · exact fun _ _ e _ => h.2.1 (List.cons.inj e).1
  · exact fun _ _ e _ => h.2.2 (List.cons.inj e).1

theorem readsBack_scalar {v : Value} (hreal : ¬v.IsReal)
    (hhead : ∀ p r, v.print = p :: r → p ≠ .char '"' ∧ p ≠ .char '[' ∧ p ≠ .char '\x7b')
    (h : ∀ rest, EndsNumber rest → readScalar (v.print ++ rest) = .ok (v.canonical, rest)) :
    v.ReadsBack := by
  intro fuel room rest hfuel _ hrest
  obtain ⟨p, r, hp, -⟩ := print_eq_cons hreal
  obtain ⟨k, rfl⟩ : ∃ k, fuel = k + 1 := by
    rw [hp, List.length_cons] at hfuel
    exact ⟨fuel - 1, by omega⟩
  rw [← h rest hrest, hp, List.cons_append, readValue_scalar _ (hhead p r hp)]

theorem readsBack_null : Value.null.ReadsBack := by
  apply readsBack_scalar (show ¬Value.null.IsReal from id)
  · intro p r h
    cases h
    decide
  · exact fun rest _ => readScalar_null rest

theorem readsBack_bool (b : Bool) : (Value.bool b).ReadsBack := by
  apply readsBack_scalar (show ¬(Value.bool b).IsReal from id)
  · intro p r h
    cases b <;> cases h <;> decide
  · exact fun rest _ => readScalar_bool rest b

theorem readsBack_whole {n : Int} (h : (Value.whole n).IsSound) : (Value.whole n).ReadsBack := by
  apply readsBack_scalar (show ¬(Value.whole n).IsReal from id)
  · intro p r hp
    change Text.ofInt n = p :: r at hp
    cases n with
    | ofNat n =>
      obtain ⟨q, u, hq, hdecimal⟩ := ofNat_eq_cons n
      have hpq : q :: u = p :: r := hq.symm.trans hp
      rw [← (List.cons.inj hpq).1]
      exact ⟨ne_of_isDecimal hdecimal rfl, ne_of_isDecimal hdecimal rfl,
        ne_of_isDecimal hdecimal rfl⟩
    | negSucc n =>
      cases hp
      decide
  · exact fun rest hrest => readScalar_ofInt hrest h

theorem readsBack_text {t : Text} : (Value.text t).ReadsBack := by
  intro fuel room rest hfuel _ _
  have htext : (Value.text t).print ++ rest =
      .char '"' :: (t.flatMap escapedPoint ++ .char '"' :: rest) := by
    simp [print, printText, Text.ofString]
  obtain ⟨k, rfl⟩ : ∃ k, fuel = k + 1 := by
    simp only [print, printText, List.length_append] at hfuel
    exact ⟨fuel - 1, by simp [Text.ofString] at hfuel; omega⟩
  rw [htext, readValue, readText_flatMap]
  rfl

theorem items_eq_cons {items : List Value} (hne : items ≠ []) (h : ∀ v ∈ items, ¬v.IsReal) :
    ∃ p r, Text.join ", " (items.map print) = p :: r ∧ Starts p := by
  apply join_eq_cons (by simpa using hne)
  intro t ht
  obtain ⟨v, hv, rfl⟩ := List.mem_map.mp ht
  exact print_eq_cons (h v hv)

theorem members_eq_cons {members : List (Text × Value)} (hne : members ≠ []) :
    ∃ p r, Text.join ", " (members.map fun m => printMember m.1 m.2.print) = p :: r ∧
      p = .char '"' := by
  apply join_eq_cons (by simpa using hne)
  intro t ht
  obtain ⟨m, -, rfl⟩ := List.mem_map.mp ht
  exact ⟨_, _, rfl, rfl⟩

/-- An item is read, and what follows it decides how to go on. -/
theorem readItems_item {v : Value} {s u : Text} (hread : readValue fuel room s = .ok (v, u)) :
    (∀ rest, skip u = .char ']' :: rest → readItems (fuel + 1) room s = .ok ([v], rest)) ∧
      ∀ r, skip u = .char ',' :: r →
        readItems (fuel + 1) room s =
          (readItems fuel room (skip r)).map fun read => (v :: read.1, read.2) := by
  constructor
  · intro rest hu
    rw [readItems, hread]
    simp only [bind, Except.bind, hu]
    rfl
  · intro r hu
    rw [readItems, hread]
    simp only [bind, Except.bind, hu]
    cases readItems fuel room (skip r) <;> rfl

/-- Items are read up to the end of their array. -/
theorem readItems_print {items : List Value} (hne : items ≠ []) (hread : ∀ v ∈ items, v.ReadsBack)
    (hreal : ∀ v ∈ items, ¬v.IsReal)
    (hfuel : 2 * (Text.join ", " (items.map print)).length + 1 ≤ fuel)
    (hroom : ∀ v ∈ items, v.depth ≤ room) :
    readItems fuel room (Text.join ", " (items.map print) ++ .char ']' :: rest) =
      .ok (items.map canonical, rest) := by
  induction items generalizing fuel with
  | nil => exact absurd rfl hne
  | cons v vs ih =>
    obtain ⟨hv, hvs⟩ := List.forall_mem_cons.mp hread
    obtain ⟨hvRoom, hvsRoom⟩ := List.forall_mem_cons.mp hroom
    obtain ⟨-, hvsReal⟩ := List.forall_mem_cons.mp hreal
    obtain ⟨k, rfl⟩ : ∃ k, fuel = k + 1 := ⟨fuel - 1, by omega⟩
    by_cases hlast : vs = []
    · subst hlast
      rw [List.map_singleton, Text.join_singleton] at hfuel ⊢
      have hitem := hv k room (.char ']' :: rest) (by omega) hvRoom
        (endsNumber_cons (by decide) rest)
      exact (readItems_item hitem).1 rest (skip_eq (by decide) rest)
    · have htexts : vs.map print ≠ [] := by simpa using hlast
      rw [List.map_cons, length_join_comma _ htexts] at hfuel
      have hrest := ih hlast hvs hvsReal (show _ ≤ k by omega) hvsRoom
      have hskip : skip (.char ' ' :: (Text.join ", " (vs.map print) ++ .char ']' :: rest)) =
          Text.join ", " (vs.map print) ++ .char ']' :: rest := by
        obtain ⟨p, r, hp, hspace, -⟩ := items_eq_cons hlast hvsReal
        rw [hp]
        exact skip_space hspace _
      have hitem := hv k room (.char ',' :: .char ' ' ::
        (Text.join ", " (vs.map print) ++ .char ']' :: rest)) (by omega) hvRoom
        (endsNumber_cons (by decide) _)
      rw [List.map_cons, join_comma _ htexts,
        (readItems_item hitem).2 _ (skip_eq (by decide) _), hskip, hrest]
      rfl

/-- A member is read, and what follows it decides how to go on. -/
theorem readMembers_member {done : List (Text × Value)} {m : Text × Value} {u : Text}
    (hread : m.2.ReadsBack) (hfit : m.1.Unsplit ∧ ¬m.2.IsReal) (hfresh : m.1 ∉ names done)
    (hfuel : 2 * (printMember m.1 m.2.print).length ≤ fuel) (hroom : m.2.depth ≤ room)
    (hu : EndsNumber u) :
    (∀ rest, skip u = .char '\x7d' :: rest →
      readMembers (fuel + 1) room done (printMember m.1 m.2.print ++ u) =
        .ok (done ++ [(m.1, m.2.canonical)], rest)) ∧
    ∀ r, skip u = .char ',' :: r →
      readMembers (fuel + 1) room done (printMember m.1 m.2.print ++ u) =
        readMembers fuel room (done ++ [(m.1, m.2.canonical)]) (skip r) := by
  have hmember : printMember m.1 m.2.print ++ u =
      .char '"' :: (m.1.flatMap escapedPoint ++
        .char '"' :: .char ':' :: .char ' ' :: (m.2.print ++ u)) := by
    simp [printMember, printText, Text.ofString]
  have hlength : m.2.print.length ≤ (printMember m.1 m.2.print).length := by
    simp [printMember]
    omega
  have hvalue : skip (.char ' ' :: (m.2.print ++ u)) = m.2.print ++ u := by
    obtain ⟨p, r, hp, hspace, -⟩ := print_eq_cons hfit.2
    rw [hp]
    exact skip_space hspace _
  have hcolon : skip (.char ':' :: .char ' ' :: (m.2.print ++ u)) =
      .char ':' :: .char ' ' :: (m.2.print ++ u) := skip_eq (by decide) _
  rw [hmember, readMembers, readText_flatMap, Text.paired_eq_self hfit.1, ← setEntry_fresh hfresh]
  simp only [bind, Except.bind, hcolon, hvalue, hread fuel room u (by omega) hroom hu]
  constructor
  · intro rest hskip
    simp only [hskip]
    rfl
  · intro r hskip
    simp only [hskip]

/-- Members with distinct names are read up to the end of their object, in the order in which they
stand. -/
theorem readMembers_print {done members : List (Text × Value)} (hne : members ≠ [])
    (hread : ∀ m ∈ members, m.2.ReadsBack) (hfit : ∀ m ∈ members, m.1.Unsplit ∧ ¬m.2.IsReal)
    (hnames : (names (done ++ members)).Nodup)
    (hfuel :
      2 * (Text.join ", " (members.map fun m => printMember m.1 m.2.print)).length + 1 ≤ fuel)
    (hroom : ∀ m ∈ members, m.2.depth ≤ room) :
    readMembers fuel room done
        (Text.join ", " (members.map fun m => printMember m.1 m.2.print) ++ .char '\x7d' :: rest) =
      .ok (done ++ members.map fun m => (m.1, m.2.canonical), rest) := by
  induction members generalizing fuel done with
  | nil => exact absurd rfl hne
  | cons m ms ih =>
    obtain ⟨hm, hms⟩ := List.forall_mem_cons.mp hread
    obtain ⟨hmRoom, hmsRoom⟩ := List.forall_mem_cons.mp hroom
    obtain ⟨hmFit, hmsFit⟩ := List.forall_mem_cons.mp hfit
    obtain ⟨k, rfl⟩ : ∃ k, fuel = k + 1 := ⟨fuel - 1, by omega⟩
    have hfresh : m.1 ∉ names done := by
      intro h
      rw [names, List.map_append, List.map_cons] at hnames
      exact (List.disjoint_of_nodup_append hnames) h List.mem_cons_self
    by_cases hlast : ms = []
    · subst hlast
      rw [List.map_singleton, Text.join_singleton] at hfuel ⊢
      have hends : EndsNumber (.char '\x7d' :: rest) := endsNumber_cons (by decide) rest
      have hmember := readMembers_member hm hmFit hfresh (show _ ≤ k by omega) hmRoom hends
      exact hmember.1 rest (skip_eq (by decide) rest)
    · have htexts : ms.map (fun m => printMember m.1 m.2.print) ≠ [] := by simpa using hlast
      obtain ⟨p, r, hp, rfl⟩ := members_eq_cons hlast
      have hnames' : (names ((done ++ [(m.1, m.2.canonical)]) ++ ms)).Nodup := by
        simpa [names] using hnames
      rw [List.map_cons, length_join_comma _ htexts] at hfuel
      have hrest := ih hlast hms hmsFit hnames' (show _ ≤ k by omega) hmsRoom
      have hends : EndsNumber (.char ',' :: .char ' ' :: (Text.join ", "
          (ms.map fun m => printMember m.1 m.2.print) ++ .char '\x7d' :: rest)) :=
        endsNumber_cons (by decide) _
      have hmember := readMembers_member hm hmFit hfresh (show _ ≤ k by omega) hmRoom hends
      rw [List.map_cons, join_comma _ htexts, hmember.2 _ (skip_eq (by decide) _)]
      rw [hp] at hrest ⊢
      rw [List.cons_append, skip_space (by decide), ← List.cons_append, hrest, List.append_assoc]
      rfl

theorem readsBack_array {items : List Value} (hread : ∀ v ∈ items, v.ReadsBack)
    (hreal : ∀ v ∈ items, ¬v.IsReal) : (Value.array items).ReadsBack := by
  intro fuel room rest hfuel hroom hrest
  obtain ⟨room, rfl⟩ : ∃ n, room = n + 1 := by
    rw [depth] at hroom
    exact ⟨room - 1, by omega⟩
  have hitemsRoom := depth_array_le.mp hroom
  have htext : (Value.array items).print ++ rest =
      .char '[' :: (Text.join ", " (items.map print) ++ .char ']' :: rest) := by
    simp [print_array, Text.ofString]
  have hlength :
      (Value.array items).print.length = (Text.join ", " (items.map print)).length + 2 := by
    simp [print_array, Text.ofString]
  obtain ⟨k, rfl⟩ : ∃ k, fuel = k + 1 := ⟨fuel - 1, by omega⟩
  rw [htext, canonical_array, readValue]
  by_cases hempty : items = []
  · subst hempty
    rfl
  · have hitems : readItems k room (Text.join ", " (items.map print) ++ .char ']' :: rest) =
        .ok (items.map canonical, rest) :=
      readItems_print hempty hread hreal (by omega) hitemsRoom
    obtain ⟨p, r, hp, hspace, hclose, -⟩ := items_eq_cons hempty hreal
    rw [hp, List.cons_append] at hitems ⊢
    rw [skip_eq hspace]
    split
    · rename_i hbracket
      exact absurd (List.cons.inj hbracket).1 hclose
    · rw [hitems]
      rfl

theorem readsBack_object {members : List (Text × Value)} (hread : ∀ m ∈ members, m.2.ReadsBack)
    (hfit : ∀ m ∈ members, m.1.Unsplit ∧ ¬m.2.IsReal) (hnames : (names members).Nodup) :
    (Value.object members).ReadsBack := by
  intro fuel room rest hfuel hroom hrest
  obtain ⟨room, rfl⟩ : ∃ n, room = n + 1 := by
    rw [depth] at hroom
    exact ⟨room - 1, by omega⟩
  have hmembersRoom := depth_object_le.mp hroom
  have htext : (Value.object members).print ++ rest = .char '\x7b' ::
      (Text.join ", " ((byName members).map fun m => printMember m.1 m.2.print) ++
        .char '\x7d' :: rest) := by
    simp [print_object, Text.ofString]
  have hlength : (Value.object members).print.length =
      (Text.join ", " ((byName members).map fun m => printMember m.1 m.2.print)).length + 2 := by
    simp [print_object, Text.ofString]
  obtain ⟨k, rfl⟩ : ∃ k, fuel = k + 1 := ⟨fuel - 1, by omega⟩
  rw [htext, canonical_object, readValue]
  by_cases hempty : byName members = []
  · rw [hempty]
    rfl
  · have hnames' : (names ([] ++ byName members)).Nodup :=
      ((byName_perm members).map Prod.fst).nodup_iff.mpr hnames
    have hmembers : readMembers k room [] (Text.join ", "
        ((byName members).map fun m => printMember m.1 m.2.print) ++ .char '\x7d' :: rest) =
        .ok ((byName members).map fun m => (m.1, m.2.canonical), rest) :=
      readMembers_print hempty (fun m hm => hread m (mem_byName.mp hm))
        (fun m hm => hfit m (mem_byName.mp hm)) hnames' (by omega)
        (fun m hm => hmembersRoom m (mem_byName.mp hm))
    obtain ⟨p, r, hp, rfl⟩ := members_eq_cons hempty
    rw [hp, List.cons_append] at hmembers ⊢
    rw [skip_eq (by decide)]
    change (readMembers k room [] _).map _ = _
    rw [hmembers]
    rfl

/-- Every value that is sound, and exact, is read back. -/
theorem readsBack {v : Value} (hsound : v.Throughout IsSound) (hexact : v.Throughout IsExact) :
    v.ReadsBack := by
  induction v using Value.induct with
  | null => exact readsBack_null
  | bool b => exact readsBack_bool b
  | number x =>
    cases x with
    | whole n => exact readsBack_whole hsound.head
    | real => exact absurd hexact.head id
  | text t => exact readsBack_text
  | array items ih =>
    have hsounds := (throughout_array.mp hsound).2
    have hexacts := (throughout_array.mp hexact).2
    exact readsBack_array (fun v hv => ih v hv (hsounds v hv) (hexacts v hv))
      fun v hv => (hexacts v hv).head.not_isReal
  | object members ih =>
    obtain ⟨hnames, hsounds⟩ := throughout_object.mp hsound
    obtain ⟨hunsplit, hexacts⟩ := throughout_object.mp hexact
    refine readsBack_object (fun m hm => ih m hm (hsounds m hm) (hexacts m hm)) ?_ hnames
    intro m hm
    exact ⟨hunsplit m.1 (List.mem_map_of_mem hm), (hexacts m hm).head.not_isReal⟩

/-- Values that are written alike are put in order alike. -/
theorem ReadsBack.canonical_eq {v w : Value} (hv : v.ReadsBack) (hw : w.ReadsBack)
    (h : v.print = w.print) : v.canonical = w.canonical := by
  have hreadV := hv (2 * v.print.length) (max v.depth w.depth) [] (Nat.le_refl _)
    (Nat.le_max_left _ _) endsNumber_nil
  have hreadW := hw (2 * w.print.length) (max v.depth w.depth) [] (Nat.le_refl _)
    (Nat.le_max_right _ _) endsNumber_nil
  rw [h, hreadW] at hreadV
  exact (Prod.mk.inj (Except.ok.inj hreadV)).1.symm

theorem same_of_canonical_eq {v w : Value} (hv : v.Throughout IsExact)
    (hw : w.Throughout IsExact) (h : v.canonical = w.canonical) : v.Same w := by
  apply (same_canonical hv).trans
  rw [h]
  exact (same_canonical hw).symm

/-- Sound and exact values are written alike only if they are the same. -/
theorem print_eq_iff {v w : Value} (hv : v.Throughout IsSound) (hvExact : v.Throughout IsExact)
    (hw : w.Throughout IsSound) (hwExact : w.Throughout IsExact) :
    v.print = w.print ↔ v.Same w := by
  constructor
  · intro h
    apply same_of_canonical_eq hvExact hwExact
    exact (readsBack hv hvExact).canonical_eq (readsBack hw hwExact) h
  · intro h
    exact (h.sound_print hv).2

/-- A document that is not too deep is read back. -/
theorem ReadsBack.readDocument {v : Value} (h : v.ReadsBack) (hreal : ¬v.IsReal)
    (hdepth : v.depth ≤ depthLimit) : readDocument v.print = .ok v.canonical := by
  obtain ⟨p, r, hp, hspace, -, hmark⟩ := print_eq_cons hreal
  have hread := h (2 * v.print.length + 2) depthLimit [] (by omega) hdepth endsNumber_nil
  rw [List.append_nil] at hread
  have hskip : skip v.print = v.print := by
    rw [hp, skip_eq hspace]
  have hhead : v.print.head? ≠ some (.char '\uFEFF') := by
    rw [hp]
    exact fun e => hmark (Option.some.inj e)
  unfold Json.readDocument
  rw [if_neg hhead, hskip]
  simp only [bind, Except.bind, hread]
  rfl

end Value

end AgentFleet.Json
