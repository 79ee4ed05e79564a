import AgentFleet.Proofs.Scalars
import Mathlib.Data.List.Nodup

namespace AgentFleet

namespace Text

theorem code_injective {p q : Point} (h : p.code = q.code) : p = q := by
  rw [← Json.unitPoint_code p, h, Json.unitPoint_code]

theorem le_total (t u : Text) : (t.le u || u.le t) = true := by
  fun_induction Text.le t u with
  | case1 => rfl
  | case2 => simp [Text.le]
  | case3 a r b s ih =>
    simp only [Text.le, Bool.or_eq_true, Bool.and_eq_true, decide_eq_true_eq, beq_iff_eq] at ih ⊢
    rcases Nat.lt_trichotomy a.code b.code with hlt | heq | hgt
    · exact .inl (.inl hlt)
    · exact ih.imp (fun h => .inr ⟨heq, h⟩) fun h => .inr ⟨heq.symm, h⟩
    · exact .inr (.inl hgt)

theorem le_trans (t u v : Text) (htu : t.le u = true) (huv : u.le v = true) : t.le v = true := by
  fun_induction Text.le t u generalizing v with
  | case1 => rfl
  | case2 => cases htu
  | case3 a r b s ih =>
    cases v with
    | nil => cases huv
    | cons c w =>
      simp only [Text.le, Bool.or_eq_true, Bool.and_eq_true, decide_eq_true_eq, beq_iff_eq]
        at ih htu huv ⊢
      rcases htu with htu | ⟨htu, hrs⟩ <;> rcases huv with huv | ⟨huv, hsw⟩
      · omega
      · omega
      · omega
      · exact .inr ⟨htu.trans huv, ih w hrs hsw⟩

theorem le_antisymm {t u : Text} (htu : t.le u = true) (hut : u.le t = true) : t = u := by
  fun_induction Text.le t u with
  | case1 u =>
    cases u with
    | nil => rfl
    | cons => cases hut
  | case2 => cases htu
  | case3 a r b s ih =>
    simp only [Text.le, Bool.or_eq_true, Bool.and_eq_true, decide_eq_true_eq, beq_iff_eq]
      at ih htu hut
    rcases htu with htu | ⟨hcode, hrs⟩ <;> rcases hut with hut | ⟨hcode', hsr⟩
    · omega
    · omega
    · omega
    · rw [code_injective hcode, ih hrs hsr]

theorem join_singleton (separator t : Text) : join separator [t] = t := by
  simp [join, List.intercalate]

theorem join_cons (separator t : Text) {texts : List Text} (h : texts ≠ []) :
    join separator (t :: texts) = t ++ separator ++ join separator texts := by
  obtain ⟨u, rest, rfl⟩ := List.exists_cons_of_ne_nil h
  exact List.intercalate_cons_cons

theorem visible_join {separator : Text} {texts : List Text} (hs : separator.Visible)
    (h : ∀ t ∈ texts, t.Visible) : (join separator texts).Visible := by
  induction texts with
  | nil => exact fun _ h => nomatch h
  | cons t rest ih =>
    obtain ⟨ht, hrest⟩ := List.forall_mem_cons.mp h
    by_cases hne : rest = []
    · subst hne
      rwa [join_singleton]
    · rw [join_cons separator t hne, visible_append, visible_append]
      exact ⟨⟨ht, hs⟩, ih hrest⟩

end Text

namespace Json
open Text (Point)

section Members

variable {α β : Type} {ms ns : List (Text × α)}

def names (ms : List (Text × α)) : List Text :=
  ms.map Prod.fst

/-- Members in the order of their names. -/
def byName (ms : List (Text × α)) : List (Text × α) :=
  ms.mergeSort fun a b => a.1.le b.1

theorem byName_perm (ms : List (Text × α)) : (byName ms).Perm ms :=
  List.mergeSort_perm ms _

theorem mem_byName {m : Text × α} : m ∈ byName ms ↔ m ∈ ms :=
  (byName_perm ms).mem_iff

/-- What the values are does not matter to the order. -/
theorem byName_map (f : α → β) (ms : List (Text × α)) :
    byName (ms.map fun m => (m.1, f m.2)) = (byName ms).map fun m => (m.1, f m.2) := by
  unfold byName
  rw [List.map_mergeSort]
  intros
  rfl

/-- Members with distinct names have one order. -/
theorem byName_eq_of_perm (h : ms.Perm ns) (hnames : (names ms).Nodup) : byName ms = byName ns := by
  have hsorted (l : List (Text × α)) : (byName l).Pairwise fun a b => a.1.le b.1 = true :=
    List.pairwise_mergeSort (fun a b c => Text.le_trans a.1 b.1 c.1)
      (fun a b => Text.le_total a.1 b.1) l
  have hperm : (byName ms).Perm (byName ns) :=
    (byName_perm ms).trans (h.trans (byName_perm ns).symm)
  apply List.Perm.eq_of_pairwise _ (hsorted ms) (hsorted ns) hperm
  intro a b ha hb hab hba
  have ha' : a ∈ ms := mem_byName.mp ha
  have hb' : b ∈ ms := h.mem_iff.mpr (mem_byName.mp hb)
  exact List.inj_on_of_nodup_map hnames ha' hb' (Text.le_antisymm hab hba)

end Members

namespace Value

/-- What holds of a value whenever it holds of those within it holds of every value. -/
@[elab_as_elim]
theorem induct {motive : Value → Prop} (null : motive .null) (bool : ∀ b, motive (.bool b))
    (number : ∀ x, motive (.number x)) (text : ∀ t, motive (.text t))
    (array : ∀ items, (∀ v ∈ items, motive v) → motive (.array items))
    (object : ∀ members, (∀ m ∈ members, motive m.2) → motive (.object members)) (v : Value) :
    motive v :=
  @Value.rec motive (fun items => ∀ v ∈ items, motive v) (fun ms => ∀ m ∈ ms, motive m.2)
    (fun m => motive m.2) null bool number text array object
    (fun _ h => nomatch h) (fun _ _ hv hvs => List.forall_mem_cons.mpr ⟨hv, hvs⟩)
    (fun _ h => nomatch h) (fun _ _ hm hms => List.forall_mem_cons.mpr ⟨hm, hms⟩)
    (fun _ _ hv => hv) v

mutual

/-- The value and all the values within it. -/
def parts : Value → List Value
  | .array items => .array items :: partsOfItems items
  | .object members => .object members :: partsOfMembers members
  | v => [v]

def partsOfItems : List Value → List Value
  | [] => []
  | v :: vs => v.parts ++ partsOfItems vs

def partsOfMembers : List (Text × Value) → List Value
  | [] => []
  | (_, v) :: ms => v.parts ++ partsOfMembers ms

end

/-- The predicate holds of the value and of all the values within it. -/
def Throughout (P : Value → Prop) (v : Value) : Prop :=
  ∀ w ∈ v.parts, P w

mutual

/-- How many arrays and objects stand within one another. -/
def depth : Value → Nat
  | .array items => depthOfItems items + 1
  | .object members => depthOfMembers members + 1
  | _ => 0

def depthOfItems : List Value → Nat
  | [] => 0
  | v :: vs => max v.depth (depthOfItems vs)

def depthOfMembers : List (Text × Value) → Nat
  | [] => 0
  | (_, v) :: ms => max v.depth (depthOfMembers ms)

end

mutual

/-- The value with members in the order of their names, and pairs put together in texts. -/
def canonical : Value → Value
  | .text t => .text t.paired
  | .array items => .array (canonicalItems items)
  | .object members => .object (byName (canonicalMembers members))
  | v => v

def canonicalItems : List Value → List Value
  | [] => []
  | v :: vs => v.canonical :: canonicalItems vs

def canonicalMembers : List (Text × Value) → List (Text × Value)
  | [] => []
  | (k, v) :: ms => (k, v.canonical) :: canonicalMembers ms

end

/-- A value as it is stored: whole numbers are not too long, and names are distinct. -/
def IsSound : Value → Prop
  | .number (.whole n) => (Text.ofNat n.natAbs).length ≤ Text.digitLimit
  | .object members => (names members).Nodup
  | _ => True

def IsReal : Value → Prop
  | .number (.real _) => True
  | _ => False

/-- A value that is exact: no floating-point number, and no character as two halves. -/
def IsExact : Value → Prop
  | .number (.real _) => False
  | .text t => t.Unsplit
  | .object members => ∀ k ∈ names members, Text.Unsplit k
  | _ => True

instance : DecidablePred IsSound
  | .number (.whole n) =>
    inferInstanceAs (Decidable ((Text.ofNat n.natAbs).length ≤ Text.digitLimit))
  | .object members => inferInstanceAs (Decidable (names members).Nodup)
  | .null | .bool _ | .number (.real _) | .text _ | .array _ => .isTrue trivial

instance : DecidablePred IsExact
  | .number (.real _) => .isFalse id
  | .text t => inferInstanceAs (Decidable t.Unsplit)
  | .object members => inferInstanceAs (Decidable (∀ k ∈ names members, Text.Unsplit k))
  | .null | .bool _ | .number (.whole _) | .array _ => .isTrue trivial

instance {P : Value → Prop} [DecidablePred P] (v : Value) : Decidable (v.Throughout P) :=
  List.decidableBAll P v.parts

/-- Equal up to the order of members, at every depth. -/
inductive Same : Value → Value → Prop
  | refl (v : Value) : Same v v
  | trans {u v w : Value} : Same u v → Same v w → Same u w
  | item (before after : List Value) {v w : Value} :
      Same v w → Same (.array (before ++ v :: after)) (.array (before ++ w :: after))
  | member (before after : List (Text × Value)) (name : Text) {v w : Value} : Same v w →
      Same (.object (before ++ (name, v) :: after)) (.object (before ++ (name, w) :: after))
  | order {ms ns : List (Text × Value)} : ms.Perm ns → Same (.object ms) (.object ns)

variable {P : Value → Prop} {v w : Value} {items : List Value} {members : List (Text × Value)}

theorem throughout_array :
    (Value.array items).Throughout P ↔ P (.array items) ∧ ∀ v ∈ items, v.Throughout P := by
  have hitems : ∀ vs, (∀ w ∈ partsOfItems vs, P w) ↔ ∀ v ∈ vs, v.Throughout P := by
    intro vs
    induction vs with
    | nil => simp [partsOfItems]
    | cons v vs ih =>
      rw [partsOfItems, List.forall_mem_append, ih, List.forall_mem_cons]
      rfl
  rw [Throughout, parts, List.forall_mem_cons, hitems]

theorem throughout_object :
    (Value.object members).Throughout P ↔
      P (.object members) ∧ ∀ m ∈ members, m.2.Throughout P := by
  have hmembers : ∀ ms, (∀ w ∈ partsOfMembers ms, P w) ↔ ∀ m ∈ ms, m.2.Throughout P := by
    intro ms
    induction ms with
    | nil => simp [partsOfMembers]
    | cons m ms ih =>
      rw [partsOfMembers, List.forall_mem_append, ih, List.forall_mem_cons]
      rfl
  rw [Throughout, parts, List.forall_mem_cons, hmembers]

theorem Throughout.head (h : v.Throughout P) : P v := by
  apply h
  cases v <;> simp [parts]

theorem IsExact.not_isReal (h : v.IsExact) : ¬v.IsReal := by
  cases v with
  | number x =>
    cases x with
    | whole => exact id
    | real => exact absurd h id
  | _ => exact id

theorem depth_array_le {n : Nat} :
    (Value.array items).depth ≤ n + 1 ↔ ∀ v ∈ items, v.depth ≤ n := by
  have hitems : ∀ vs, depthOfItems vs ≤ n ↔ ∀ v ∈ vs, v.depth ≤ n := by
    intro vs
    induction vs with
    | nil => simp [depthOfItems]
    | cons v vs ih => rw [depthOfItems, Nat.max_le, ih, List.forall_mem_cons]
  rw [depth, Nat.add_le_add_iff_right, hitems]

theorem depth_object_le {n : Nat} :
    (Value.object members).depth ≤ n + 1 ↔ ∀ m ∈ members, m.2.depth ≤ n := by
  have hmembers : ∀ ms, depthOfMembers ms ≤ n ↔ ∀ m ∈ ms, m.2.depth ≤ n := by
    intro ms
    induction ms with
    | nil => simp [depthOfMembers]
    | cons m ms ih => rw [depthOfMembers, Nat.max_le, ih, List.forall_mem_cons]
  rw [depth, Nat.add_le_add_iff_right, hmembers]

theorem canonical_array : (Value.array items).canonical = .array (items.map canonical) := by
  have hitems : ∀ vs, canonicalItems vs = vs.map canonical := by
    intro vs
    induction vs with
    | nil => rfl
    | cons v vs ih => rw [canonicalItems, ih, List.map_cons]
  rw [canonical, hitems]

theorem canonical_object :
    (Value.object members).canonical =
      .object ((byName members).map fun m => (m.1, m.2.canonical)) := by
  have hmembers : ∀ ms, canonicalMembers ms = ms.map fun m => (m.1, m.2.canonical) := by
    intro ms
    induction ms with
    | nil => rfl
    | cons m ms ih => rw [canonicalMembers, ih, List.map_cons]
  rw [canonical, hmembers, byName_map]

theorem print_array :
    (Value.array items).print = "[" ++ Text.join ", " (items.map print) ++ "]" := by
  have hitems : ∀ vs, printItems vs = vs.map print := by
    intro vs
    induction vs with
    | nil => rfl
    | cons v vs ih => rw [printItems, ih, List.map_cons]
  rw [print, hitems]

theorem printMembers_eq (ms : List (Text × Value)) :
    printMembers ms = ms.map fun m => (m.1, m.2.print) := by
  induction ms with
  | nil => rfl
  | cons m ms ih => rw [printMembers, ih, List.map_cons]

theorem print_object :
    (Value.object members).print =
      "\x7b" ++ Text.join ", " ((byName members).map fun m => printMember m.1 m.2.print) ++
        "\x7d" := by
  rw [print, printMembers_eq]
  change _ ++ Text.join _ (List.map _ (byName (members.map fun m => (m.1, m.2.print)))) ++ _ = _
  rw [byName_map, List.map_map]
  rfl

theorem Same.symm (h : v.Same w) : w.Same v := by
  induction h with
  | refl v => exact .refl v
  | trans _ _ ihuv ihvw => exact ihvw.trans ihuv
  | item before after _ ih => exact ih.item before after
  | member before after name _ ih => exact ih.member before after name
  | order h => exact .order h.symm

/-- Arrays are the same if their items are, one by one. -/
theorem same_array (f : Value → Value) (h : ∀ v ∈ items, v.Same (f v)) :
    (Value.array items).Same (.array (items.map f)) := by
  suffices ∀ before : List Value,
      (Value.array (before ++ items)).Same (.array (before ++ items.map f)) from this []
  induction items with
  | nil => exact fun _ => .refl _
  | cons v rest ih =>
    intro before
    obtain ⟨hv, hrest⟩ := List.forall_mem_cons.mp h
    apply (hv.item before rest).trans
    simpa using ih hrest (before ++ [f v])

theorem same_object (f : Value → Value) (h : ∀ m ∈ members, m.2.Same (f m.2)) :
    (Value.object members).Same (.object (members.map fun m => (m.1, f m.2))) := by
  suffices ∀ before : List (Text × Value), (Value.object (before ++ members)).Same
      (.object (before ++ members.map fun m => (m.1, f m.2))) from this []
  induction members with
  | nil => exact fun _ => .refl _
  | cons m rest ih =>
    intro before
    obtain ⟨hm, hrest⟩ := List.forall_mem_cons.mp h
    apply (hm.member before rest m.1).trans
    simpa using ih hrest (before ++ [(m.1, f m.2)])

/-- An exact value is brought into order, and nothing else is done to it. -/
theorem same_canonical (h : v.Throughout IsExact) : v.Same v.canonical := by
  induction v using Value.induct with
  | null | bool | number => exact .refl _
  | text t =>
    have hunsplit : t.Unsplit := h.head
    rw [canonical, Text.paired_eq_self hunsplit]
    exact .refl _
  | array items ih =>
    rw [canonical_array]
    exact same_array canonical fun v hv => ih v hv ((throughout_array.mp h).2 v hv)
  | object members ih =>
    rw [canonical_object]
    apply (Same.order (byName_perm members).symm).trans
    apply same_object
    intro m hm
    have hm := mem_byName.mp hm
    exact ih m hm ((throughout_object.mp h).2 m hm)

/-- The same values are sound together, and are written in the same way. -/
theorem Same.sound_print (h : v.Same w) (hv : v.Throughout IsSound) :
    w.Throughout IsSound ∧ v.print = w.print := by
  induction h with
  | refl v => exact ⟨hv, rfl⟩
  | trans _ _ ihuv ihvw =>
    obtain ⟨hsound, hprint⟩ := ihuv hv
    exact (ihvw hsound).imp_right hprint.trans
  | item before after _ ih =>
    obtain ⟨-, hitems⟩ := throughout_array.mp hv
    simp only [List.forall_mem_append, List.forall_mem_cons] at hitems
    obtain ⟨hbefore, hv, hafter⟩ := hitems
    obtain ⟨hsound, hprint⟩ := ih hv
    constructor
    · rw [throughout_array]
      simp only [List.forall_mem_append, List.forall_mem_cons]
      exact ⟨trivial, hbefore, hsound, hafter⟩
    · simp only [print_array, List.map_append, List.map_cons, hprint]
  | @member before after name v w _ ih =>
    obtain ⟨hnames, hmembers⟩ := throughout_object.mp hv
    simp only [List.forall_mem_append, List.forall_mem_cons] at hmembers
    obtain ⟨hbefore, hv, hafter⟩ := hmembers
    obtain ⟨hsound, hprint⟩ := ih hv
    constructor
    · rw [throughout_object]
      simp only [List.forall_mem_append, List.forall_mem_cons]
      refine ⟨?_, hbefore, hsound, hafter⟩
      simpa [IsSound, names] using hnames
    · simp only [print, printMembers_eq, List.map_append, List.map_cons, hprint]
  | @order ms ns hperm =>
    obtain ⟨hnames, hmembers⟩ := throughout_object.mp hv
    constructor
    · rw [throughout_object]
      have hnames' := (hperm.map Prod.fst).nodup_iff.mp hnames
      exact ⟨hnames', fun m hm => hmembers m (hperm.mem_iff.mpr hm)⟩
    · rw [print_object, print_object, byName_eq_of_perm hperm hnames]

theorem visible_printMember (name : Text) {t : Text} (h : t.Visible) :
    (printMember name t).Visible := by
  unfold printMember
  rw [Text.visible_append, Text.visible_append]
  exact ⟨⟨visible_printText name, by decide⟩, h⟩

/-- An exact value is written in printable characters. -/
theorem visible_print (h : v.Throughout IsExact) : v.print.Visible := by
  induction v using Value.induct with
  | null => decide
  | bool b => cases b <;> decide
  | number x =>
    cases x with
    | whole n => exact visible_ofInt n
    | real => exact absurd h.head id
  | text t => exact visible_printText t
  | array items ih =>
    have hitems : ∀ t ∈ items.map print, t.Visible := by
      simp only [List.mem_map]
      rintro _ ⟨v, hv, rfl⟩
      exact ih v hv ((throughout_array.mp h).2 v hv)
    rw [print_array, Text.visible_append, Text.visible_append]
    exact ⟨⟨by decide, Text.visible_join (by decide) hitems⟩, by decide⟩
  | object members ih =>
    have hmembers : ∀ t ∈ (byName members).map fun m => printMember m.1 m.2.print, t.Visible := by
      simp only [List.mem_map]
      rintro _ ⟨m, hm, rfl⟩
      have hm := mem_byName.mp hm
      exact visible_printMember m.1 (ih m hm ((throughout_object.mp h).2 m hm))
    rw [print_object, Text.visible_append, Text.visible_append]
    exact ⟨⟨by decide, Text.visible_join (by decide) hmembers⟩, by decide⟩

end Value

end Json

end AgentFleet
