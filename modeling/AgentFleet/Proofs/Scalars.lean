import AgentFleet.Json.Printer
import AgentFleet.Json.Reader
import Mathlib.Data.List.Chain

namespace AgentFleet

namespace Text

def isHigh : Point → Bool
  | .half h => h.val < 0x400
  | .char _ => false

def isLow : Point → Bool
  | .half h => 0x400 ≤ h.val
  | .char _ => false

/-- Printable ASCII, and blanks. -/
def Visible (t : Text) : Prop :=
  ∀ p ∈ t, 0x20 ≤ p.code ∧ p.code ≤ 0x7E

instance (t : Text) : Decidable t.Visible :=
  List.decidableBAll _ t

theorem visible_append {t u : Text} : Visible (t ++ u) ↔ t.Visible ∧ u.Visible :=
  List.forall_mem_append

/-- No character is there as the two halves of its pair. -/
def Unsplit (t : Text) : Prop :=
  t.IsChain fun p q => ¬(isHigh p ∧ isLow q)

instance (t : Text) : Decidable t.Unsplit :=
  inferInstanceAs (Decidable (t.IsChain _))

theorem unsplit_ofString (s : String) : Unsplit (ofString s) := by
  unfold Unsplit ofString
  rw [List.isChain_map]
  induction s.toList with
  | nil => exact .nil
  | cons c cs ih =>
    cases cs with
    | nil => exact .singleton c
    | cons d ds => exact .cons_cons (by simp [isHigh]) ih

/-- The character of a pair. -/
def pairPoint (p q : Point) : Point :=
  .char (Char.ofNat (0x10000 + (p.code - 0xD800) * 0x400 + (q.code - 0xDC00)))

/-- The text with each pair put together. -/
def paired : Text → Text
  | p :: q :: r => if isHigh p ∧ isLow q then pairPoint p q :: paired r else p :: paired (q :: r)
  | [p] => [p]
  | [] => []

theorem paired_eq_self {t : Text} (h : t.Unsplit) : t.paired = t := by
  fun_induction paired t with
  | case1 p q r hpair ih => exact absurd hpair (List.isChain_cons_cons.mp h).1
  | case2 p q r hpair ih => rw [ih (List.isChain_cons_cons.mp h).2]
  | case3 => rfl
  | case4 => rfl

theorem code_char (c : Char) :
    (Point.char c).code < 0xD800 ∨ 0xDFFF < (Point.char c).code ∧ (Point.char c).code < 0x110000 :=
  c.valid

theorem code_half (h : Half) : 0xD800 ≤ (Point.half h).code ∧ (Point.half h).code < 0xE000 := by
  have := h.isLt
  simp only [Point.code]
  omega

theorem code_lt (p : Point) : p.code < 0x110000 := by
  cases p with
  | char c =>
    have := code_char c
    omega
  | half h =>
    have := code_half h
    omega

theorem isHigh_iff (p : Point) : isHigh p = true ↔ 0xD800 ≤ p.code ∧ p.code < 0xDC00 := by
  cases p with
  | char c =>
    have := code_char c
    simp [isHigh]
    omega
  | half h =>
    simp only [isHigh, Point.code, decide_eq_true_eq]
    omega

theorem isLow_iff (p : Point) : isLow p = true ↔ 0xDC00 ≤ p.code ∧ p.code < 0xE000 := by
  cases p with
  | char c =>
    have := code_char c
    simp [isLow]
    omega
  | half h =>
    have := h.isLt
    simp only [isLow, Point.code, decide_eq_true_eq]
    omega

end Text

namespace Json
open Text (Point isHigh isLow)

theorem hexValue?_hexDigit : ∀ n < 16, hexValue? (Text.hexDigit n) = some n := by
  decide

/-- Four digits give back a unit of sixteen bits. -/
theorem hexUnit?_hex {n : Nat} (h : n < 0x10000) :
    ∃ a b c d, Text.hex 4 n = [a, b, c, d] ∧ hexUnit? a b c d = some n := by
  refine ⟨_, _, _, _, rfl, ?_⟩
  have hvalue (k : Nat) : hexValue? (Text.hexDigit (k % 16)) = some (k % 16) :=
    hexValue?_hexDigit _ (Nat.mod_lt _ (by decide))
  unfold hexUnit?
  rw [hvalue, hvalue, hvalue, hvalue]
  simp only [Option.pure_def, Option.bind_eq_bind, Option.bind_some, Option.some.injEq]
  omega

/-- The characters that have an escape of their own, or need none. -/
def isBrief (p : Point) : Bool :=
  (0x20 ≤ p.code && p.code < 0x7F) ||
    [.char '\n', .char '\r', .char '\t', .char '\x08', .char '\x0c'].contains p

/-- What the escape of a character is read as. -/
def pointPieces (p : Point) : List Piece :=
  if isBrief p then [.point p]
  else if p.code < 0x10000 then [.unit p.code]
  else [.unit (0xD800 + (p.code - 0x10000) / 0x400), .unit (0xDC00 + (p.code - 0x10000) % 0x400)]

/-- The forms that a character is written in, and the pieces that each of them is read as. -/
inductive Escape (p : Point) : Text → List Piece → Prop
  | plain (hquote : p ≠ .char '"') (hback : p ≠ .char '\\') (hlow : 0x20 ≤ p.code)
      (hhigh : p.code < 0x7F) : Escape p [p] [.point p]
  | simple {q : Point} (hunit : q ≠ .char 'u') (hescape : simpleEscapes.lookup q = some p)
      (hvisible : Text.Visible [q]) : Escape p [.char '\\', q] [.point p]
  | unit (h : p.code < 0x10000) : Escape p (unitEscape p.code) [.unit p.code]
  | pair (h : 0x10000 ≤ p.code) :
      Escape p (unitEscape (0xD800 + (p.code - 0x10000) / 0x400) ++
          unitEscape (0xDC00 + (p.code - 0x10000) % 0x400))
        [.unit (0xD800 + (p.code - 0x10000) / 0x400), .unit (0xDC00 + (p.code - 0x10000) % 0x400)]

theorem escape_escapedPoint (p : Point) : Escape p (escapedPoint p) (pointPieces p) := by
  by_cases hquote : p = .char '"'
  · subst hquote
    exact .simple (by decide) rfl (by decide)
  by_cases hback : p = .char '\\'
  · subst hback
    exact .simple (by decide) rfl (by decide)
  by_cases hplain : (decide (0x20 ≤ p.code) && decide (p.code < 0x7F)) = true
  · rw [escapedPoint, if_neg hquote, if_neg hback, if_pos hplain, pointPieces, isBrief, hplain,
      Bool.true_or, if_pos rfl]
    simp only [Bool.and_eq_true, decide_eq_true_eq] at hplain
    exact .plain hquote hback hplain.1 hplain.2
  by_cases hcontrol : p ∈ [Point.char '\n', .char '\r', .char '\t', .char '\x08', .char '\x0c']
  · simp only [List.mem_cons, List.not_mem_nil, or_false] at hcontrol
    rcases hcontrol with rfl | rfl | rfl | rfl | rfl
    all_goals exact .simple (by decide) rfl (by decide)
  have hlong : isBrief p = false := by
    rw [isBrief, List.contains_eq_mem, decide_eq_false hcontrol, Bool.or_false]
    exact Bool.eq_false_iff.mpr hplain
  simp only [List.mem_cons, List.not_mem_nil, or_false, not_or] at hcontrol
  obtain ⟨hline, hreturn, htab, hbell, hfeed⟩ := hcontrol
  rw [escapedPoint, if_neg hquote, if_neg hback, if_neg hplain, if_neg hline, if_neg hreturn,
    if_neg htab, if_neg hbell, if_neg hfeed, pointPieces, hlong, if_neg Bool.false_ne_true]
  by_cases hunit : p.code < 0x10000
  · rw [if_pos hunit, if_pos hunit]
    exact .unit hunit
  · rw [if_neg hunit, if_neg hunit]
    exact .pair (Nat.not_lt.mp hunit)

/-- Pieces in front of those that are read. -/
def before (ps : List Piece) (read : Rest (List Piece)) : Rest (List Piece) :=
  (ps ++ read.1, read.2)

theorem pieces_plain {start : Nat} {p : Point} (r : Text) (hq : p ≠ .char '"')
    (hb : p ≠ .char '\\') (hp : 0x20 ≤ p.code) :
    pieces start (p :: r) = (pieces start r).map (before [.point p]) := by
  rw [pieces]
  · rw [if_neg (Nat.not_lt.mpr hp)]
    cases pieces start r <;> rfl
  · exact hq
  · exact fun _ _ _ _ _ h _ => hb h
  · exact fun _ h _ => hb h
  · exact fun _ _ h _ => hb h
  · exact fun h _ => hb h

theorem pieces_simple {start : Nat} {p q : Point} (r : Text) (hu : p ≠ .char 'u')
    (h : simpleEscapes.lookup p = some q) :
    pieces start (.char '\\' :: p :: r) = (pieces start r).map (before [.point q]) := by
  rw [pieces]
  · rw [h]
    cases pieces start r <;> rfl
  · exact fun _ _ _ _ _ h _ => hu h
  · exact hu

theorem pieces_unitEscape {start n : Nat} {r : Text} (hn : n < 0x10000) (hr : r ≠ []) :
    pieces start (unitEscape n ++ r) = (pieces start r).map (before [.unit n]) := by
  obtain ⟨a, b, c, d, hhex, hunit⟩ := hexUnit?_hex hn
  obtain ⟨p, u, rfl⟩ := List.exists_cons_of_ne_nil hr
  have htext : unitEscape n ++ p :: u = .char '\\' :: .char 'u' :: a :: b :: c :: d :: p :: u := by
    unfold unitEscape
    rw [hhex]
    rfl
  rw [htext]
  conv_lhs => unfold pieces
  simp only [hunit]
  cases pieces start (p :: u) <;> rfl

/-- The escape of a character is read as its pieces. -/
theorem pieces_escapedPoint (start : Nat) (p : Point) {r : Text} (hr : r ≠ []) :
    pieces start (escapedPoint p ++ r) = (pieces start r).map (before (pointPieces p)) := by
  have hescape := escape_escapedPoint p
  generalize escapedPoint p = written, pointPieces p = ps at hescape
  cases hescape with
  | plain hquote hback hlow hhigh => exact pieces_plain r hquote hback hlow
  | simple hunit hescape => exact pieces_simple r hunit hescape
  | unit h => exact pieces_unitEscape h hr
  | pair h =>
    have hcode := Text.code_lt p
    rw [List.append_assoc, pieces_unitEscape (by omega) (by simp [hr]),
      pieces_unitEscape (by omega) hr]
    cases pieces start r <;> rfl

/-- A text that is written is read as the pieces of its characters. -/
theorem pieces_flatMap (start : Nat) (t rest : Text) :
    pieces start (t.flatMap escapedPoint ++ .char '"' :: rest) =
      .ok (t.flatMap pointPieces, rest) := by
  induction t with
  | nil => rw [List.flatMap_nil, List.nil_append, pieces]; rfl
  | cons p t ih =>
    rw [List.flatMap_cons, List.append_assoc, pieces_escapedPoint _ _ (by simp), ih]
    rfl

theorem unitPoint_code (p : Point) : unitPoint p.code = p := by
  unfold unitPoint
  cases p with
  | char c =>
    have := Text.code_char c
    rw [dif_neg (by omega)]
    exact congrArg Point.char (Char.ofNat_toNat c)
  | half h =>
    rw [dif_pos (Text.code_half h)]
    simp [Point.code]

/-- The units of a pair give back its character. -/
theorem joined_pair {p : Point} (h : 0x10000 ≤ p.code) (ps : List Piece) :
    joined (.unit (0xD800 + (p.code - 0x10000) / 0x400) ::
      .unit (0xDC00 + (p.code - 0x10000) % 0x400) :: ps) = p :: joined ps := by
  have hcode := Text.code_lt p
  rw [joined, if_pos (by omega)]
  have hsum : 0x10000 + (0xD800 + (p.code - 0x10000) / 0x400 - 0xD800) * 0x400 +
      (0xDC00 + (p.code - 0x10000) % 0x400 - 0xDC00) = p.code := by
    omega
  rw [hsum]
  cases p with
  | char c => exact congrArg (Point.char · :: _) (Char.ofNat_toNat c)
  | half q =>
    have := Text.code_half q
    omega

/-- A unit stays apart from what follows, unless the two are a high half and a low one. -/
theorem joined_unit (p : Point) (ps : List Piece)
    (h : isHigh p → ∀ n qs, ps = .unit n :: qs → ¬(0xDC00 ≤ n ∧ n < 0xE000)) :
    joined (.unit p.code :: ps) = p :: joined ps := by
  match ps with
  | [] => simp [joined, unitPoint_code]
  | .point q :: qs => rw [joined, unitPoint_code]; simp
  | .unit n :: qs =>
    rw [joined, if_neg, unitPoint_code]
    intro hpair
    exact h ((Text.isHigh_iff p).mpr ⟨hpair.1, hpair.2.1⟩) n qs rfl hpair.2.2

theorem joined_pointPieces (p : Point) (ps : List Piece)
    (h : isHigh p → ∀ n qs, ps = .unit n :: qs → ¬(0xDC00 ≤ n ∧ n < 0xE000)) :
    joined (pointPieces p ++ ps) = p :: joined ps := by
  unfold pointPieces
  split_ifs with hbrief hunit
  · rfl
  · exact joined_unit p ps h
  · exact joined_pair (Nat.not_lt.mp hunit) ps

/-- Halves are no brief characters. -/
theorem pointPieces_half {p : Point} (h : 0xD800 ≤ p.code ∧ p.code < 0xE000) :
    pointPieces p = [.unit p.code] := by
  have hbrief : isBrief p = false := by
    cases p with
    | char c =>
      have := Text.code_char c
      omega
    | half q =>
      simp [isBrief]
      omega
  simp only [pointPieces, hbrief, Bool.false_eq_true, if_false]
  rw [if_pos (by omega)]

/-- What a low unit starts is a low half. -/
theorem isLow_of_unit {p : Point} {n : Nat} {ps qs : List Piece}
    (h : pointPieces p ++ ps = .unit n :: qs) (hn : 0xDC00 ≤ n ∧ n < 0xE000) : isLow p := by
  have hcode := Text.code_lt p
  rw [Text.isLow_iff]
  unfold pointPieces at h
  split_ifs at h with hbrief hunit <;> simp at h <;> omega

/-- The pieces of a text make the text again, with each pair put together. -/
theorem joined_flatMap (t : Text) : joined (t.flatMap pointPieces) = t.paired := by
  fun_induction Text.paired t with
  | case1 p q r hpair ih =>
    have hp := (Text.isHigh_iff p).mp hpair.1
    have hq := (Text.isLow_iff q).mp hpair.2
    rw [List.flatMap_cons, List.flatMap_cons, pointPieces_half (by omega),
      pointPieces_half (by omega), List.singleton_append, List.singleton_append, joined,
      if_pos ⟨hp.1, hp.2, hq⟩, ih]
    rfl
  | case2 p q r hpair ih =>
    rw [List.flatMap_cons, joined_pointPieces, ih]
    intro hp n qs hqs hn
    exact hpair ⟨hp, isLow_of_unit hqs hn⟩
  | case3 p => exact joined_pointPieces p [] (by simp)
  | case4 => rfl

/-- Reading a text that was written, from behind its opening quote. -/
theorem readText_flatMap (t rest : Text) :
    readText (t.flatMap escapedPoint ++ .char '"' :: rest) = .ok (t.paired, rest) := by
  unfold readText
  rw [pieces_flatMap, ← joined_flatMap]
  rfl

theorem escapedPoint_of_le {p : Point} (h : 0x7F ≤ p.code) :
    escapedPoint p = if p.code < 0x10000 then unitEscape p.code
      else unitEscape (0xD800 + (p.code - 0x10000) / 0x400) ++
        unitEscape (0xDC00 + (p.code - 0x10000) % 0x400) := by
  have hne (c : Char) (hc : c.toNat < 0x7F) : p ≠ .char c := by
    intro e
    rw [e] at h
    exact absurd hc (Nat.not_lt.mpr h)
  have hplain : ¬(decide (0x20 ≤ p.code) && decide (p.code < 0x7F)) = true := by
    simp [Nat.not_lt.mpr h]
  rw [escapedPoint, if_neg (hne '"' (by decide)), if_neg (hne '\\' (by decide)), if_neg hplain,
    if_neg (hne '\n' (by decide)), if_neg (hne '\r' (by decide)), if_neg (hne '\t' (by decide)),
    if_neg (hne '\x08' (by decide)), if_neg (hne '\x0c' (by decide))]

/-- The halves of a pair are written as the pair is. -/
theorem flatMap_paired (t : Text) : t.paired.flatMap escapedPoint = t.flatMap escapedPoint := by
  fun_induction Text.paired t with
  | case1 p q r hpair ih =>
    have hp := (Text.isHigh_iff p).mp hpair.1
    have hq := (Text.isLow_iff q).mp hpair.2
    have hcode : (Text.pairPoint p q).code =
        0x10000 + (p.code - 0xD800) * 0x400 + (q.code - 0xDC00) := by
      have hvalid : (0x10000 + (p.code - 0xD800) * 0x400 + (q.code - 0xDC00)).isValidChar :=
        .inr (by omega)
      change (Char.ofNat _).toNat = _
      unfold Char.ofNat
      rw [dif_pos hvalid]
      rfl
    have hhigh : 0xD800 + ((Text.pairPoint p q).code - 0x10000) / 0x400 = p.code := by omega
    have hlow : 0xDC00 + ((Text.pairPoint p q).code - 0x10000) % 0x400 = q.code := by omega
    rw [List.flatMap_cons, List.flatMap_cons, List.flatMap_cons, ih, ← List.append_assoc,
      escapedPoint_of_le (by omega), escapedPoint_of_le (by omega), escapedPoint_of_le (by omega),
      if_neg (by omega), if_pos (by omega), if_pos (by omega), hhigh, hlow]
  | case2 p q r hpair ih => rw [List.flatMap_cons, ih, ← List.flatMap_cons]
  | case3 => rfl
  | case4 => rfl

/-- What can stand after a whole number without being taken for more of it. -/
def EndsNumber (rest : Text) : Prop :=
  ∀ p, rest.head? = some p →
    isDecimal p = false ∧ p ≠ .char '.' ∧ p ≠ .char 'e' ∧ p ≠ .char 'E'

theorem isDecimal_iff (c : Char) : isDecimal (.char c) = true ↔ c.isDigit = true := by
  change (decide (0x30 ≤ c.toNat) && decide (c.toNat ≤ 0x39)) = true ↔ _
  simp only [Bool.and_eq_true, decide_eq_true_eq, Char.isDigit, ge_iff_le, UInt32.le_iff_toNat_le]
  rfl

theorem ne_of_isDecimal {p q : Point} (hp : isDecimal p = true) (hq : isDecimal q = false) :
    p ≠ q := by
  intro h
  rw [h, hq] at hp
  cases hp

def digitsOf (n : Nat) : List Nat :=
  (Nat.toDigits 10 n).map fun c => c.toNat - 0x30

theorem ofDigits_digitsOf (n : Nat) : Text.ofDigits (digitsOf n) = n := by
  unfold Text.ofDigits digitsOf
  rw [List.foldl_map]
  exact Nat.ofDigitChars_ten_toDigits

/-- A number has a leading zero only if it is zero. -/
theorem head?_toDigits {n : Nat} (h : (Nat.toDigits 10 n).head? = some '0') : n = 0 := by
  induction n using Nat.strongRecOn with
  | ind n ih =>
    by_cases hn : n < 10
    · have hdigit : ∀ d < 10, [Nat.digitChar d].head? = some '0' → d = 0 := by decide
      rw [Nat.toDigits_of_lt_base hn] at h
      exact hdigit n hn h
    · rw [Nat.toDigits_of_base_le (by decide) (Nat.not_lt.mp hn),
        List.head?_append_of_ne_nil _ Nat.toDigits_ne_nil] at h
      have := ih (n / 10) (by omega) h
      omega

theorem isDecimal_of_mem_ofNat {n : Nat} {p : Point} (h : p ∈ Text.ofNat n) :
    isDecimal p = true := by
  obtain ⟨c, hc, rfl⟩ := List.mem_map.mp h
  exact (isDecimal_iff c).mpr (Nat.isDigit_of_mem_toDigits (by decide) (by decide) hc)

theorem decimalRun_ofNat {rest : Text} (h : EndsNumber rest) (n : Nat) :
    decimalRun (Text.ofNat n ++ rest) = (digitsOf n, rest) := by
  have hnone : rest.takeWhile isDecimal = [] ∧ rest.dropWhile isDecimal = rest := by
    cases rest with
    | nil => exact ⟨rfl, rfl⟩
    | cons p r => simp [(h p rfl).1]
  have hall : ∀ p ∈ Text.ofNat n, isDecimal p = true := fun _ => isDecimal_of_mem_ofNat
  unfold decimalRun
  rw [List.takeWhile_append_of_pos hall, List.dropWhile_append_of_pos hall, hnone.1, hnone.2,
    List.append_nil]
  simp [Text.ofNat, digitsOf, Text.Point.code, Function.comp_def]

theorem readWhole?_ofNat {rest : Text} (h : EndsNumber rest) (n : Nat) :
    readWhole? (Text.ofNat n ++ rest) = some (digitsOf n, rest) := by
  by_cases hn : n = 0
  · subst hn
    rfl
  · rw [readWhole?]
    · rw [decimalRun_ofNat h]
      split
      · rename_i hrun
        have hempty := (Prod.mk.inj hrun).1
        simp [digitsOf, Nat.toDigits_ne_nil] at hempty
      · rfl
    · intro r hr
      apply hn
      apply head?_toDigits
      have hhead := congrArg List.head? hr
      rw [List.head?_append_of_ne_nil _ (by simp [Text.ofNat, Nat.toDigits_ne_nil])] at hhead
      simpa [Text.ofNat] using hhead

theorem readFraction?_none {rest : Text} (h : EndsNumber rest) : readFraction? rest = none := by
  unfold readFraction?
  split
  · exact absurd rfl (h _ rfl).2.1
  · rfl

theorem readExponent?_none {rest : Text} (h : EndsNumber rest) : readExponent? rest = none := by
  unfold readExponent?
  split
  · exact absurd rfl (h _ rfl).2.2.1
  · exact absurd rfl (h _ rfl).2.2.2
  · rfl

theorem ofNat_eq_cons (n : Nat) : ∃ p r, Text.ofNat n = p :: r ∧ isDecimal p = true := by
  obtain ⟨p, r, h⟩ := List.exists_cons_of_ne_nil
    (show Text.ofNat n ≠ [] by simp [Text.ofNat, Nat.toDigits_ne_nil])
  exact ⟨p, r, h, isDecimal_of_mem_ofNat (h ▸ List.mem_cons_self)⟩

/-- A natural number is read, with or without the sign of negative numbers. -/
theorem readNumber_ofNat {rest : Text} (h : EndsNumber rest) {n : Nat}
    (hn : (Text.ofNat n).length ≤ Text.digitLimit) :
    readNumber (Text.ofNat n ++ rest) = .ok (.whole n, rest) ∧
      readNumber (.char '-' :: (Text.ofNat n ++ rest)) = .ok (.whole (-n), rest) := by
  have hlength : ¬(digitsOf n).length > Text.digitLimit := by
    simpa [digitsOf, Text.ofNat] using hn
  constructor
  · unfold readNumber
    split
    rename_i negative body hsign
    split at hsign
    · rename_i hminus
      obtain ⟨p, r, hp, hdecimal⟩ := ofNat_eq_cons n
      rw [hp] at hminus
      exact absurd (List.cons.inj hminus).1 (ne_of_isDecimal hdecimal rfl)
    · cases hsign
      simp [readWhole?_ofNat h, readFraction?_none h, readExponent?_none h, hlength,
        ofDigits_digitsOf]
  · unfold readNumber
    simp [readWhole?_ofNat h, readFraction?_none h, readExponent?_none h, hlength,
      ofDigits_digitsOf]

/-- No named value starts like a number. -/
theorem readScalar_eq_readNumber {p : Point} (r : Text) (h : isDecimal p = true) :
    readScalar (p :: r) = (readNumber (p :: r)).map (fun (x, rest) => (.number x, rest)) ∧
      readScalar (.char '-' :: p :: r) =
        (readNumber (.char '-' :: p :: r)).map fun (x, rest) => (.number x, rest) := by
  have hn := (ne_of_isDecimal h (q := .char 'n') rfl).symm
  have ht := (ne_of_isDecimal h (q := .char 't') rfl).symm
  have hf := (ne_of_isDecimal h (q := .char 'f') rfl).symm
  have hnan := (ne_of_isDecimal h (q := .char 'N') rfl).symm
  have hinfinity := (ne_of_isDecimal h (q := .char 'I') rfl).symm
  have hminus := (ne_of_isDecimal h (q := .char '-') rfl).symm
  constructor
  · simp [readScalar, namedValues, after?, Text.ofString, hn, ht, hf, hnan, hinfinity, hminus]
  · simp [readScalar, namedValues, after?, Text.ofString, hinfinity]

theorem readScalar_ofInt {rest : Text} (h : EndsNumber rest) {n : Int}
    (hn : (Text.ofNat n.natAbs).length ≤ Text.digitLimit) :
    readScalar (Text.ofInt n ++ rest) = .ok (.whole n, rest) := by
  obtain ⟨p, r, hp, hdecimal⟩ := ofNat_eq_cons n.natAbs
  obtain ⟨hplain, hminus⟩ := readScalar_eq_readNumber (r ++ rest) hdecimal
  obtain ⟨hread, hreadMinus⟩ := readNumber_ofNat h hn
  rw [hp] at hread hreadMinus
  cases n with
  | ofNat n =>
    change readScalar (Text.ofNat n ++ rest) = _
    rw [show Text.ofNat n = p :: r from hp, List.cons_append, hplain, ← List.cons_append, hread]
    rfl
  | negSucc n =>
    change readScalar (.char '-' :: (Text.ofNat (n + 1) ++ rest)) = _
    rw [show Text.ofNat (n + 1) = p :: r from hp, List.cons_append, hminus, ← List.cons_append,
      hreadMinus]
    rfl

theorem readScalar_null (rest : Text) : readScalar ("null" ++ rest) = .ok (.null, rest) :=
  rfl

theorem readScalar_bool (rest : Text) (b : Bool) :
    readScalar ((Value.bool b).print ++ rest) = .ok (.bool b, rest) := by
  cases b <;> rfl

theorem visible_hex (width n : Nat) : (Text.hex width n).Visible := by
  have hdigit : ∀ d < 16, Text.Visible [Text.hexDigit d] := by decide
  induction width generalizing n with
  | zero => exact fun _ h => nomatch h
  | succ w ih => exact Text.visible_append.mpr ⟨ih _, hdigit _ (Nat.mod_lt _ (by decide))⟩

theorem visible_unitEscape (n : Nat) : (unitEscape n).Visible :=
  Text.visible_append.mpr ⟨by decide, visible_hex 4 n⟩

theorem visible_escapedPoint (p : Point) : (escapedPoint p).Visible := by
  have hescape := escape_escapedPoint p
  generalize escapedPoint p = written, pointPieces p = ps at hescape
  cases hescape with
  | plain hquote hback hlow hhigh =>
    intro q hq
    rw [List.mem_singleton.mp hq]
    omega
  | simple hunit hescape hvisible =>
    exact Text.visible_append (t := [.char '\\']).mpr ⟨by decide, hvisible⟩
  | unit h => exact visible_unitEscape _
  | pair h => exact Text.visible_append.mpr ⟨visible_unitEscape _, visible_unitEscape _⟩

theorem visible_printText (t : Text) : (printText t).Visible := by
  have htext : Text.Visible (t.flatMap escapedPoint) := by
    intro q hq
    obtain ⟨p, _, hp⟩ := List.mem_flatMap.mp hq
    exact visible_escapedPoint p q hp
  exact Text.visible_append.mpr ⟨Text.visible_append.mpr ⟨by decide, htext⟩, by decide⟩

theorem visible_ofNat (n : Nat) : (Text.ofNat n).Visible := by
  intro p hp
  have hdecimal := isDecimal_of_mem_ofNat hp
  simp only [isDecimal, Bool.and_eq_true, decide_eq_true_eq] at hdecimal
  omega

theorem visible_ofInt (n : Int) : (Text.ofInt n).Visible := by
  cases n with
  | ofNat n => exact visible_ofNat n
  | negSucc n => exact Text.visible_append.mpr ⟨by decide, visible_ofNat (n + 1)⟩

end Json

end AgentFleet
