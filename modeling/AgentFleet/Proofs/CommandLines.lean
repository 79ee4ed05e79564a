import AgentFleet.CommandLine.Reading
import AgentFleet.Proofs.Outcome
import AgentFleet.Proofs.Scalars
import Mathlib.Data.List.TakeWhile

namespace AgentFleet

namespace Text

theorem digitValue?_of_isDecimal {p : Point} (h : Json.isDecimal p = true) :
    digitValue? p = some (p.code - 0x30) := by
  have hcode : 0x30 ≤ p.code ∧ p.code < 0x30 + 10 := by
    simp only [Json.isDecimal, Bool.and_eq_true, decide_eq_true_eq] at h
    omega
  unfold digitValue? zeros
  rw [List.find?_cons_of_pos (by simpa using hcode)]
  rfl

theorem digitRun_decimals {t : Text} (h : ∀ p ∈ t, Json.isDecimal p = true) :
    digitRun t = (t.map (·.code - 0x30), []) := by
  induction t with
  | nil => rfl
  | cons p r ih =>
    obtain ⟨hp, hr⟩ := List.forall_mem_cons.mp h
    have hne : p ≠ .char '_' := Json.ne_of_isDecimal hp (by decide)
    rw [digitRun, digitValue?_of_isDecimal hp, ih hr]
    · rfl
    · exact fun _ _ he _ => hne he

theorem not_isNumeralBlank_of_isDecimal {p : Point} (h : Json.isDecimal p = true) :
    isNumeralBlank p = false := by
  simp only [Json.isDecimal, Bool.and_eq_true, decide_eq_true_eq] at h
  have hblank : isBlank p = false := by
    simp only [isBlank, Bool.or_eq_false_iff, Bool.and_eq_false_iff, decide_eq_false_iff_not,
      beq_eq_false_iff_ne]
    omega
  rw [isNumeralBlank, hblank, Bool.false_and]

theorem sign_of_isDecimal {p : Point} (h : Json.isDecimal p = true) (r : Text) :
    sign (p :: r) = (false, p :: r) := by
  unfold sign
  split
  · rename_i he
    exact absurd (List.cons.inj he).1 (Json.ne_of_isDecimal h (by decide))
  · rename_i he
    exact absurd (List.cons.inj he).1 (Json.ne_of_isDecimal h (by decide))
  · rfl

/-- The decimal text of a number is read as the number. -/
theorem readInteger_ofNat {n : Nat} (h : (ofNat n).length ≤ digitLimit) :
    readInteger (ofNat n) = .ok n := by
  obtain ⟨p, r, he, hp⟩ := Json.ofNat_eq_cons n
  have hrun : digitRun (ofNat n) = (Json.digitsOf n, []) := by
    rw [digitRun_decimals fun p hp => Json.isDecimal_of_mem_ofNat hp]
    simp [ofNat, Json.digitsOf, Point.code, Function.comp_def]
  have hlength : (Json.digitsOf n).length ≤ digitLimit := by
    simpa [Json.digitsOf, ofNat] using h
  have hstart : sign ((ofNat n).dropWhile isNumeralBlank) = (false, ofNat n) := by
    rw [he, List.dropWhile_cons_of_neg (by simp [not_isNumeralBlank_of_isDecimal hp])]
    exact sign_of_isDecimal hp r
  have hhead : (ofNat n).head? ≠ some (.char '_') := by
    rw [he]
    simpa using Json.ne_of_isDecimal hp (q := .char '_') (by decide)
  have hne : Json.digitsOf n ≠ [] := by
    simp [Json.digitsOf, Nat.toDigits_ne_nil]
  unfold readInteger
  rw [hstart]
  dsimp only
  rw [hrun]
  simp [hhead, hne, Nat.not_lt.mpr hlength, Json.ofDigits_digitsOf]

end Text

namespace CommandLine

/-- A text that does not look like a flag. -/
def Unflagged (t : Text) : Prop :=
  t.head? ≠ some (.char '-')

instance (t : Text) : Decidable (Unflagged t) :=
  inferInstanceAs (Decidable (_ ≠ _))

theorem Unflagged.ne_separator {t : Text} (h : Unflagged t) : t ≠ "--" := by
  rintro rfl
  exact h rfl

namespace Grammar

variable {g : Grammar} {f : Flag} {start long t v : Text}

theorem classify_unflagged (g : Grammar) (h : Unflagged t) : g.classify t = .ok .value := by
  unfold classify
  split
  · exact absurd rfl h
  · rfl

theorem splitEquals_none (h : .char '=' ∉ start) : splitEquals start = none := by
  have hdrop : start.dropWhile (· ≠ .char '=') = [] := by
    refine List.dropWhile_eq_nil_iff.mpr fun p hp => ?_
    have hne : p ≠ .char '=' := fun e => h (e ▸ hp)
    simpa using hne
  unfold splitEquals
  rw [hdrop]

theorem splitEquals_attached (h : .char '=' ∉ start) (v : Text) :
    splitEquals (start ++ .char '=' :: v) = some (start, v) := by
  have hall : ∀ p ∈ start, decide (p ≠ .char '=') = true := by
    intro p hp
    have hne : p ≠ .char '=' := fun e => h (e ▸ hp)
    simpa using hne
  unfold splitEquals
  rw [List.dropWhile_append_of_pos hall, List.takeWhile_append_of_pos hall]
  simp

/-- The spellings that a long beginning may be short for. -/
def fitting (g : Grammar) (start : Text) : List Spelling :=
  g.spellings.filter fun s => start.isPrefixOf s.text

/-- What is spelled out is among what fits. -/
theorem mem_fitting_of_spelled (h : g.spelled? start = some f) :
    ∃ s ∈ g.fitting start, s.flag = f := by
  obtain ⟨s, hs, hf⟩ := Option.map_eq_some_iff.mp h
  have htext : s.text = start := by simpa using List.find?_some hs
  refine ⟨s, List.mem_filter.mpr ⟨List.mem_of_find?_eq_some hs, ?_⟩, hf⟩
  rw [htext]
  exact List.isPrefixOf_iff_prefix.mpr (List.prefix_refl start)

theorem spelled?_eq_none (h : g.fitting start = []) : g.spelled? start = none := by
  cases hs : g.spelled? start with
  | none => rfl
  | some f =>
    obtain ⟨s, hm, _⟩ := mem_fitting_of_spelled hs
    rw [h] at hm
    cases hm

theorem spelled?_attached (hno : ∀ s ∈ g.spellings, .char '=' ∉ s.text) (start v : Text) :
    g.spelled? (start ++ .char '=' :: v) = none := by
  unfold spelled?
  rw [Option.map_eq_none_iff, List.find?_eq_none]
  intro s hs he
  refine hno s hs ?_
  rw [of_decide_eq_true he]
  simp

theorem exists_cons_cons (h : isLong start = true) :
    ∃ r, start = .char '-' :: .char '-' :: r := by
  unfold isLong at h
  split at h
  · exact ⟨_, rfl⟩
  · cases h

theorem candidates_long (hlong : isLong start = true) (heq : .char '=' ∉ start) :
    g.candidates start = (g.fitting start).map (·, none) := by
  unfold candidates
  rw [if_pos hlong, splitEquals_none heq]
  rfl

theorem isLong_attached (hlong : isLong start = true) (v : Text) :
    isLong (start ++ .char '=' :: v) = true := by
  obtain ⟨r, rfl⟩ := exists_cons_cons hlong
  rfl

theorem candidates_attached (hlong : isLong start = true) (heq : .char '=' ∉ start) (v : Text) :
    g.candidates (start ++ .char '=' :: v) = (g.fitting start).map (·, some v) := by
  unfold candidates
  rw [if_pos (isLong_attached hlong v), splitEquals_attached heq]
  rfl

theorem classify_isLong (hlong : isLong t = true) : g.classify t =
    match g.spelled? t, splitEquals t with
    | some f, _ => .ok (.flag f (!isLong t) none)
    | none, none => g.guess t
    | none, some (name, value) =>
      match g.spelled? name with
      | some f => .ok (.flag f (!isLong name) (some value))
      | none => g.guess t := by
  obtain ⟨r, rfl⟩ := exists_cons_cons hlong
  rfl

theorem classify_long (hlong : isLong start = true) (heq : .char '=' ∉ start) :
    g.classify start = match g.spelled? start with
      | some f => .ok (.flag f false none)
      | none => g.guess start := by
  rw [classify_isLong hlong, splitEquals_none heq, hlong]
  cases g.spelled? start <;> rfl

theorem classify_attached (hno : ∀ s ∈ g.spellings, .char '=' ∉ s.text)
    (hlong : isLong start = true) (heq : .char '=' ∉ start) (v : Text) :
    g.classify (start ++ .char '=' :: v) = match g.spelled? start with
      | some f => .ok (.flag f false (some v))
      | none => g.guess (start ++ .char '=' :: v) := by
  rw [classify_isLong (isLong_attached hlong v), splitEquals_attached heq, spelled?_attached hno]
  dsimp only
  rw [hlong]
  rfl

theorem guess_one {value : Option Text} (h : g.candidates t = [(⟨long, f⟩, value)])
    (hl : isLong long = true) : g.guess t = .ok (.flag f false value) := by
  rw [guess, h]
  dsimp only
  rw [hl]
  rfl

/-- What a token is taken for that may be short for nothing. -/
def foreign (t : Text) : Token :=
  if isNegativeNumber t || t.contains (.char ' ') then .value else .unknown

theorem guess_none (h : g.candidates t = []) : g.guess t = .ok (foreign t) := by
  rw [guess, h]
  rfl

/-- A long beginning that fits one spelling is its flag, without a value or with the one that is
attached. -/
theorem classify_fitting (hno : ∀ s ∈ g.spellings, .char '=' ∉ s.text)
    (hlong : isLong start = true) (heq : .char '=' ∉ start)
    (hfit : g.fitting start = [⟨long, f⟩]) (hl : isLong long = true) :
    g.classify start = .ok (.flag f false none) ∧
      ∀ v, g.classify (start ++ .char '=' :: v) = .ok (.flag f false (some v)) := by
  have hspelled : ∀ f', g.spelled? start = some f' → f' = f := by
    intro f' h
    obtain ⟨s, hs, rfl⟩ := mem_fitting_of_spelled h
    rw [hfit] at hs
    rw [List.mem_singleton.mp hs]
  constructor
  · rw [classify_long hlong heq]
    cases hs : g.spelled? start with
    | some f' => rw [hspelled f' hs]
    | none => exact guess_one (by rw [candidates_long hlong heq, hfit]; rfl) hl
  · intro v
    rw [classify_attached hno hlong heq]
    cases hs : g.spelled? start with
    | some f' => rw [hspelled f' hs]
    | none => exact guess_one (by rw [candidates_attached hlong heq, hfit]; rfl) hl

/-- A long name that fits nothing is no flag here, and no mistake either. -/
theorem classify_foreign (hno : ∀ s ∈ g.spellings, .char '=' ∉ s.text)
    (hlong : isLong start = true) (heq : .char '=' ∉ start) (hfit : g.fitting start = []) :
    g.classify start = .ok (foreign start) ∧
      ∀ v, g.classify (start ++ .char '=' :: v) = .ok (foreign (start ++ .char '=' :: v)) := by
  have hspelled := spelled?_eq_none hfit
  constructor
  · rw [classify_long hlong heq, hspelled]
    exact guess_none (by rw [candidates_long hlong heq, hfit]; rfl)
  · intro v
    rw [classify_attached hno hlong heq, hspelled]
    exact guess_none (by rw [candidates_attached hlong heq, hfit]; rfl)

/-- From left to right arguments say these steps. -/
def Reads (g : Grammar) (isOpen : Bool) (arguments : List Text) (steps : List Step) : Prop :=
  ∃ tokens, g.tokens arguments = .ok tokens ∧ g.scan isOpen tokens = steps

theorem tokens_cons {k : Token} {rest : List Text} {tokens : List (Token × Text)} (hne : t ≠ "--")
    (hk : g.classify t = .ok k) (h : g.tokens rest = .ok tokens) :
    g.tokens (t :: rest) = .ok ((k, t) :: tokens) := by
  rw [Grammar.tokens, if_neg hne, hk, h]
  rfl

theorem tokens_of_classified {rest : List Text}
    (h : ∀ u ∈ rest, u ≠ "--" ∧ ∃ k, g.classify u = .ok k) :
    ∃ tokens, g.tokens rest = .ok tokens ∧ tokens.map (·.2) = rest := by
  induction rest with
  | nil => exact ⟨[], rfl, rfl⟩
  | cons u rest ih =>
    obtain ⟨⟨hne, k, hk⟩, hrest⟩ := List.forall_mem_cons.mp h
    obtain ⟨tokens, ht, hsame⟩ := ih hrest
    exact ⟨_, tokens_cons hne hk ht, by rw [List.map_cons, hsame]⟩

theorem classify_ne_separator (g : Grammar) (t : Text) : g.classify t ≠ .ok .separator := by
  have hguess : g.guess t ≠ .ok .separator := by
    unfold guess
    split
    · split <;> nofun
    · nofun
    · nofun
  unfold classify
  split
  · split
    · nofun
    · exact hguess
    · split
      · nofun
      · exact hguess
  · nofun

theorem tokens_head {rest : List Text} {tokens : List (Token × Text)}
    (hrest : rest.head? ≠ some ("--" : Text)) (h : g.tokens rest = .ok tokens) (u : Text)
    (more : List (Token × Text)) : tokens ≠ (.separator, u) :: more := by
  rintro rfl
  cases rest with
  | nil => cases h
  | cons t rest =>
    rw [Grammar.tokens, if_neg fun e => hrest (congrArg some e)] at h
    obtain ⟨k, hk, h⟩ := except_bind_eq_ok.mp h
    obtain ⟨others, _, h⟩ := except_bind_eq_ok.mp h
    cases h
    exact g.classify_ne_separator _ hk

namespace Reads

variable {isOpen isShort : Bool} {rest : List Text} {steps : List Step} {title : Text}

theorem nil : g.Reads isOpen [] [] :=
  ⟨[], rfl, by rw [scan]⟩

theorem attached (hf : f.arity ≠ .none) (hne : t ≠ "--")
    (hk : g.classify t = .ok (.flag f isShort (some v))) (hv : v ≠ "--")
    (h : g.Reads isOpen rest steps) : g.Reads isOpen (t :: rest) (.flag f (some v) :: steps) := by
  obtain ⟨tokens, ht, rfl⟩ := h
  refine ⟨_, tokens_cons hne hk ht, ?_⟩
  rw [scan, clusterOf, cluster.eq_def, if_pos hf, attachedValue, if_neg hv]
  rfl

theorem next (hf : f.arity ≠ .none) (hne : t ≠ "--")
    (hk : g.classify t = .ok (.flag f isShort none)) (hv : Unflagged v)
    (h : g.Reads isOpen rest steps) :
    g.Reads isOpen (t :: v :: rest) (.flag f (some v) :: steps) := by
  obtain ⟨tokens, ht, rfl⟩ := h
  refine ⟨_, tokens_cons hne hk (tokens_cons hv.ne_separator (g.classify_unflagged hv) ht), ?_⟩
  rw [scan, clusterOf]
  cases f with
  | help => exact absurd rfl hf
  | _ => rfl

/-- The value that a command takes. Two dashes after it would belong to it. -/
theorem value (hp : g.positional = .value title) (hv : Unflagged t)
    (hrest : rest.head? ≠ some ("--" : Text)) (h : g.Reads false rest steps) :
    g.Reads true (t :: rest) (.positional [t] :: steps) := by
  obtain ⟨tokens, ht, rfl⟩ := h
  refine ⟨_, tokens_cons hv.ne_separator (g.classify_unflagged hv) ht, ?_⟩
  -- no separator comes first in what is left to be scanned
  have hhead := tokens_head hrest ht
  rw [scan.eq_def]
  simp only [hp]

theorem everything (hp : g.positional = .everything title) (hv : Unflagged t)
    (hrest : ∀ u ∈ rest, u ≠ "--" ∧ ∃ k, g.classify u = .ok k) :
    g.Reads true (t :: rest) [.positional (t :: rest)] := by
  obtain ⟨tokens, ht, hsame⟩ := tokens_of_classified hrest
  refine ⟨_, tokens_cons hv.ne_separator (g.classify_unflagged hv) ht, ?_⟩
  rw [scan.eq_def]
  simp only [hp, hsame]

theorem steps_eq (h : g.Reads (g.positional ≠ .nothing) rest steps) : g.steps rest = steps := by
  obtain ⟨tokens, ht, rfl⟩ := h
  rw [Grammar.steps, ht]

end Reads

section Following

variable {σ : Type} {take : σ → Step → Except Exit σ} {s s' : σ} {steps : List Step}

/-- A flag that is taken is followed by what comes next. -/
theorem follow_flag {value : Option Text} (hf : f.arity ≠ .none)
    (h : take s (.flag f value) = .ok s') :
    g.follow take s (.flag f value :: steps) = g.follow take s' steps := by
  rw [follow, h]
  · nofun
  · rintro _ ⟨⟩
    exact hf rfl

theorem follow_positional {values : List Text} (h : take s (.positional values) = .ok s') :
    g.follow take s (.positional values :: steps) = g.follow take s' steps := by
  rw [follow, h]
  · nofun
  · nofun

end Following

end Grammar

/-- The short name of a flag is the first of its spellings, the long name the last one. -/
def Flag.shortName (f : Flag) : Text :=
  f.spellings.headD []

def Flag.longName (f : Flag) : Text :=
  f.spellings.getLastD []

/-- A flag is written with its value: the short name and the value; the long name, of which a letter
is enough, and the value; or both as one, with an equals sign between. -/
inductive Flag.Written (f : Flag) (v : Text) : List Text → Prop
  | short : Written f v [f.shortName, v]
  | long (hs : start <+: f.longName) (hl : 3 ≤ start.length) : Written f v [start, v]
  | attached (hs : start <+: f.longName) (hl : 3 ≤ start.length) :
      Written f v [start ++ .char '=' :: v]

/-- What is chosen for any command. -/
inductive Choice
  | settingsFile (path : Text)
  | agentsFile (path : Text)
  | level (level : LogLevel)

/-- The flag of a choice and a text for its value. A level goes by its name in letters of any
case. -/
inductive Choice.Worded : Choice → Flag → Text → Prop
  | settingsFile (h : Unflagged path) : Worded (.settingsFile path) .settings path
  | agentsFile (h : Unflagged path) : Worded (.agentsFile path) .agentsFile path
  | level (h : (Text.lowerAscii t, l) ∈ LogLevel.all) : Worded (.level l) .level t

/-- Choices are written one after another. -/
inductive Chosen : List Choice → List Text → Prop
  | nil : Chosen [] []
  | cons (hc : Choice.Worded c f v) (hf : f.Written v tokens) (h : Chosen cs rest) :
      Chosen (c :: cs) (tokens ++ rest)

namespace Choice

variable {c : Choice} {f : Flag} {v : Text}

def settingsFile? : Choice → Option Text
  | settingsFile path => some path
  | _ => none

def agentsFile? : Choice → Option Text
  | agentsFile path => some path
  | _ => none

def level? : Choice → Option LogLevel
  | level l => some l
  | _ => none

theorem Worded.arity (h : c.Worded f v) : f.arity ≠ .none := by
  cases h <;> nofun

theorem Worded.unflagged (h : c.Worded f v) : Unflagged v := by
  cases h with
  | settingsFile h => exact h
  | agentsFile h => exact h
  | level h =>
    intro hdash
    have hnames : ∀ e ∈ LogLevel.all, e.1.head? ≠ some (.char '-') := by decide
    refine hnames _ h ?_
    rw [Text.lowerAscii, List.head?_map, hdash]
    rfl

/-- The short name of an option for all commands is its flag, and so is any beginning of its long
name. -/
theorem Worded.names (h : c.Worded f v) :
    (f.shortName ≠ "--" ∧ global.classify f.shortName = .ok (.flag f true none)) ∧
      isLong f.longName = true ∧ ∀ k, k ≤ f.longName.length → 3 ≤ k →
        isLong (f.longName.take k) = true ∧ .char '=' ∉ f.longName.take k ∧
          global.fitting (f.longName.take k) = [⟨f.longName, f⟩] := by
  cases h with
  | settingsFile _ => exact ⟨⟨by decide, by decide⟩, by decide, by decide +kernel⟩
  | agentsFile _ => exact ⟨⟨by decide, by decide⟩, by decide, by decide +kernel⟩
  | level _ => exact ⟨⟨by decide, by decide⟩, by decide, by decide +kernel⟩

theorem global_spellings : ∀ s ∈ global.spellings, .char '=' ∉ s.text := by
  decide +kernel

theorem ne_separator_of_length {t : Text} (h : 3 ≤ t.length) : t ≠ "--" := by
  rintro rfl
  exact absurd h (by decide)

/-- However a choice is written, it is read as a flag with its value. -/
theorem Worded.reads (h : c.Worded f v) {tokens rest : List Text} {isOpen : Bool}
    {steps : List Step} (hw : f.Written v tokens) (hr : global.Reads isOpen rest steps) :
    global.Reads isOpen (tokens ++ rest) (.flag f (some v) :: steps) := by
  obtain ⟨⟨hne, hshort⟩, hlong, hstarts⟩ := h.names
  have hfitting : ∀ start : Text, start <+: f.longName → 3 ≤ start.length →
      global.classify start = .ok (.flag f false none) ∧
        ∀ v, global.classify (start ++ .char '=' :: v) = .ok (.flag f false (some v)) := by
    intro start hs hl
    obtain ⟨hstart, heq, hfit⟩ := hstarts start.length hs.length_le hl
    rw [← List.prefix_iff_eq_take.mp hs] at hstart heq hfit
    exact Grammar.classify_fitting global_spellings hstart heq hfit hlong
  cases hw with
  | short => exact .next h.arity hne hshort h.unflagged hr
  | long hs hl =>
    exact .next h.arity (ne_separator_of_length hl) (hfitting _ hs hl).1 h.unflagged hr
  | attached hs hl =>
    have hlength : ∀ start : Text, 3 ≤ start.length → 3 ≤ (start ++ .char '=' :: v).length := by
      intro start hl
      rw [List.length_append]
      omega
    exact .attached h.arity (ne_separator_of_length (hlength _ hl)) ((hfitting _ hs hl).2 v)
      h.unflagged.ne_separator hr

end Choice

/-- A draft with a choice made. -/
def Draft.choose (d : Draft) : Choice → Draft
  | .settingsFile path => { d with settingsFile := some (.value path) }
  | .agentsFile path => { d with agentsFile := .value path }
  | .level level => { d with level }

theorem logLevel_of_mem {t : Text} {l : LogLevel} (h : (Text.lowerAscii t, l) ∈ LogLevel.all) :
    logLevel t = .ok l := by
  have hlookup : ∀ e ∈ LogLevel.all, LogLevel.all.lookup e.1 = some e.2 := by decide
  unfold logLevel
  rw [hlookup _ h]

theorem Choice.Worded.take {c : Choice} {f : Flag} {v : Text} (h : c.Worded f v) (d : Draft)
    (steps : List Step) : global.follow Draft.take d (.flag f (some v) :: steps) =
      global.follow Draft.take (d.choose c) steps := by
  cases h with
  | settingsFile _ => rfl
  | agentsFile _ => rfl
  | level h => exact Grammar.follow_flag nofun (by rw [Draft.take, logLevel_of_mem h]; rfl)

/-- The last of each kind counts. -/
theorem Draft.choose_all (d : Draft) (cs : List Choice) : cs.foldl Draft.choose d =
    { d with
      settingsFile := ((cs.filterMap Choice.settingsFile?).getLast?.map .value).or d.settingsFile
      agentsFile := ((cs.filterMap Choice.agentsFile?).getLast?.map .value).getD d.agentsFile
      level := (cs.filterMap Choice.level?).getLast?.getD d.level } := by
  induction cs using List.reverseRecOn with
  | nil => rfl
  | append_singleton cs c ih =>
    rw [List.foldl_append, ih]
    cases c <;> simp [choose, Choice.settingsFile?, Choice.agentsFile?, Choice.level?]

theorem Chosen.reads {cs : List Choice} {tokens rest : List Text} {steps : List Step}
    (h : Chosen cs tokens) (hr : global.Reads true rest steps) :
    ∃ all, global.Reads true (tokens ++ rest) all ∧ ∀ d, global.follow Draft.take d all =
      global.follow Draft.take (cs.foldl Draft.choose d) steps := by
  induction h with
  | nil => exact ⟨steps, hr, fun _ => rfl⟩
  | cons hc hf _ ih =>
    obtain ⟨all, hall, hfollow⟩ := ih
    refine ⟨_, ?_, fun d => (hc.take d all).trans (hfollow _)⟩
    rw [List.append_assoc]
    exact hc.reads hf hall

/-- What is chosen for a broadcast. -/
inductive Manner
  | payload (document : Json.Value)
  | workers (count : Nat) (positive : 0 < count)

namespace Manner

def document? : Manner → Option Json.Value
  | payload document => some document
  | _ => none

def delivery? : Manner → Option Delivery
  | workers count positive => some (.parallel count positive)
  | _ => none

end Manner

/-- Choices for a broadcast are written one after another, a document as one with its flag, and a
number of workers behind its flag. -/
inductive Mannered : List Manner → List Text → Prop
  | nil : Mannered [] []
  | payload (ht : payload t = .ok document) (h : Mannered ms rest) :
      Mannered (.payload document :: ms) (("--payload=" ++ t) :: rest)
  | workers (hpos : 0 < count) (hlen : (Text.ofNat count).length ≤ Text.digitLimit)
      (h : Mannered ms rest) :
      Mannered (.workers count hpos :: ms) ("--parallel" :: Text.ofNat count :: rest)

/-- What broadcasting takes. -/
def broadcastGrammar : Grammar :=
  grammarOf "broadcast" [.payload, .workers] (.value "message_type")

theorem unflagged_ofNat (n : Nat) : Unflagged (Text.ofNat n) := by
  obtain ⟨p, r, he, hp⟩ := Json.ofNat_eq_cons n
  rw [Unflagged, he]
  simpa using Json.ne_of_isDecimal hp (q := .char '-') (by decide)

theorem workers_ofNat {n : Nat} (hpos : 0 < n) (h : (Text.ofNat n).length ≤ Text.digitLimit) :
    workers (Text.ofNat n) = .ok (.parallel n hpos) := by
  unfold workers
  rw [Text.readInteger_ofNat h]
  simp [Delivery.parallel?, hpos]

/-- A draft of a broadcast with a choice made. -/
def BroadcastDraft.choose (d : BroadcastDraft) : Manner → BroadcastDraft
  | .payload document => { d with payload := document }
  | .workers count positive => { d with delivery := .value (.parallel count positive) }

theorem BroadcastDraft.choose_all (d : BroadcastDraft) (ms : List Manner) :
    ms.foldl BroadcastDraft.choose d =
      { d with
        payload := (ms.filterMap Manner.document?).getLast?.getD d.payload
        delivery := ((ms.filterMap Manner.delivery?).getLast?.map .value).getD d.delivery } := by
  induction ms using List.reverseRecOn with
  | nil => rfl
  | append_singleton ms m ih =>
    rw [List.foldl_append, ih]
    cases m <;> simp [choose, Manner.document?, Manner.delivery?]

namespace Mannered

variable {ms : List Manner} {tokens rest : List Text} {isOpen : Bool} {steps : List Step}

theorem payload_token (t : Text) :
    ("--payload=" : Text) ++ t = ("--payload" : Text) ++ .char '=' :: t := rfl

theorem ne_separator_of_payload (t : Text) : ("--payload=" : Text) ++ t ≠ "--" := by
  refine Choice.ne_separator_of_length ?_
  rw [List.length_append]
  exact Nat.le_add_right_of_le (by decide)

theorem head?_ne_separator (h : Mannered ms tokens) : tokens.head? ≠ some ("--" : Text) := by
  cases h with
  | nil => nofun
  | payload _ _ => exact fun e => ne_separator_of_payload _ (Option.some.inj e)
  | workers _ _ _ => exact fun e => absurd (Option.some.inj e) (by decide)

/-- To the grammar of all commands the options of broadcasting are foreign. -/
theorem classified (h : Mannered ms tokens) :
    ∀ u ∈ tokens, u ≠ "--" ∧ ∃ k, global.classify u = .ok k := by
  induction h with
  | nil => exact List.forall_mem_nil _
  | payload _ _ ih =>
    refine List.forall_mem_cons.mpr ⟨⟨ne_separator_of_payload _, ?_⟩, ih⟩
    rw [payload_token]
    exact ⟨_, (Grammar.classify_foreign Choice.global_spellings rfl (by decide)
      (by decide +kernel)).2 _⟩
  | workers _ _ _ ih =>
    refine List.forall_mem_cons.mpr ⟨⟨by decide, ?_⟩, List.forall_mem_cons.mpr
      ⟨⟨(unflagged_ofNat _).ne_separator, ?_⟩, ih⟩⟩
    · exact ⟨_, (Grammar.classify_foreign Choice.global_spellings rfl (by decide)
        (by decide +kernel)).1⟩
    · exact ⟨_, Grammar.classify_unflagged _ (unflagged_ofNat _)⟩

theorem reads (h : Mannered ms tokens) (hr : broadcastGrammar.Reads isOpen rest steps) :
    ∃ all, broadcastGrammar.Reads isOpen (tokens ++ rest) all ∧ ∀ r,
      broadcastGrammar.follow (takeBroadcast broadcastGrammar) r all =
        broadcastGrammar.follow (takeBroadcast broadcastGrammar)
          { r with result := ms.foldl BroadcastDraft.choose r.result } steps := by
  have hno : ∀ s ∈ broadcastGrammar.spellings, .char '=' ∉ s.text := by decide +kernel
  induction h with
  | nil => exact ⟨steps, hr, fun _ => rfl⟩
  | @payload t document ms rest' ht _ ih =>
    obtain ⟨all, hall, hfollow⟩ := ih
    have hlong : isLong "--payload" = true := rfl
    have hfit : broadcastGrammar.fitting "--payload" = [⟨"--payload", .payload⟩] := by
      decide +kernel
    have hclass : broadcastGrammar.classify ("--payload=" ++ t) =
        .ok (.flag .payload false (some t)) :=
      (Grammar.classify_fitting hno hlong (by decide) hfit rfl).2 t
    have hv : t ≠ "--" := by
      rintro rfl
      cases ht
    have hf : Flag.payload.arity ≠ .none := nofun
    refine ⟨_, .attached hf (ne_separator_of_payload t) hclass hv hall, fun r => ?_⟩
    rw [Grammar.follow_flag hf (by rw [takeBroadcast, ht]; rfl)]
    exact hfollow _
  | @workers count ms rest' hpos hlen _ ih =>
    obtain ⟨all, hall, hfollow⟩ := ih
    have hclass : broadcastGrammar.classify "--parallel" = .ok (.flag .workers false none) := by
      decide +kernel
    have hf : Flag.workers.arity ≠ .none := nofun
    refine ⟨_, .next hf (by decide) hclass (unflagged_ofNat count) hall, fun r => ?_⟩
    rw [Grammar.follow_flag hf (by rw [takeBroadcast, workers_ofNat hpos hlen]; rfl)]
    exact hfollow _

end Mannered

/-- A command is written with what it takes. The options of broadcasting stand on either side of the
type of the message. -/
inductive Commanded : Command → List Text → Prop
  | scale (h : (Text.ofNat n).length ≤ Text.digitLimit) :
      Commanded (.scale n) ["scale", Text.ofNat n]
  | balance (h : Unflagged name) : Commanded (.balance name) ["balance", name]
  | broadcast (hb : Mannered before bs) (ht : Unflagged type) (ha : Mannered after as) :
      Commanded (.broadcast
          ⟨type, ((before ++ after).filterMap Manner.document?).getLast?.getD .null⟩
          (.value (((before ++ after).filterMap Manner.delivery?).getLast?.getD .sequential)))
        ("broadcast" :: (bs ++ type :: as))
  | list : Commanded .list ["list"]

theorem readOne_value {command title v : Text} {convert : Text → Except Fault α} {a : α}
    (hv : Unflagged v) (hc : convert v = .ok a) :
    readOne command title convert [v] = .ok ⟨a, []⟩ := by
  have hsteps : (grammarOf command [] (.value title)).steps [v] = [.positional [v]] :=
    Grammar.Reads.steps_eq (.value rfl hv nofun .nil)
  unfold readOne
  dsimp only
  rw [hsteps, Grammar.follow_positional (by rw [takeOne, hc]; rfl)]
  rfl

theorem agentCount_ofNat {n : Nat} (h : (Text.ofNat n).length ≤ Text.digitLimit) :
    agentCount (Text.ofNat n) = .ok n := by
  unfold agentCount
  rw [Text.readInteger_ofNat h]

theorem readBroadcast_written {before after : List Manner} {bs as : List Text} {type : Text}
    (hb : Mannered before bs) (ht : Unflagged type) (ha : Mannered after as) :
    readBroadcast (bs ++ type :: as) = .ok ⟨.broadcast
      ⟨type, ((before ++ after).filterMap Manner.document?).getLast?.getD .null⟩
      (.value (((before ++ after).filterMap Manner.delivery?).getLast?.getD .sequential)), []⟩ := by
  have hnil : broadcastGrammar.Reads false [] [] := .nil
  obtain ⟨behind, hbehind, hafter⟩ := ha.reads hnil
  rw [List.append_nil] at hbehind
  obtain ⟨all, hall, hbefore⟩ := hb.reads (.value rfl ht ha.head?_ne_separator hbehind)
  have hsteps : broadcastGrammar.steps (bs ++ type :: as) = all := hall.steps_eq
  have htyped : ∀ d : BroadcastDraft,
      { before.foldl BroadcastDraft.choose d with type := some type } =
        before.foldl BroadcastDraft.choose { d with type := some type } := by
    intro d
    rw [BroadcastDraft.choose_all, BroadcastDraft.choose_all]
  have hfollow : broadcastGrammar.follow (takeBroadcast broadcastGrammar)
      ⟨⟨none, .null, .value .sequential⟩, []⟩ (broadcastGrammar.steps (bs ++ type :: as)) =
        .ok ⟨(before ++ after).foldl BroadcastDraft.choose
          ⟨some type, .null, .value .sequential⟩, []⟩ := by
    rw [hsteps, hbefore, Grammar.follow_positional rfl, hafter, Grammar.follow,
      List.foldl_append, htyped]
  have hgrammar : grammarOf "broadcast" [.payload, .workers] (.value "message_type") =
      broadcastGrammar := rfl
  unfold readBroadcast
  dsimp only
  rw [hgrammar, hfollow, BroadcastDraft.choose_all]
  dsimp only
  rw [Option.getD_map]
  rfl

theorem Commanded.readCommand {command : Command} {tail : List Text} (h : Commanded command tail) :
    readCommand tail = .ok ⟨command, []⟩ := by
  cases h with
  | scale h =>
    have hcount : agentCount (Text.ofNat _) = .ok _ := agentCount_ofNat h
    rw [CommandLine.readCommand, if_pos rfl, readOne_value (unflagged_ofNat _) hcount]
    rfl
  | balance h =>
    rw [CommandLine.readCommand, if_neg (by decide), if_pos rfl, readOne_value h rfl]
    rfl
  | broadcast hb ht ha =>
    rw [CommandLine.readCommand, if_neg (by decide), if_neg (by decide), if_pos rfl]
    exact readBroadcast_written hb ht ha
  | list => rfl

/-- A command and all that follows it is one step to the grammar of all commands. -/
theorem Commanded.reads {command : Command} {tail : List Text} (h : Commanded command tail) :
    global.Reads true tail [.positional tail] := by
  have hvalue : ∀ v : Text, Unflagged v → v ≠ "--" ∧ ∃ k, global.classify v = .ok k :=
    fun v hv => ⟨hv.ne_separator, _, global.classify_unflagged hv⟩
  cases h with
  | scale h =>
    exact .everything rfl (by decide) (List.forall_mem_singleton.mpr (hvalue _ (unflagged_ofNat _)))
  | balance h => exact .everything rfl (by decide) (List.forall_mem_singleton.mpr (hvalue _ h))
  | broadcast hb ht ha =>
    refine .everything rfl (by decide) fun u hu => ?_
    rcases List.mem_append.mp hu with hu | hu
    · exact hb.classified u hu
    · rcases List.mem_cons.mp hu with rfl | hu
      · exact hvalue u ht
      · exact ha.classified u hu
  | list => exact .everything rfl (by decide) (List.forall_mem_nil _)

end CommandLine

end AgentFleet
