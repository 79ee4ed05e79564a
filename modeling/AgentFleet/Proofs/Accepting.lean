import AgentFleet.Proofs.Misusing
import AgentFleet.Proofs.Scanning

namespace AgentFleet.CommandLine
open AgentFleet.Action AgentFleet.Command Cloud

/-- What comes with the flag, if the step is that flag. -/
def Step.valueOf? (f : Flag) : Step → Option (Option Text)
  | .flag other value => if other = f then some value else none
  | _ => none

/-- The last that comes with a flag. A flag may come without a value. -/
def lastValue? (f : Flag) (steps : List Step) : Option (Option Text) :=
  (steps.filterMap (·.valueOf? f)).getLast?

theorem lastValue?_cons (f : Flag) (step : Step) (steps : List Step) :
    lastValue? f (step :: steps) = (lastValue? f steps).or (step.valueOf? f) := by
  unfold lastValue?
  cases h : step.valueOf? f with
  | none => rw [List.filterMap_cons_none h, Option.or_none]
  | some v =>
    rw [List.filterMap_cons_some h, List.getLast?_cons]
    cases (steps.filterMap (·.valueOf? f)).getLast? <;> rfl

theorem flag_of_lastValue? {f : Flag} {value : Option Text} {steps : List Step}
    (h : lastValue? f steps = some value) : .flag f value ∈ steps := by
  obtain ⟨step, hs, hv⟩ := List.mem_filterMap.mp (List.mem_of_getLast? h)
  unfold Step.valueOf? at hv
  split at hv
  · split at hv
    · rename_i hf
      cases hv
      rwa [← hf]
    · cases hv
  · cases hv

/-- A flag that comes has a last value. -/
theorem lastValue?_ne_none {f : Flag} {value : Option Text} {steps : List Step}
    (h : .flag f value ∈ steps) : lastValue? f steps ≠ none := by
  have hvalue : Step.valueOf? f (.flag f value) = some value := if_pos rfl
  have hm : value ∈ steps.filterMap (·.valueOf? f) := List.mem_filterMap.mpr ⟨_, h, hvalue⟩
  unfold lastValue?
  rw [ne_eq, List.getLast?_eq_none_iff]
  exact List.ne_nil_of_mem hm

/-- What is meant by the last that comes with a flag: `absent` if it does not come, `bare` if it
comes without a value, and else what the value is converted to. -/
inductive Meant (absent bare : α) (convert : Text → Except Fault α) :
    Option (Option Text) → α → Prop
  | absent : Meant absent bare convert none absent
  | bare : Meant absent bare convert (some none) bare
  | value {v : Text} {a : α} (h : convert v = .ok a) : Meant absent bare convert (some (some v)) a

theorem Meant.or {absent bare a b : α} {convert : Text → Except Fault α}
    {last first : Option (Option Text)} (h : Meant absent bare convert first a)
    (h' : Meant a bare convert last b) : Meant absent bare convert (last.or first) b := by
  cases h' with
  | absent => exact h
  | bare => exact .bare
  | value h' => exact .value h'

/-- No help is asked for, and nothing is broken. -/
inductive Step.Goes : Step → Prop
  | flag {f : Flag} {value : Option Text} (h : f ≠ .help) : Goes (.flag f value)
  | positional {values : List Text} : Goes (.positional values)
  | extra {token : Text} : Goes (.extra token)

namespace Grammar

variable {g : Grammar} {σ : Type} {take : σ → Step → Except Exit σ} {s s' : σ} {step : Step}
  {steps : List Step}

/-- A first step that is followed is taken. -/
theorem follow_cons_ok (h : g.follow take s (step :: steps) = .ok s') :
    step.Goes ∧ ∃ next, take s step = .ok next ∧ g.follow take next steps = .ok s' := by
  unfold follow at h
  split at h
  · rename_i hnil
    cases hnil
  · cases h
  · cases h
  · rename_i hbroken hhelp hcons
    cases hcons
    split at h
    · rename_i next htake
      refine ⟨?_, next, htake, h⟩
      cases step with
      | flag f value =>
        refine .flag ?_
        rintro rfl
        exact hhelp value rfl
      | positional values => exact .positional
      | extra token => exact .extra
      | broken p => exact (hbroken p rfl).elim
    · cases h

/-- What holds of the end, and from each step back to the step before, holds of all that is
followed. -/
theorem follow_induct {T : σ → List Step → Prop} (hnil : T s' [])
    (hcons : ∀ s step next rest, step.Goes → take s step = .ok next → T next rest →
      T s (step :: rest))
    (h : g.follow take s steps = .ok s') : T s steps := by
  induction steps generalizing s with
  | nil =>
    cases h
    exact hnil
  | cons step rest ih =>
    obtain ⟨hgoes, next, htake, h⟩ := follow_cons_ok h
    exact hcons s step next rest hgoes htake (ih h)

theorem follow_goes (h : g.follow take s steps = .ok s') : ∀ step ∈ steps, step.Goes :=
  follow_induct (T := fun _ steps => ∀ step ∈ steps, step.Goes) (List.forall_mem_nil _)
    (fun _ _ _ _ hgoes _ hrest => List.forall_mem_cons.mpr ⟨hgoes, hrest⟩) h

/-- A value is accepted only if it is one. -/
theorem accept_eq_ok {title : Text} {x : Except Fault α} {a : α} (h : g.accept title x = .ok a) :
    x = .ok a := by
  cases x with
  | ok b =>
    cases h
    rfl
  | error f =>
    unfold accept at h
    dsimp only at h
    split at h
    · cases h
    · cases h

end Grammar

section Saying

variable {step : Step} {steps : List Step}

/-- Of what was there and of extra tokens all is kept. -/
def Kept (before after : List Text) (steps : List Step) : Prop :=
  ∀ t, t ∈ before ∨ .extra t ∈ steps → t ∈ after

/-- What is there was there before, or is made of a positional argument. -/
def Placed (P : List Text → α → Prop) (before after : Option α) (steps : List Step) : Prop :=
  ∀ a, after = some a → before = some a ∨ ∃ values, .positional values ∈ steps ∧ P values a

theorem Kept.cons {before next after : List Text} (h : Kept before next [step])
    (h' : Kept next after steps) : Kept before after (step :: steps) := by
  intro t ht
  rcases ht with ht | ht
  · exact h' t (.inl (h t (.inl ht)))
  · rcases List.mem_cons.mp ht with ht | ht
    · exact h' t (.inl (h t (.inr (List.mem_singleton.mpr ht))))
    · exact h' t (.inr ht)

theorem Kept.nil (before : List Text) : Kept before before [] := by
  rintro t (ht | ht)
  · exact ht
  · cases ht

theorem Kept.extra (before : List Text) (token : Text) :
    Kept before (before ++ [token]) [.extra token] := by
  intro t ht
  simpa using ht

theorem Kept.other (before : List Text) (h : ∀ token, step ≠ .extra token) :
    Kept before before [step] := by
  rintro t (ht | ht)
  · exact ht
  · exact (h t (List.mem_singleton.mp ht).symm).elim

theorem Placed.cons {P : List Text → α → Prop} {before next after : Option α}
    (h : Placed P before next [step]) (h' : Placed P next after steps) :
    Placed P before after (step :: steps) := by
  intro a ha
  rcases h' a ha with ha | ⟨values, hv, hp⟩
  · refine (h a ha).imp_right ?_
    rintro ⟨values, hv, hp⟩
    exact ⟨values, List.mem_cons.mpr (.inl (List.mem_singleton.mp hv)), hp⟩
  · exact .inr ⟨values, List.mem_cons_of_mem _ hv, hp⟩

theorem Placed.positional {P : List Text → α → Prop} {values : List Text} {a : α}
    (h : P values a) (before : Option α) : Placed P before (some a) [.positional values] := by
  rintro b ⟨⟩
  exact .inr ⟨values, List.mem_cons_self, h⟩

theorem Placed.other (P : List Text → α → Prop) (before : Option α) (steps : List Step) :
    Placed P before before steps :=
  fun _ ha => .inl ha

theorem Meant.cons {absent next bare a : α} {convert : Text → Except Fault α} {f : Flag}
    (h : Meant absent bare convert (lastValue? f [step]) next)
    (h' : Meant next bare convert (lastValue? f steps) a) :
    Meant absent bare convert (lastValue? f (step :: steps)) a := by
  rw [lastValue?_cons] at h ⊢
  exact h.or h'

end Saying

/-- From `r` to `r'` a value was taken. -/
structure Reading.One (convert : Text → Except Fault α) (r r' : Reading (Option α))
    (steps : List Step) : Prop where
  result : Placed (fun values a => ∃ v ∈ values.head?, convert v = .ok a) r.result r'.result steps
  extras : Kept r.extras r'.extras steps

theorem takeOne_one {g : Grammar} {title : Text} {convert : Text → Except Fault α}
    {r next : Reading (Option α)} {step : Step} (h : takeOne g title convert r step = .ok next) :
    r.One convert next [step] := by
  unfold takeOne at h
  split at h
  · obtain ⟨a, ha, rfl⟩ := except_map_eq_ok.mp h
    exact ⟨.positional ⟨_, rfl, Grammar.accept_eq_ok ha⟩ _, .other _ nofun⟩
  · cases h
    exact ⟨.other _ _ _, .extra _ _⟩
  · rename_i _ hextra
    cases h
    exact ⟨.other _ _ _, .other _ hextra⟩

theorem follow_one {g : Grammar} {title : Text} {convert : Text → Except Fault α}
    {r r' : Reading (Option α)} {steps : List Step}
    (h : g.follow (takeOne g title convert) r steps = .ok r') : r.One convert r' steps :=
  Grammar.follow_induct (T := fun r steps => r.One convert r' steps)
    ⟨.other _ _ _, .nil _⟩
    (fun _ _ _ _ _ htake hrest =>
      have hone := takeOne_one htake
      ⟨hone.result.cons hrest.result, hone.extras.cons hrest.extras⟩) h

/-- From `r` to `r'` a broadcast was told of. -/
structure Reading.Broadcast (r r' : Reading BroadcastDraft) (steps : List Step) : Prop where
  type : Placed (fun values t => values.head? = some t) r.result.type r'.result.type steps
  payload : Meant r.result.payload (.array []) payload (lastValue? .payload steps) r'.result.payload
  delivery : Meant r.result.delivery .nothing (fun v => (workers v).map .value)
    (lastValue? .workers steps) r'.result.delivery
  extras : Kept r.extras r'.extras steps

theorem takeBroadcast_broadcast {g : Grammar} {r next : Reading BroadcastDraft} {step : Step}
    (h : takeBroadcast g r step = .ok next) : r.Broadcast next [step] := by
  cases step with
  | positional values =>
    cases values with
    | nil =>
      cases h
      exact ⟨.other _ _ _, .absent, .absent, .other _ nofun⟩
    | cons v more =>
      cases h
      exact ⟨.positional (List.head?_cons) _, .absent, .absent, .other _ nofun⟩
  | extra token =>
    cases h
    exact ⟨.other _ _ _, .absent, .absent, .extra _ _⟩
  | broken p =>
    cases h
    exact ⟨.other _ _ _, .absent, .absent, .other _ nofun⟩
  | flag f value =>
    cases f with
    | payload =>
      cases value with
      | none =>
        cases h
        exact ⟨.other _ _ _, .bare, .absent, .other _ nofun⟩
      | some v =>
        obtain ⟨document, hv, rfl⟩ := except_map_eq_ok.mp h
        exact ⟨.other _ _ _, .value (Grammar.accept_eq_ok hv), .absent, .other _ nofun⟩
    | workers =>
      cases value with
      | none =>
        cases h
        exact ⟨.other _ _ _, .absent, .bare, .other _ nofun⟩
      | some v =>
        obtain ⟨d, hv, rfl⟩ := except_map_eq_ok.mp h
        refine ⟨.other _ _ _, .absent, .value ?_, .other _ nofun⟩
        rw [Grammar.accept_eq_ok hv]
        rfl
    | help | settings | agentsFile | level =>
      cases h
      exact ⟨.other _ _ _, .absent, .absent, .other _ nofun⟩

theorem follow_broadcast {g : Grammar} {r r' : Reading BroadcastDraft} {steps : List Step}
    (h : g.follow (takeBroadcast g) r steps = .ok r') : r.Broadcast r' steps :=
  Grammar.follow_induct (T := fun r steps => r.Broadcast r' steps)
    ⟨.other _ _ _, .absent, .absent, .nil _⟩
    (fun _ _ _ _ _ htake hrest =>
      have hfirst := takeBroadcast_broadcast htake
      ⟨hfirst.type.cons hrest.type, hfirst.payload.cons hrest.payload,
        hfirst.delivery.cons hrest.delivery, hfirst.extras.cons hrest.extras⟩) h

theorem follow_nothing {g : Grammar} {r r' : Reading α} {steps : List Step}
    (h : g.follow takeNothing r steps = .ok r') :
    r'.result = r.result ∧ Kept r.extras r'.extras steps := by
  refine Grammar.follow_induct
    (T := fun (r : Reading α) steps => r'.result = r.result ∧ Kept r.extras r'.extras steps)
    ⟨rfl, .nil _⟩ (fun r step next rest _ htake hrest => ?_) h
  unfold takeNothing at htake
  split at htake
  · cases htake
    exact ⟨hrest.1, .cons (.extra _ _) hrest.2⟩
  · rename_i hextra
    cases htake
    exact ⟨hrest.1, .cons (.other _ hextra) hrest.2⟩

/-- What the arguments of a command are read by. -/
def grammarFor : Command → Grammar
  | .scale _ => grammarOf "scale" [] (.value "count")
  | .balance _ => grammarOf "balance" [] (.value "name")
  | .broadcast .. => broadcastGrammar
  | .list => grammarOf "list" [] .nothing

/-- Steps that order a command. The type and the document of a message, the number of agents and
that of workers are what the texts are converted to. -/
inductive Orders (steps : List Step) : Command → Prop
  | scale {values : List Text} {v : Text} {n : Nat} (hp : .positional values ∈ steps)
      (hv : values.head? = some v) (hn : agentCount v = .ok n) : Orders steps (.scale n)
  | balance {values : List Text} {name : Text} (hp : .positional values ∈ steps)
      (hv : values.head? = some name) : Orders steps (.balance name)
  | broadcast {values : List Text} {m : Message} {d : Given Delivery}
      (hp : .positional values ∈ steps) (hv : values.head? = some m.type)
      (hm : Meant .null (.array []) payload (lastValue? .payload steps) m.payload)
      (hd : Meant (.value .sequential) .nothing (fun v => (workers v).map .value)
        (lastValue? .workers steps) d) : Orders steps (.broadcast m d)
  | list : Orders steps .list

/-- All steps are done that arguments say to a grammar. -/
structure Done (g : Grammar) (arguments : List Text) : Prop where
  goes : ∀ step ∈ g.steps arguments, step.Goes
  extras : ∀ t, .extra t ∉ g.steps arguments

theorem Done.unbroken {g : Grammar} {arguments : List Text} (h : Done g arguments) (p : Problem) :
    .broken p ∉ g.steps arguments :=
  fun hp => nomatch h.goes _ hp

theorem Done.of_follow {g : Grammar} {σ : Type} {take : σ → Step → Except Exit σ} {s s' : σ}
    {arguments before after : List Text} (h : g.follow take s (g.steps arguments) = .ok s')
    (hk : Kept before after (g.steps arguments)) (ha : after = []) : Done g arguments := by
  refine ⟨Grammar.follow_goes h, fun t ht => ?_⟩
  have hm := hk t (.inr ht)
  rw [ha] at hm
  cases hm

theorem readOne_ok {command title : Text} {convert : Text → Except Fault α}
    {arguments : List Text} {r : Reading α} (h : readOne command title convert arguments = .ok r)
    (hr : r.extras = []) : Done (grammarOf command [] (.value title)) arguments ∧
      ∃ values v, .positional values ∈ (grammarOf command [] (.value title)).steps arguments ∧
        values.head? = some v ∧ convert v = .ok r.result := by
  obtain ⟨r', hfollow, h⟩ := except_bind_eq_ok.mp h
  have hone := follow_one hfollow
  split at h
  · rename_i a ha
    cases h
    rcases hone.result a ha with hnone | ⟨values, hp, v, hv, hconvert⟩
    · cases hnone
    · exact ⟨.of_follow hfollow hone.extras hr, values, v, hp, hv, hconvert⟩
  · cases h

theorem readBroadcast_ok {arguments : List Text} {r : Reading Command}
    (h : readBroadcast arguments = .ok r) (hr : r.extras = []) :
    Done broadcastGrammar arguments ∧ ∃ m d, r.result = .broadcast m d ∧
      Orders (broadcastGrammar.steps arguments) (.broadcast m d) := by
  obtain ⟨r', hfollow, h⟩ := except_bind_eq_ok.mp h
  have htold := follow_broadcast hfollow
  split at h
  · rename_i t ht
    cases h
    rcases htold.type t ht with hnone | ⟨values, hp, hv⟩
    · cases hnone
    · exact ⟨.of_follow hfollow htold.extras hr, _, _, rfl, .broadcast hp hv htold.payload
        htold.delivery⟩
  · cases h

/-- A command is read from its name and what tells of it. -/
theorem readCommand_ok {values : List Text} {r : Reading Command} (h : readCommand values = .ok r)
    (hr : r.extras = []) : ∃ tail, values = (r.result.name : Text) :: tail ∧
      Done (grammarFor r.result) tail ∧ Orders ((grammarFor r.result).steps tail) r.result := by
  cases values with
  | nil => cases h
  | cons name tail =>
    unfold readCommand at h
    dsimp only at h
    split at h
    · rename_i hname
      subst hname
      obtain ⟨n, hn, rfl⟩ := except_map_eq_ok.mp h
      obtain ⟨hdone, values, v, hp, hv, hcount⟩ := readOne_ok hn hr
      exact ⟨tail, rfl, hdone, .scale hp hv hcount⟩
    split at h
    · rename_i hname
      subst hname
      obtain ⟨n, hn, rfl⟩ := except_map_eq_ok.mp h
      obtain ⟨hdone, values, v, hp, hv, hname⟩ := readOne_ok hn hr
      cases hname
      exact ⟨tail, rfl, hdone, .balance hp hv⟩
    split at h
    · rename_i hname
      subst hname
      obtain ⟨hdone, m, d, hd, htells⟩ := readBroadcast_ok h hr
      rw [hd]
      exact ⟨tail, rfl, hdone, htells⟩
    split at h
    · rename_i hname
      subst hname
      obtain ⟨hresult, hkept⟩ := follow_nothing h
      rw [hresult]
      exact ⟨tail, rfl, .of_follow h hkept hr, .list⟩
    · cases h

/-- From `d` to `d'` a command line was told of. -/
structure Draft.Line (d d' : Draft) (steps : List Step) : Prop where
  settingsFile : Meant d.settingsFile (some .nothing) (fun v => .ok (some (.value v)))
    (lastValue? .settings steps) d'.settingsFile
  agentsFile : Meant d.agentsFile .nothing (fun v => .ok (.value v))
    (lastValue? .agentsFile steps) d'.agentsFile
  level : Meant d.level .info logLevel (lastValue? .level steps) d'.level
  command : Placed (fun values r => readCommand values = .ok r) d.command d'.command steps
  extras : Kept d.extras d'.extras steps

theorem Draft.take_line {d next : Draft} {step : Step} (h : d.take step = .ok next) :
    d.Line next [step] := by
  cases step with
  | positional values =>
    obtain ⟨r, hr, rfl⟩ := except_map_eq_ok.mp h
    exact ⟨.absent, .absent, .absent, .positional hr _, .other _ nofun⟩
  | extra token =>
    cases h
    exact ⟨.absent, .absent, .absent, .other _ _ _, .extra _ _⟩
  | broken p =>
    cases h
    exact ⟨.absent, .absent, .absent, .other _ _ _, .other _ nofun⟩
  | flag f value =>
    cases f with
    | settings =>
      cases value with
      | none =>
        cases h
        exact ⟨.bare, .absent, .absent, .other _ _ _, .other _ nofun⟩
      | some v =>
        cases h
        exact ⟨.value rfl, .absent, .absent, .other _ _ _, .other _ nofun⟩
    | agentsFile =>
      cases value with
      | none =>
        cases h
        exact ⟨.absent, .bare, .absent, .other _ _ _, .other _ nofun⟩
      | some v =>
        cases h
        exact ⟨.absent, .value rfl, .absent, .other _ _ _, .other _ nofun⟩
    | level =>
      cases value with
      | none =>
        cases h
        exact ⟨.absent, .absent, .bare, .other _ _ _, .other _ nofun⟩
      | some v =>
        obtain ⟨l, hv, rfl⟩ := except_map_eq_ok.mp h
        exact ⟨.absent, .absent, .value (Grammar.accept_eq_ok hv), .other _ _ _, .other _ nofun⟩
    | help | payload | workers =>
      cases h
      exact ⟨.absent, .absent, .absent, .other _ _ _, .other _ nofun⟩

theorem Draft.follow_line {g : Grammar} {d d' : Draft} {steps : List Step}
    (h : g.follow Draft.take d steps = .ok d') : d.Line d' steps :=
  Grammar.follow_induct (T := fun (d : Draft) steps => d.Line d' steps)
    ⟨.absent, .absent, .absent, .other _ _ _, .nil _⟩
    (fun _ _ _ _ _ htake hrest =>
      have hfirst := Draft.take_line htake
      ⟨hfirst.settingsFile.cons hrest.settingsFile, hfirst.agentsFile.cons hrest.agentsFile,
        hfirst.level.cons hrest.level, hfirst.command.cons hrest.command,
        hfirst.extras.cons hrest.extras⟩) h

/-- What a command line says that is carried out: the last that comes with each flag counts, nothing
is passed over, and a command is named and ordered at the end. -/
structure Accepted (arguments : List Text) (i : Invocation) : Prop where
  settingsFile : Meant none (some .nothing) (fun v => .ok (some (.value v)))
    (lastValue? .settings (global.steps arguments)) i.settingsFile
  agentsFile : Meant (.value Default.agentsFile) .nothing (fun v => .ok (.value v))
    (lastValue? .agentsFile (global.steps arguments)) i.agentsFile
  level : Meant .info .info logLevel (lastValue? .level (global.steps arguments)) i.level
  done : Done global arguments
  command : ∃ tail, .positional ((i.command.name : Text) :: tail) ∈ global.steps arguments ∧
    Done (grammarFor i.command) tail ∧ Orders ((grammarFor i.command).steps tail) i.command

theorem accepted_of_read {arguments : List Text} {i : Invocation} (h : read arguments = .ok i) :
    Accepted arguments i := by
  obtain ⟨d, hfollow, h⟩ := except_bind_eq_ok.mp h
  have hline := Draft.follow_line hfollow
  split at h
  · cases h
  · rename_i r hr
    split at h
    · rename_i hextras
      cases h
      obtain ⟨hd, hextras⟩ := List.append_eq_nil_iff.mp hextras
      rcases hline.command r hr with hnone | ⟨values, hp, hread⟩
      · cases hnone
      · obtain ⟨tail, rfl, hdone, htells⟩ := readCommand_ok hread hextras
        exact ⟨hline.settingsFile, hline.agentsFile, hline.level,
          .of_follow hfollow hline.extras hd, tail, hp, hdone, htells⟩
    · cases h

/-- The name of the flag for workers, and the beginnings of it that are no other's. -/
def workersNames : List Text :=
  ["--par", "--para", "--paral", "--parall", "--paralle", "--parallel"]

/-- A token is a name of the flag for workers, perhaps with a value attached. -/
inductive NamesWorkers : Text → Prop
  | name {start : Text} (h : start ∈ workersNames) : NamesWorkers start
  | attached {start : Text} (h : start ∈ workersNames) (v : Text) :
      NamesWorkers (start ++ .char '=' :: v)

namespace NamesWorkers

variable {t : Text}

theorem names_long : ∀ start ∈ workersNames, isLong start = true ∧ .char '=' ∉ start := by
  decide +kernel

theorem foreign_long (hlong : isLong t = true) (hblank : .char ' ' ∉ t) :
    Grammar.foreign t = .unknown := by
  obtain ⟨r, rfl⟩ := Grammar.exists_cons_cons hlong
  have hnumber : isNegativeNumber (.char '-' :: .char '-' :: r) = false := rfl
  have hcontains : (.char '-' :: .char '-' :: r : Text).contains (.char ' ') = false := by
    simpa using hblank
  rw [Grammar.foreign, hnumber, hcontains]
  rfl

/-- Broadcasting knows the flag. -/
theorem known (h : NamesWorkers t) :
    ∃ attached, broadcastGrammar.classify t = .ok (.flag .workers false attached) := by
  have hno : ∀ s ∈ broadcastGrammar.spellings, .char '=' ∉ s.text := by decide +kernel
  have hfit : ∀ start ∈ workersNames,
      broadcastGrammar.fitting start = [⟨"--parallel", .workers⟩] := by decide +kernel
  cases h with
  | name h =>
    obtain ⟨hlong, heq⟩ := names_long _ h
    exact ⟨_, (Grammar.classify_fitting hno hlong heq (hfit _ h) rfl).1⟩
  | attached h _ =>
    obtain ⟨hlong, heq⟩ := names_long _ h
    exact ⟨_, (Grammar.classify_fitting hno hlong heq (hfit _ h) rfl).2 _⟩

/-- To a grammar that has no flag of such a name it is unknown, or with blanks a word. -/
theorem unknown {g : Grammar} (hno : ∀ s ∈ g.spellings, .char '=' ∉ s.text)
    (hfit : ∀ start ∈ workersNames, g.fitting start = []) (h : NamesWorkers t)
    (hblank : .char ' ' ∉ t) : g.classify t = .ok .unknown := by
  cases h with
  | name h =>
    obtain ⟨hlong, heq⟩ := names_long _ h
    rw [(Grammar.classify_foreign hno hlong heq (hfit _ h)).1, foreign_long hlong hblank]
  | attached h v =>
    obtain ⟨hlong, heq⟩ := names_long _ h
    rw [(Grammar.classify_foreign hno hlong heq (hfit _ h)).2 v,
      foreign_long (Grammar.isLong_attached hlong v) hblank]

theorem unknown_to_help {g : Grammar} (hg : g.flags = [.help]) (h : NamesWorkers t)
    (hblank : .char ' ' ∉ t) : g.classify t = .ok .unknown := by
  have hspellings : g.spellings = [⟨"-h", .help⟩, ⟨"--help", .help⟩] := by
    rw [Grammar.spellings, hg]
    rfl
  refine h.unknown ?_ ?_ hblank
  · rw [hspellings]
    decide +kernel
  · unfold Grammar.fitting
    rw [hspellings]
    decide +kernel

theorem ne_dashes (h : NamesWorkers t) : t ≠ "--" := by
  have hlength : ∀ start ∈ workersNames, 3 ≤ start.length := by decide
  cases h with
  | name h => exact Choice.ne_separator_of_length (hlength _ h)
  | attached h _ =>
    refine Choice.ne_separator_of_length ?_
    rw [List.length_append]
    exact Nat.le_add_right_of_le (hlength _ h)

/-- Where nothing but help is a flag, workers are not asked for in vain. -/
theorem not_done {g : Grammar} {before after : List Text} (h : NamesWorkers t)
    (hblank : .char ' ' ∉ t) (hg : g.flags = [.help])
    (hp : ∀ name, g.positional ≠ .everything name) (hb : ("--" : Text) ∉ before) :
    ¬ Done g (before ++ t :: after) := by
  intro hdone
  have hflagged : Token.unknown.IsFlagged := ⟨nofun, nofun⟩
  cases Grammar.steps_shown hdone.unbroken hp hb h.ne_dashes (h.unknown_to_help hg hblank)
    hflagged with
  | unknown hextra => exact hdone.extras t hextra

end NamesWorkers

theorem workers_ne_sequential (v : Text) : workers v ≠ .ok .sequential := by
  intro h
  unfold workers at h
  split at h
  · cases h
  · split at h
    · rename_i hparallel
      cases h
      unfold Delivery.parallel? at hparallel
      split at hparallel
      · cases hparallel
      · cases hparallel
    · cases h

/-- Who asks for workers has them, or two dashes in their place. -/
theorem Meant.delivery {last : Option (Option Text)} {d : Given Delivery}
    (h : Meant (.value .sequential) .nothing (fun v => (workers v).map .value) last d) :
    (last ≠ none → d ≠ .value .sequential) ∧
      (last ≠ some none → ∃ delivery, d = .value delivery) := by
  cases h with
  | absent => exact ⟨fun hne => (hne rfl).elim, fun _ => ⟨_, rfl⟩⟩
  | bare => exact ⟨nofun, fun hne => (hne rfl).elim⟩
  | @value v _ hv =>
    obtain ⟨delivery, hworkers, rfl⟩ := except_map_eq_ok.mp hv
    refine ⟨?_, fun _ => ⟨_, rfl⟩⟩
    rintro _ ⟨⟩
    exact workers_ne_sequential v hworkers

theorem broadcast_of_name {command : Command} (h : (command.name : Text) = "broadcast") :
    ∃ m d, command = .broadcast m d := by
  cases command with
  | scale _ => exact absurd h (by decide : ("scale" : Text) ≠ "broadcast")
  | balance _ => exact absurd h (by decide : ("balance" : Text) ≠ "broadcast")
  | broadcast m d => exact ⟨m, d, rfl⟩
  | list => exact absurd h (by decide : ("list" : Text) ≠ "broadcast")

namespace Accepted

variable {arguments : List Text} {i : Invocation}

/-- A broadcast that workers are asked for has them, or two dashes in their place. -/
theorem broadcasting (h : Accepted arguments i) {before after : List Text} {t : Text}
    (hp : .positional ("broadcast" :: (before ++ t :: after)) ∈ global.steps arguments)
    (hb : ("--" : Text) ∉ before) (ht : NamesWorkers t) :
    ∃ m d, i.command = .broadcast m d ∧ d ≠ .value .sequential := by
  obtain ⟨tail, hcommand, hdone, horders⟩ := h.command
  obtain ⟨hname, rfl⟩ := List.cons.inj (Grammar.steps_once h.done.unbroken rfl hcommand hp)
  obtain ⟨m, d, hc⟩ := broadcast_of_name hname
  rw [hc] at hdone horders
  obtain ⟨attached, hk⟩ := ht.known
  have hnone : ∀ name, broadcastGrammar.positional ≠ .everything name := fun name he => by
    cases he
  have hflagged : (Token.flag .workers false attached).IsFlagged := ⟨nofun, nofun⟩
  cases Grammar.steps_shown hdone.unbroken hnone hb ht.ne_dashes hk hflagged with
  | flag hflag =>
    cases horders with
    | broadcast _ _ _ hd => exact ⟨m, d, hc, hd.delivery.1 (lastValue?_ne_none hflag)⟩

/-- Whoever asks for workers, and is not refused, broadcasts. -/
theorem asked (h : Accepted arguments i) {before after : List Text} {t : Text}
    (ha : arguments = before ++ t :: after) (hb : ("--" : Text) ∉ before) (ht : NamesWorkers t)
    (hblank : .char ' ' ∉ t) : ∃ m d, i.command = .broadcast m d ∧ d ≠ .value .sequential := by
  subst ha
  obtain ⟨tail, hp, hdone, _⟩ := h.command
  have hglobal : global.classify t = .ok .unknown :=
    ht.unknown Choice.global_spellings (by decide +kernel) hblank
  have hflagged : Token.unknown.IsFlagged := ⟨nofun, nofun⟩
  rcases Grammar.steps_shown_or_left (h.done.unbroken) rfl hb ht.ne_dashes
    hglobal hflagged hp with hshown | ⟨between, rfl, hbetween⟩
  · cases hshown with
    | unknown hextra => exact (h.done.extras t hextra).elim
  · cases hc : i.command with
    | broadcast m d =>
      rw [hc] at hp
      rw [← hc]
      exact h.broadcasting hp hbetween ht
    | scale _ | balance _ | list =>
      rw [hc] at hdone
      refine (ht.not_done hblank rfl ?_ hbetween hdone).elim
      intro name he
      cases he

/-- Where no argument ends in two dashes attached, all is given that is asked for. -/
theorem given (h : Accepted arguments i) (hd : ∀ t ∈ arguments, ¬ EndsDashed t) :
    (∃ path, i.agentsFile = .value path) ∧
      ∀ m d, i.command = .broadcast m d → ∃ delivery, d = .value delivery := by
  have hvalued : ∀ {g tail f}, Done g tail → tail ⊆ arguments → Flag.arity f = .one →
      lastValue? f (g.steps tail) ≠ some none := fun hdone htail hf hnone => by
    obtain ⟨t, ht, hdashed⟩ := Grammar.steps_bare_flag hdone.unbroken hf (flag_of_lastValue? hnone)
    exact hd t (htail ht) hdashed
  constructor
  · have hfile := h.agentsFile
    have hlast := hvalued (f := .agentsFile) h.done (List.Subset.refl _) rfl
    generalize lastValue? .agentsFile (global.steps arguments) = last at hfile hlast
    generalize i.agentsFile = file at hfile ⊢
    cases hfile with
    | absent => exact ⟨_, rfl⟩
    | bare => exact (hlast rfl).elim
    | value hv =>
      cases hv
      exact ⟨_, rfl⟩
  · rintro m d hc
    obtain ⟨tail, hp, hdone, htells⟩ := h.command
    have htail : tail ⊆ arguments := fun t ht =>
      (Grammar.steps_left h.done.unbroken rfl hp).subset
        (List.mem_cons_of_mem _ ht)
    rw [hc] at hdone htells
    cases htells with
    | broadcast _ _ _ hdelivery => exact hdelivery.delivery.2 (hvalued hdone htail rfl)

end Accepted

/-- A command line that is read is carried out as it says, and nothing is passed over. Whoever asks
for workers has them, or has two dashes attached in their place; only that counts for nothing, and
the broadcast is then done as if nobody had asked. A token with blanks asks for them only where the
flag is known, and is a word elsewhere. Where no argument ends in two dashes, agents have a file,
and workers a number. No command scales to a negative number of agents, or has no workers to
broadcast. -/
theorem read_safe {arguments : List Text} {i : Invocation} (h : read arguments = .ok i) :
    Accepted arguments i ∧
    (∀ before t after, ("--" : Text) ∉ before → NamesWorkers t →
      (arguments = before ++ t :: after ∧ .char ' ' ∉ t ∨
        .positional ("broadcast" :: (before ++ t :: after)) ∈ global.steps arguments) →
      ∃ m d, i.command = .broadcast m d ∧ d ≠ .value .sequential) ∧
    ((∀ t ∈ arguments, ¬ EndsDashed t) → (∃ path, i.agentsFile = .value path) ∧
      ∀ m d, i.command = .broadcast m d → ∃ delivery, d = .value delivery) ∧
    (∀ m s, i.command = .broadcast m .nothing →
      i.run s = { i with command := .broadcast m (.value .sequential) }.run s) ∧
    ∀ s f, i.run.outcome s = .error f →
      (∃ n, f.trouble = .misuse (.negativeTarget n)) ∨ f.trouble = .misuse .noWorkers →
      Brought s f := by
  have haccepted := accepted_of_read h
  refine ⟨haccepted, fun _ _ _ hb ht hasked => ?_, haccepted.given, ?_, ?_⟩
  · rcases hasked with ⟨ha, hblank⟩ | hp
    · exact haccepted.asked ha hb ht hblank
    · exact haccepted.broadcasting hp hb ht
  · intro m s hc
    obtain ⟨settingsFile, agentsFile, level, command⟩ := i
    cases hc
    rfl
  · rintro s f hf (⟨n, hm⟩ | hm)
    · exact (Invocation.run_misuse hf hm).resolve_left nofun
    · exact (Invocation.run_misuse hf hm).resolve_left nofun

/-- Two dashes are attached where the file of the agents and the number of workers are to be. -/
def dashed : List Text :=
  ["-a=--", "broadcast", "stop", "--parallel=--"]

def dashedInvocation : Invocation :=
  ⟨none, .nothing, .info, .broadcast ⟨"stop", .null⟩ .nothing⟩

theorem read_dashed : read dashed = .ok dashedInvocation := by
  -- The steps alone are computed. All of `read` at once is too large a term.
  have hglobal : global.steps dashed =
      [.flag .agentsFile none, .positional ["broadcast", "stop", "--parallel=--"]] := by
    decide +kernel
  have hbroadcast : broadcastGrammar.steps ["stop", "--parallel=--"] =
      [.positional ["stop"], .flag .workers none] := by
    decide +kernel
  have hcommand : readCommand ["broadcast", "stop", "--parallel=--"] =
      .ok ⟨.broadcast ⟨"stop", .null⟩ .nothing, []⟩ := by
    rw [readCommand, if_neg (by decide), if_neg (by decide), if_pos rfl]
    have hgrammar : grammarOf "broadcast" [.payload, .workers] (.value "message_type") =
        broadcastGrammar := rfl
    unfold readBroadcast
    dsimp only
    rw [hgrammar, hbroadcast]
    rfl
  have hfile : Flag.agentsFile.arity ≠ .none := by decide
  unfold read
  rw [hglobal, Grammar.follow_flag hfile rfl,
    Grammar.follow_positional (by rw [Draft.take, hcommand]; rfl)]
  rfl

/-- The broadcast is carried out as if nobody had asked for workers. -/
theorem read_safe_dashed : read dashed = .ok dashedInvocation ∧
    Accepted dashed dashedInvocation ∧
    (∃ t ∈ dashed, EndsDashed t) ∧
    ∀ s, dashedInvocation.run s = { dashedInvocation with
      command := .broadcast ⟨"stop", .null⟩ (.value .sequential) }.run s := by
  obtain ⟨haccepted, _, _, hsame, _⟩ := read_safe read_dashed
  refine ⟨read_dashed, haccepted, ⟨"-a=--", by decide, "-a=", by decide, rfl⟩, fun s => ?_⟩
  exact hsame _ s rfl

end AgentFleet.CommandLine
