import AgentFleet.Proofs.CommandLines

namespace AgentFleet.CommandLine

/-- It has the form of a flag. -/
def Token.IsFlagged (k : Token) : Prop :=
  k ≠ .value ∧ k ≠ .separator

/-- Two dashes stand at the end of something. -/
def EndsDashed (t : Text) : Prop :=
  ∃ start, start ≠ [] ∧ t = start ++ ("--" : Text)

/-- A flag shows in steps, and so does what only looks like one. -/
inductive Shown (steps : List Step) : Token → Text → Prop
  | unknown {t : Text} (h : .extra t ∈ steps) : Shown steps .unknown t
  | flag {f : Flag} {value : Option Text} (h : .flag f value ∈ steps) (isShort : Bool)
      (attached : Option Text) (t : Text) : Shown steps (.flag f isShort attached) t

theorem Shown.mono {steps steps' : List Step} {k : Token} {t : Text} (h : Shown steps k t)
    (hs : steps ⊆ steps') : Shown steps' k t := by
  cases h with
  | unknown h => exact .unknown (hs h)
  | flag h isShort attached t => exact .flag (hs h) isShort attached t

namespace Grammar

variable {g : Grammar}

theorem tokens_cons_ok {t : Text} {rest : List Text} {tokens : List (Token × Text)}
    (h : g.tokens (t :: rest) = .ok tokens) :
    t = "--" ∧ tokens = (.separator, t) :: rest.map (.value, ·) ∨
      t ≠ "--" ∧ ∃ k more, g.classify t = .ok k ∧ g.tokens rest = .ok more ∧
        tokens = (k, t) :: more := by
  rw [Grammar.tokens] at h
  split at h
  · rename_i ht
    cases h
    exact .inl ⟨ht, rfl⟩
  · rename_i ht
    obtain ⟨k, hk, h⟩ := except_bind_eq_ok.mp h
    obtain ⟨more, hmore, h⟩ := except_bind_eq_ok.mp h
    cases h
    exact .inr ⟨ht, k, more, hk, hmore, rfl⟩

/-- Each argument is one token. -/
theorem map_tokens {arguments : List Text} {tokens : List (Token × Text)}
    (h : g.tokens arguments = .ok tokens) : tokens.map (·.2) = arguments := by
  induction arguments generalizing tokens with
  | nil =>
    cases h
    rfl
  | cons t rest ih =>
    rcases tokens_cons_ok h with ⟨_, rfl⟩ | ⟨_, k, more, _, hmore, rfl⟩
    · simp [Function.comp_def]
    · rw [List.map_cons, ih hmore]

/-- Flags among tokens have the form of flags. -/
theorem classify_of_mem {arguments : List Text} {tokens : List (Token × Text)}
    (h : g.tokens arguments = .ok tokens) {f : Flag} {isShort : Bool} {attached : Option Text}
    {t : Text} (hm : (.flag f isShort attached, t) ∈ tokens) :
    g.classify t = .ok (.flag f isShort attached) := by
  induction arguments generalizing tokens with
  | nil =>
    cases h
    cases hm
  | cons u rest ih =>
    rcases tokens_cons_ok h with ⟨_, rfl⟩ | ⟨_, k, more, hk, hmore, rfl⟩
    · simp at hm
    · rcases List.mem_cons.mp hm with he | hm
      · cases he
        exact hk
      · exact ih hmore hm

/-- Before two dashes stand alone, every argument is what it has the form of. -/
theorem tokens_split {before after : List Text} {t : Text} {tokens : List (Token × Text)}
    (h : g.tokens (before ++ t :: after) = .ok tokens) (hb : ("--" : Text) ∉ before)
    (ht : t ≠ "--") :
    ∃ ks k as, tokens = ks ++ (k, t) :: as ∧ ks.map (·.2) = before ∧
      (∀ e ∈ ks, e.1 ≠ .separator) ∧ g.classify t = .ok k ∧ as.map (·.2) = after := by
  induction before generalizing tokens with
  | nil =>
    rcases tokens_cons_ok h with ⟨he, _⟩ | ⟨_, k, more, hk, hmore, rfl⟩
    · exact (ht he).elim
    · exact ⟨[], k, more, rfl, rfl, List.forall_mem_nil _, hk, map_tokens hmore⟩
  | cons u before ih =>
    rcases tokens_cons_ok h with ⟨he, _⟩ | ⟨_, k, more, hk, hmore, rfl⟩
    · exact (hb (he ▸ List.mem_cons_self)).elim
    · obtain ⟨ks, k', as, rfl, hks, hsep, hk', has⟩ :=
        ih hmore fun hm => hb (List.mem_cons_of_mem u hm)
      refine ⟨(k, u) :: ks, k', as, rfl, by rw [List.map_cons, hks], ?_, hk', has⟩
      refine List.forall_mem_cons.mpr ⟨?_, hsep⟩
      rintro rfl
      exact g.classify_ne_separator u hk

theorem splitEquals_eq_some {t name value : Text} (h : splitEquals t = some (name, value)) :
    t = name ++ .char '=' :: value := by
  unfold splitEquals at h
  split at h
  · cases h
  · rename_i p r hdrop
    cases h
    have hsplit := List.takeWhile_append_dropWhile (p := (· ≠ Text.Point.char '=')) (l := t)
    have hne : t.dropWhile (· ≠ .char '=') ≠ [] := by
      rw [hdrop]
      nofun
    have hhead := List.head_dropWhile_not (· ≠ Text.Point.char '=') hne
    simp only [hdrop, List.head_cons, decide_eq_false_iff_not, not_not] at hhead
    rw [hdrop, hhead] at hsplit
    exact hsplit.symm

/-- What comes with a spelling comes behind a part of the token. -/
theorem candidates_text {t text : Text} {s : Spelling} (ht : t ≠ [])
    (h : (s, some text) ∈ g.candidates t) : ∃ start, start ≠ [] ∧ t = start ++ text := by
  unfold candidates at h
  split at h
  · split at h
    · rename_i start value hsplit
      obtain ⟨_, _, he⟩ := List.mem_map.mp h
      cases he
      exact ⟨start ++ [.char '='], by simp, by simpa using splitEquals_eq_some hsplit⟩
    · obtain ⟨_, _, he⟩ := List.mem_map.mp h
      cases he
  · obtain ⟨_, _, he⟩ := List.mem_map.mp h
    cases he
    exact ⟨t.take 2, by simpa using ht, (List.take_append_drop 2 t).symm⟩

theorem guess_text {t text : Text} {f : Flag} {isShort : Bool} (ht : t ≠ [])
    (h : g.guess t = .ok (.flag f isShort (some text))) :
    ∃ start, start ≠ [] ∧ t = start ++ text := by
  unfold guess at h
  split at h
  · split at h
    · cases h
    · cases h
  · rename_i s attached hcandidates
    cases h
    exact candidates_text ht (by rw [hcandidates]; exact List.mem_cons_self)
  · cases h

/-- What is attached to a flag comes behind a part of the token. -/
theorem classify_text {t text : Text} {f : Flag} {isShort : Bool}
    (h : g.classify t = .ok (.flag f isShort (some text))) :
    ∃ start, start ≠ [] ∧ t = start ++ text := by
  unfold classify at h
  split at h
  · split at h
    · cases h
    · exact guess_text nofun h
    · rename_i name value _ hsplit
      split at h
      · cases h
        exact ⟨name ++ [.char '='], by simp, by simpa using splitEquals_eq_some hsplit⟩
      · exact guess_text nofun h
  · cases h

section Clusters

variable {f : Flag} {isShort : Bool} {text : Text} {c : Cluster}

/-- A token is one flag with what is attached, or a flag without and the flags behind it. -/
theorem cluster_ok (h : g.cluster f isShort text = .ok c) :
    f.arity ≠ .none ∧ c = ⟨[.flag f (attachedValue text)], none⟩ ∨
      f.arity = .none ∧ ∃ p r next, text = p :: r ∧ (c = ⟨[.flag f none], some next⟩ ∨
        ∃ behind, g.cluster next true r = .ok behind ∧ c = behind.after (.flag f none)) := by
  rw [cluster.eq_def] at h
  dsimp only at h
  split at h
  · rename_i hf
    cases h
    exact .inl ⟨hf, rfl⟩
  · rename_i hf
    rw [ne_eq, not_not] at hf
    split at h
    · split at h
      · split at h
        · cases h
          exact .inr ⟨hf, _, _, _, rfl, .inl rfl⟩
        · obtain ⟨behind, hbehind, rfl⟩ := except_map_eq_ok.mp h
          exact .inr ⟨hf, _, _, _, rfl, .inr ⟨behind, hbehind, rfl⟩⟩
      · cases h
    · cases h

/-- The first flag of a token shows. -/
theorem cluster_first (h : g.cluster f isShort text = .ok c) :
    ∃ value, .flag f value ∈ c.steps := by
  rcases cluster_ok h with ⟨_, rfl⟩ | ⟨_, _, _, _, _, rfl | ⟨_, _, rfl⟩⟩
  · exact ⟨_, List.mem_cons_self⟩
  · exact ⟨_, List.mem_cons_self⟩
  · exact ⟨_, List.mem_cons_self⟩

/-- The steps of a token are flags that take no value, and perhaps one that has the end of the token
attached. -/
theorem forall_cluster {P : Step → Prop} (hnone : ∀ f : Flag, f.arity = .none → P (.flag f none))
    (hattached : ∀ (f : Flag) (start rest : Text), text = start ++ rest →
      P (.flag f (attachedValue rest)))
    (h : g.cluster f isShort text = .ok c) : ∀ step ∈ c.steps, P step := by
  induction text generalizing f isShort c with
  | nil =>
    rcases cluster_ok h with ⟨_, rfl⟩ | ⟨_, _, _, _, hnil, _⟩
    · exact List.forall_mem_singleton.mpr (hattached f [] [] rfl)
    · cases hnil
  | cons p r ih =>
    rcases cluster_ok h with ⟨_, rfl⟩ | ⟨hf, _, _, next, he, rfl | ⟨behind, hbehind, rfl⟩⟩
    · exact List.forall_mem_singleton.mpr (hattached f [] _ rfl)
    · exact List.forall_mem_singleton.mpr (hnone f hf)
    · cases he
      refine List.forall_mem_cons.mpr ⟨hnone f hf, ih (fun f start rest hr => ?_) hbehind⟩
      exact hattached f (p :: start) rest (congrArg _ hr)

theorem clusterOf_flags {attached : Option Text} (h : g.clusterOf f isShort attached = .ok c) :
    ∀ step ∈ c.steps, ∃ f value, step = .flag f value := by
  cases attached with
  | none =>
    cases h
    exact List.forall_mem_nil _
  | some text => exact forall_cluster (fun f _ => ⟨f, none, rfl⟩) (fun f _ _ _ => ⟨f, _, rfl⟩) h

/-- A flag that brings no value, but could, has two dashes attached. -/
theorem clusterOf_bare {attached : Option Text} {bare : Flag}
    (h : g.clusterOf f isShort attached = .ok c) (hb : bare.arity ≠ .none)
    (hm : .flag bare none ∈ c.steps) : ∃ start, attached = some (start ++ ("--" : Text)) := by
  cases attached with
  | none =>
    cases h
    cases hm
  | some text =>
    refine forall_cluster
      (P := fun step => step = .flag bare none → ∃ start, some text = some (start ++ ("--" : Text)))
      ?_ ?_ h _ hm rfl
    · rintro f hf ⟨⟩
      exact (hb hf).elim
    · rintro f start rest rfl he
      obtain ⟨_, hnone⟩ := Step.flag.inj he
      unfold attachedValue at hnone
      split at hnone
      · rename_i hdashes
        exact ⟨start, by rw [hdashes]⟩
      · cases hnone

end Clusters

/-- Tokens that are used together, and the steps they make. -/
inductive Move (g : Grammar) : List (Token × Text) → List Step → Prop
  | value {name : Text} (hg : g.positional = .value name) (s : Text) :
      Move g [(.value, s)] [.positional [s]]
  /-- Two dashes behind the argument belong to it. -/
  | ended {name : Text} (hg : g.positional = .value name) (s dashes : Text) :
      Move g [(.value, s), (.separator, dashes)] [.positional [s]]
  /-- Behind two dashes anything is the argument. -/
  | behind {name : Text} (hg : g.positional = .value name) (dashes : Text) (k : Token) (s : Text) :
      Move g [(.separator, dashes), (k, s)] [.positional [s]]
  | extra (k : Token) (hk : ∀ f isShort attached, k ≠ .flag f isShort attached) (s : Text) :
      Move g [(k, s)] [.extra s]
  | flags {f : Flag} {isShort : Bool} {attached : Option Text} {steps : List Step}
      (h : g.clusterOf f isShort attached = .ok ⟨steps, none⟩) (t : Text) :
      Move g [(.flag f isShort attached, t)] steps
  | bare {f last : Flag} {isShort : Bool} {attached : Option Text} {steps : List Step}
      (h : g.clusterOf f isShort attached = .ok ⟨steps, some last⟩) (hl : last.arity ≠ .one)
      (t : Text) : Move g [(.flag f isShort attached, t)] (steps ++ [.flag last none])
  | next {f last : Flag} {isShort : Bool} {attached : Option Text} {steps : List Step}
      (h : g.clusterOf f isShort attached = .ok ⟨steps, some last⟩) (t v : Text) :
      Move g [(.flag f isShort attached, t), (.value, v)] (steps ++ [.flag last (some v)])

/-- Tokens are used one move after the other, to their end, up to a break, or up to where a grammar
takes all that is left. -/
inductive Moves (g : Grammar) : List (Token × Text) → List Step → Prop
  | done : Moves g [] []
  | broken (p : Problem) (left : List (Token × Text)) : Moves g left [.broken p]
  | all {name : Text} (hg : g.positional = .everything name) {k : Token}
      (hk : k = .value ∨ k = .separator) (s : Text) (left : List (Token × Text)) :
      Moves g ((k, s) :: left) [.positional (s :: left.map (·.2))]
  | move {used left : List (Token × Text)} {made steps : List Step} (h : Move g used made)
      (hleft : Moves g left steps) : Moves g (used ++ left) (made ++ steps)

/-- Scanning makes moves. -/
theorem moves_scan (g : Grammar) (isOpen : Bool) (tokens : List (Token × Text)) :
    Moves g tokens (g.scan isOpen tokens) := by
  fun_induction scan g isOpen tokens with
  | case1 => exact .done
  | case2 s rest name hg => exact .all hg (.inl rfl) s rest
  | case3 s name hg dashes rest ih => exact .move (.ended hg s dashes) ih
  | case4 s name hg rest _ ih => exact .move (.value hg s) ih
  | case5 isOpen s rest _ _ ih => exact .move (.extra .value nofun s) ih
  | case6 s name head tail hg => exact .all hg (.inr rfl) s (head :: tail)
  | case7 s name k v rest hg ih => exact .move (.behind hg s k v) ih
  | case8 isOpen s rest _ _ ih => exact .move (.extra .separator nofun s) ih
  | case9 isOpen s rest ih => exact .move (.extra .unknown nofun s) ih
  | case10 isOpen f isShort attached t rest p h => exact .broken p _
  | case11 isOpen f isShort attached t rest steps h ih => exact .move (.flags h t) ih
  | case12 isOpen f isShort attached t steps last h rest hl ih =>
    rw [List.append_cons]
    exact .move (.bare h (by simp [hl]) t) ih
  | case13 isOpen f isShort attached t steps last h v rest _ ih =>
    rw [List.append_cons]
    exact .move (.next h t v) ih
  | case14 => exact .broken _ _
  | case15 isOpen f isShort attached t steps last h rest _ hl ih =>
    rw [List.append_cons]
    exact .move (.bare h (by simp [hl]) t) ih

section Moving

variable {used left tokens : List (Token × Text)} {made steps : List Step} {k : Token} {t : Text}

theorem shown_of_clusterOf {f : Flag} {isShort : Bool} {attached : Option Text} {c : Cluster}
    (h : g.clusterOf f isShort attached = .ok c) :
    (∃ value, .flag f value ∈ c.steps) ∨ c.pending = some f := by
  cases attached with
  | none =>
    cases h
    exact .inr rfl
  | some text => exact .inl (cluster_first h)

theorem shown_of_pending {f last : Flag} {isShort : Bool} {attached : Option Text}
    (h : g.clusterOf f isShort attached = .ok ⟨steps, some last⟩) (value : Option Text) (t : Text) :
    Shown (steps ++ [.flag last value]) (.flag f isShort attached) t := by
  rcases shown_of_clusterOf h with ⟨_, hv⟩ | hf
  · exact .flag (List.mem_append_left _ hv) _ _ _
  · cases hf
    exact .flag List.mem_concat_self _ _ _

theorem Move.shows (h : Move g used made) (hm : (k, t) ∈ used) (hk : k.IsFlagged) :
    Shown made k t ∨
      (∃ name, g.positional = .value name) ∧ ∃ dashes e, used = [(.separator, dashes), e] := by
  cases h with
  | value _ s =>
    cases List.mem_singleton.mp hm
    exact (hk.1 rfl).elim
  | ended _ s dashes =>
    rcases List.mem_cons.mp hm with he | hm
    · cases he
      exact (hk.1 rfl).elim
    · cases List.mem_singleton.mp hm
      exact (hk.2 rfl).elim
  | behind hg dashes k s => exact .inr ⟨⟨_, hg⟩, _, _, rfl⟩
  | extra k' hk' s =>
    cases List.mem_singleton.mp hm
    cases k with
    | value => exact (hk.1 rfl).elim
    | separator => exact (hk.2 rfl).elim
    | flag f isShort attached => exact (hk' f isShort attached rfl).elim
    | unknown => exact .inl (.unknown List.mem_cons_self)
  | flags h s =>
    cases List.mem_singleton.mp hm
    rcases shown_of_clusterOf h with ⟨_, hv⟩ | hf
    · exact .inl (.flag hv _ _ _)
    · cases hf
  | bare h _ s =>
    cases List.mem_singleton.mp hm
    exact .inl (shown_of_pending h none _)
  | next h s v =>
    rcases List.mem_cons.mp hm with he | hm
    · cases he
      exact .inl (shown_of_pending h (some v) _)
    · cases List.mem_singleton.mp hm
      exact (hk.1 rfl).elim

/-- A token shows that is used behind others, of which none is two dashes. -/
theorem Move.shows_behind {ks more : List (Token × Text)} (h : Move g (ks ++ (k, t) :: more) made)
    (hs : ∀ e ∈ ks, e.1 ≠ .separator) (hk : k.IsFlagged) : Shown made k t := by
  rcases h.shows (List.mem_append_right _ List.mem_cons_self) hk with
    hshown | ⟨_, dashes, e, hused⟩
  · exact hshown
  · cases ks with
    | nil =>
      cases hused
      exact (hk.2 rfl).elim
    | cons first ks =>
      cases (List.cons.inj hused).1
      exact (hs _ List.mem_cons_self rfl).elim

/-- Before two dashes stand alone nothing is passed over, but by a grammar that takes everything. -/
theorem Moves.shows (h : Moves g tokens steps) (hp : ∀ name, g.positional ≠ .everything name)
    (hb : ∀ p, .broken p ∉ steps) {ks as : List (Token × Text)} (ht : tokens = ks ++ (k, t) :: as)
    (hs : ∀ e ∈ ks, e.1 ≠ .separator) (hk : k.IsFlagged) : Shown steps k t := by
  induction h generalizing ks with
  | done => simp at ht
  | broken p left => exact (hb p List.mem_cons_self).elim
  | all hg => exact (hp _ hg).elim
  | @move used left made steps h _ ih =>
    have hleft : ∀ {more}, left = more ++ (k, t) :: as → (∀ e ∈ more, e.1 ≠ .separator) →
        Shown (made ++ steps) k t := fun he hmore =>
      (ih (fun p hm => hb p (List.mem_append_right _ hm)) he hmore).mono
        (List.subset_append_right _ _)
    -- The token is left after the first move, or used in it.
    rcases List.append_eq_append_iff.mp ht with ⟨more, rfl, he⟩ | ⟨more, rfl, he⟩
    · exact hleft he fun e hm => hs e (List.mem_append_right _ hm)
    · cases more with
      | nil => exact @hleft [] he.symm (List.forall_mem_nil _)
      | cons first more =>
        cases (List.cons.inj he).1
        exact (h.shows_behind hs hk).mono (List.subset_append_left _ _)

theorem Move.positional (h : Move g used made) {values : List Text}
    (hv : .positional values ∈ made) : ∃ name, g.positional = .value name := by
  have hflags : ∀ {f isShort attached c}, g.clusterOf f isShort attached = .ok c →
      .positional values ∉ c.steps := fun hc hm => by
    obtain ⟨_, _, he⟩ := clusterOf_flags hc _ hm
    cases he
  cases h with
  | value hg _ => exact ⟨_, hg⟩
  | ended hg _ _ => exact ⟨_, hg⟩
  | behind hg _ _ _ => exact ⟨_, hg⟩
  | extra _ _ _ => cases List.mem_singleton.mp hv
  | flags hc _ => exact (hflags hc hv).elim
  | bare hc _ _ | next hc _ _ =>
    rcases List.mem_append.mp hv with hv | hv
    · exact (hflags hc hv).elim
    · cases List.mem_singleton.mp hv

/-- What a grammar takes that takes everything begins with a value or two dashes. Before it nothing
is passed over. -/
theorem Moves.all_left (h : Moves g tokens steps) {name : Text}
    (hp : g.positional = .everything name) {values : List Text}
    (hv : .positional values ∈ steps) : ∃ said k s left, tokens = said ++ (k, s) :: left ∧
      ¬ k.IsFlagged ∧ values = s :: left.map (·.2) ∧
      ∀ e ∈ said, e.1.IsFlagged → Shown steps e.1 e.2 := by
  induction h with
  | done => cases hv
  | broken p left => cases List.mem_singleton.mp hv
  | @all _ _ k hk s left =>
    cases List.mem_singleton.mp hv
    refine ⟨[], k, s, left, rfl, fun hflagged => ?_, rfl, List.forall_mem_nil _⟩
    exact hk.elim hflagged.1 hflagged.2
  | @move used left made steps h _ ih =>
    rcases List.mem_append.mp hv with hv | hv
    · obtain ⟨_, hvalue⟩ := h.positional hv
      rw [hp] at hvalue
      cases hvalue
    · obtain ⟨said, k, s, behind, rfl, hk, hvalues, hshown⟩ := ih hv
      refine ⟨used ++ said, k, s, behind, by simp, hk, hvalues, fun e he hflagged => ?_⟩
      rcases List.mem_append.mp he with he | he
      · rcases h.shows he hflagged with hmade | ⟨⟨_, hvalue⟩, _⟩
        · exact hmade.mono (List.subset_append_left _ _)
        · rw [hp] at hvalue
          cases hvalue
      · exact (hshown e he hflagged).mono (List.subset_append_right _ _)

/-- What a grammar takes that takes everything it takes once. -/
theorem Moves.all_once (h : Moves g tokens steps) {name : Text}
    (hp : g.positional = .everything name) {values values' : List Text}
    (hv : .positional values ∈ steps) (hv' : .positional values' ∈ steps) : values = values' := by
  induction h with
  | done => cases hv
  | broken p left => cases List.mem_singleton.mp hv
  | all _ _ _ _ =>
    cases List.mem_singleton.mp hv
    cases List.mem_singleton.mp hv'
    rfl
  | @move used left made steps h _ ih =>
    have hleft : ∀ values, .positional values ∈ made ++ steps → .positional values ∈ steps := by
      intro values hm
      rcases List.mem_append.mp hm with hm | hm
      · obtain ⟨_, hvalue⟩ := h.positional hm
        rw [hp] at hvalue
        cases hvalue
      · exact hm
    exact ih (hleft _ hv) (hleft _ hv')

theorem Move.bare_flag {f : Flag} (hf : f.arity = .one) (h : Move g used made)
    (hm : .flag f none ∈ made)
    (hc : ∀ f isShort attached t, (.flag f isShort attached, t) ∈ used →
      g.classify t = .ok (.flag f isShort attached)) : ∃ e ∈ used, EndsDashed e.2 := by
  have hdashes : ∀ {first isShort attached c t}, g.clusterOf first isShort attached = .ok c →
      .flag f none ∈ c.steps → (.flag first isShort attached, t) ∈ used → EndsDashed t := by
    intro first isShort attached c t hcluster hm hused
    obtain ⟨start, rfl⟩ := clusterOf_bare hcluster (by rw [hf]; nofun) hm
    obtain ⟨before, hbefore, rfl⟩ := classify_text (hc _ _ _ _ hused)
    exact ⟨before ++ start, by simp [hbefore], by simp⟩
  cases h with
  | value _ _ => cases List.mem_singleton.mp hm
  | ended _ _ _ => cases List.mem_singleton.mp hm
  | behind _ _ _ _ => cases List.mem_singleton.mp hm
  | extra _ _ _ => cases List.mem_singleton.mp hm
  | flags hcluster t => exact ⟨_, List.mem_cons_self, hdashes hcluster hm List.mem_cons_self⟩
  | bare hcluster hl t =>
    rcases List.mem_append.mp hm with hm | hm
    · exact ⟨_, List.mem_cons_self, hdashes hcluster hm List.mem_cons_self⟩
    · cases List.mem_singleton.mp hm
      exact (hl hf).elim
  | next hcluster t v =>
    rcases List.mem_append.mp hm with hm | hm
    · exact ⟨_, List.mem_cons_self, hdashes hcluster hm List.mem_cons_self⟩
    · cases List.mem_singleton.mp hm

/-- A flag that must have a value comes without one only for a token that ends in two dashes. -/
theorem Moves.bare_flag {f : Flag} (hf : f.arity = .one) (h : Moves g tokens steps)
    (hm : .flag f none ∈ steps)
    (hc : ∀ f isShort attached t, (.flag f isShort attached, t) ∈ tokens →
      g.classify t = .ok (.flag f isShort attached)) : ∃ e ∈ tokens, EndsDashed e.2 := by
  induction h with
  | done => cases hm
  | broken p left => cases List.mem_singleton.mp hm
  | all _ _ _ _ => cases List.mem_singleton.mp hm
  | move h _ ih =>
    rcases List.mem_append.mp hm with hm | hm
    · obtain ⟨e, he, hdashed⟩ := h.bare_flag hf hm fun _ _ _ _ hu =>
        hc _ _ _ _ (List.mem_append_left _ hu)
      exact ⟨e, List.mem_append_left _ he, hdashed⟩
    · obtain ⟨e, he, hdashed⟩ := ih hm fun _ _ _ _ hl => hc _ _ _ _ (List.mem_append_right _ hl)
      exact ⟨e, List.mem_append_right _ he, hdashed⟩

end Moving

section Steps

variable {arguments before after : List Text} {t : Text}

/-- The steps of arguments without a break are made from all their tokens. -/
theorem steps_moves (hb : ∀ p, .broken p ∉ g.steps arguments) : ∃ tokens,
    g.tokens arguments = .ok tokens ∧ Moves g tokens (g.steps arguments) := by
  unfold steps at hb ⊢
  cases ht : g.tokens arguments with
  | error p =>
    rw [ht] at hb
    exact (hb p List.mem_cons_self).elim
  | ok tokens => exact ⟨tokens, rfl, g.moves_scan _ tokens⟩

theorem steps_bare_flag (hb : ∀ p, .broken p ∉ g.steps arguments) {f : Flag} (hf : f.arity = .one)
    (hm : .flag f none ∈ g.steps arguments) : ∃ t ∈ arguments, EndsDashed t := by
  obtain ⟨tokens, ht, hmoves⟩ := steps_moves hb
  obtain ⟨e, he, hdashed⟩ := hmoves.bare_flag hf hm fun _ _ _ _ hm => classify_of_mem ht hm
  exact ⟨e.2, map_tokens ht ▸ List.mem_map_of_mem he, hdashed⟩

/-- Before two dashes stand alone nothing is passed over that has the form of a flag. -/
theorem steps_shown (hb : ∀ p, .broken p ∉ g.steps (before ++ t :: after))
    (hp : ∀ name, g.positional ≠ .everything name) (hbefore : ("--" : Text) ∉ before)
    (ht : t ≠ "--") {k : Token} (hk : g.classify t = .ok k) (hflagged : k.IsFlagged) :
    Shown (g.steps (before ++ t :: after)) k t := by
  obtain ⟨tokens, htokens, hmoves⟩ := steps_moves hb
  obtain ⟨ks, k', as, rfl, _, hsep, hk', _⟩ := tokens_split htokens hbefore ht
  cases hk.symm.trans hk'
  exact hmoves.shows hp hb rfl hsep hflagged

/-- What has the form of a flag shows, too, or is among what is left to a grammar that takes
everything. -/
theorem steps_shown_or_left (hb : ∀ p, .broken p ∉ g.steps (before ++ t :: after)) {name : Text}
    (hp : g.positional = .everything name) (hbefore : ("--" : Text) ∉ before) (ht : t ≠ "--")
    {k : Token} (hk : g.classify t = .ok k) (hflagged : k.IsFlagged) {first : Text}
    {tail : List Text} (hv : .positional (first :: tail) ∈ g.steps (before ++ t :: after)) :
    Shown (g.steps (before ++ t :: after)) k t ∨
      ∃ between, tail = between ++ t :: after ∧ ("--" : Text) ∉ between := by
  obtain ⟨tokens, htokens, hmoves⟩ := steps_moves hb
  obtain ⟨ks, k', as, rfl, hks, _, hk', has⟩ := tokens_split htokens hbefore ht
  cases hk.symm.trans hk'
  obtain ⟨said, k', s, left, hsame, hfirst, hvalues, hshown⟩ := hmoves.all_left hp hv
  obtain ⟨rfl, rfl⟩ := List.cons.inj hvalues
  have hother : (k, t) ≠ (k', first) := by
    rintro ⟨⟩
    exact hfirst hflagged
  -- The tokens are split in two ways. The one is said before the grammar takes all that is left, or
  -- comes behind.
  rcases List.append_eq_append_iff.mp hsame with ⟨more, hsaid, he⟩ | ⟨more, hks', he⟩
  · cases more with
    | nil => exact (hother (List.cons.inj he).1).elim
    | cons e more =>
      cases (List.cons.inj he).1
      exact .inl (hshown (k, t) (by simp [hsaid]) hflagged)
  · cases more with
    | nil => exact (hother (List.cons.inj he).1.symm).elim
    | cons e more =>
      obtain ⟨-, hleft⟩ := List.cons.inj he
      have htail : left.map (·.2) = more.map (·.2) ++ t :: after := by
        rw [show left = more ++ (k, t) :: as from hleft, List.map_append, List.map_cons, has]
      refine .inr ⟨more.map (·.2), htail, fun hm => ?_⟩
      refine hbefore ?_
      rw [← hks, hks', List.map_append, List.map_cons]
      exact List.mem_append_right _ (List.mem_cons_of_mem _ hm)

theorem steps_once (hb : ∀ p, .broken p ∉ g.steps arguments) {name : Text}
    (hp : g.positional = .everything name) {values values' : List Text}
    (hv : .positional values ∈ g.steps arguments) (hv' : .positional values' ∈ g.steps arguments) :
    values = values' := by
  obtain ⟨_, _, hmoves⟩ := steps_moves hb
  exact hmoves.all_once hp hv hv'

/-- All that is left to a grammar that takes everything is the end of the arguments. -/
theorem steps_left (hb : ∀ p, .broken p ∉ g.steps arguments) {name : Text}
    (hp : g.positional = .everything name) {values : List Text}
    (hv : .positional values ∈ g.steps arguments) : values <:+ arguments := by
  obtain ⟨tokens, ht, hmoves⟩ := steps_moves hb
  obtain ⟨said, k, s, left, rfl, _, rfl, _⟩ := hmoves.all_left hp hv
  rw [← map_tokens ht, List.map_append]
  exact List.suffix_append _ _

end Steps

end Grammar

end AgentFleet.CommandLine
