import AgentFleet.Proofs.AgentLines
import AgentFleet.Proofs.Atomicity
import AgentFleet.Proofs.SettingLines

namespace AgentFleet

namespace Text

/-- `u` is `t`, which has no carriage return, with each line feed written as any line end. -/
inductive Reended : Text → Text → Prop
  | nil : Reended [] []
  | point (hn : p ≠ .char '\n') (hr : p ≠ .char '\r') (h : Reended t u) :
      Reended (p :: t) (p :: u)
  | ended (he : LineEnd e u) (h : Reended t u) : Reended (.char '\n' :: t) (e ++ u)

theorem Reended.line {l e t u : Text} (hl : l.OneLine) (he : LineEnd e u) (h : Reended t u) :
    Reended (l ++ .char '\n' :: t) (l ++ (e ++ u)) := by
  induction l with
  | nil =>
    rw [List.nil_append, List.nil_append]
    exact .ended he h
  | cons p l ih =>
    obtain ⟨hn, hr⟩ := hl
    simp only [List.mem_cons, not_or] at hn hr
    exact .point (Ne.symm hn.1) (Ne.symm hr.1) (ih ⟨hn.2, hr.2⟩)

theorem Reended.lines_eq {t u : Text} (h : Reended t u) : lines u = lines t := by
  induction h with
  | nil => rfl
  | point hn hr _ ih => rw [lines_cons hn hr, lines_cons hn hr, ih]
  | @ended e u t he _ ih =>
    have hnil : OneLine [] := by simp [OneLine]
    have hfirst : lines (e ++ u) = [] :: lines u := lines_ended hnil he
    rw [hfirst, ih]
    rfl

end Text

/-- Two results are the same fault, or values that are related. -/
inductive Likewise (R : α → β → Prop) : Except ε α → Except ε β → Prop
  | ok (h : R a b) : Likewise R (.ok a) (.ok b)
  | error (e : ε) : Likewise R (.error e) (.error e)

/-- Both go on with what they have in common. -/
theorem Likewise.bind_same {R : β → γ → Prop} (x : Except ε α) {f : α → Except ε β}
    {g : α → Except ε γ} (h : ∀ a, Likewise R (f a) (g a)) :
    Likewise R (x >>= f) (x >>= g) := by
  cases x with
  | ok a => exact h a
  | error e => exact .error e

namespace Disk.Store

theorem ne_root_of_file {s : Store} {p : Place} {c : Content} (h : s.node? p = some (.file c)) :
    p ≠ [] := by
  rintro rfl
  simp [Store.node?] at h

/-- The disks are the same but for what the file at a place holds. -/
structure SameBut (p : Place) (s s' : Store) : Prop where
  base : s'.base = s.base
  upsets : s'.upsets = s.upsets
  node? : ∀ q, q ≠ p → s'.node? q = s.node? q
  file : ∃ c, s.node? p = some (.file c)
  file' : ∃ c, s'.node? p = some (.file c)

namespace SameBut

variable {s s' : Store} {p q : Place} {path : Text}

/-- A disk and the same disk with another content in a file. -/
theorem of_put {c : Content} (h : s.node? p = some (.file c)) (c' : Content) :
    SameBut p s (s.put p (.file c')) := by
  have hroot := ne_root_of_file h
  refine ⟨rfl, rfl, fun q hq => ?_, ⟨c, h⟩, c', ?_⟩
  · rw [node?_put _ _ _ _ hroot, if_neg hq]
  · rw [node?_put _ _ _ _ hroot, if_pos rfl]

/-- What is at a place is the same, or both are files. -/
theorem node_cases (h : SameBut p s s') (q : Place) : s'.node? q = s.node? q ∨
    ∃ c c', s.node? q = some (.file c) ∧ s'.node? q = some (.file c') := by
  by_cases hq : q = p
  · subst hq
    obtain ⟨c, hc⟩ := h.file
    obtain ⟨c', hc'⟩ := h.file'
    exact .inr ⟨c, c', hc, hc'⟩
  · exact .inl (h.node? q hq)

theorem isSome_node? (h : SameBut p s s') (q : Place) :
    (s'.node? q).isSome = (s.node? q).isSome := by
  rcases h.node_cases q with he | ⟨c, c', hc, hc'⟩
  · rw [he]
  · rw [hc, hc']
    rfl

theorem directory_iff (h : SameBut p s s') (q : Place) :
    s'.node? q = some .directory ↔ s.node? q = some .directory := by
  rcases h.node_cases q with he | ⟨c, c', hc, hc'⟩
  · rw [he]
  · simp [hc, hc']

theorem follow_eq (h : SameBut p s s') (names : List Name) (here : Place) :
    s'.follow here names = s.follow here names := by
  induction names generalizing here with
  | nil => rfl
  | cons name rest ih =>
    rcases h.node_cases here with he | ⟨c, c', hc, hc'⟩
    · simp only [follow, he, ih]
    · simp only [follow, hc, hc']

theorem locate_eq (h : SameBut p s s') : s'.locate = s.locate := by
  funext path
  simp only [locate, walk, h.follow_eq, h.base]

theorem leads_iff (h : SameBut p s s') : s'.Leads path q ↔ s.Leads path q := by
  simp only [Leads, h.locate_eq]

theorem target_eq (h : SameBut p s s') (path : Text) : s'.target path = s.target path := by
  simp only [target, expand, h.base]

theorem hasPath_eq (h : SameBut p s s') (path : Text) : s'.hasPath path = s.hasPath path := by
  rw [Bool.eq_iff_iff, hasPath_iff, hasPath_iff]
  simp only [h.leads_iff, exists_and_left, ← Option.isSome_iff_exists, h.isSome_node?]

theorem freshTarget?_eq (h : SameBut p s s') (t : Target) (tries n : Nat) :
    s'.freshTarget? t tries n = s.freshTarget? t tries n := by
  induction tries generalizing n with
  | zero => rfl
  | succ k ih => simp only [freshTarget?, h.hasPath_eq, ih]

theorem put (h : SameBut p s s') (hq : q ≠ []) {n : Node} (hn : q = p → ∃ c, n = .file c) :
    SameBut p (s.put q n) (s'.put q n) := by
  have hfile : ∀ u : Store, (∃ c, u.node? p = some (.file c)) →
      ∃ c, (u.put q n).node? p = some (.file c) := by
    intro u hu
    rw [node?_put _ _ _ _ hq]
    split
    · rename_i e
      obtain ⟨c, rfl⟩ := hn e.symm
      exact ⟨c, rfl⟩
    · exact hu
  refine ⟨h.base, h.upsets, fun x hx => ?_, hfile s h.file, hfile s' h.file'⟩
  rw [node?_put _ _ _ _ hq, node?_put _ _ _ _ hq, h.node? x hx]

theorem erase (h : SameBut p s s') (hq : q ≠ []) (hne : q ≠ p) :
    SameBut p (s.erase q) (s'.erase q) := by
  have hkeep : ∀ u : Store, (u.erase q).node? p = u.node? p := by
    intro u
    rw [node?_erase _ _ _ hq, if_neg (Ne.symm hne)]
  refine ⟨h.base, h.upsets, fun x hx => ?_, by rw [hkeep]; exact h.file,
    by rw [hkeep]; exact h.file'⟩
  rw [node?_erase _ _ _ hq, node?_erase _ _ _ hq, h.node? x hx]

theorem pastUpset (h : SameBut p s s') : SameBut p s.pastUpset s'.pastUpset :=
  ⟨h.base, congrArg List.tail h.upsets, h.node?, h.file, h.file'⟩

/-- Both make the same temporary file. -/
theorem makeTemporary_eq (h : SameBut p s s') (t : Target) (refusal : Option Refusal) :
    s'.makeTemporary t refusal = (s.makeTemporary t refusal).map
      fun made => (made.1, s'.put made.1.place (.file (.text []))) := by
  simp only [makeTemporary, h.freshTarget?_eq, h.locate_eq]
  cases s.freshTarget? t temporaryTries 0 with
  | none => rfl
  | some x =>
    dsimp only
    cases answered x.text s.locate with
    | error f => rfl
    | ok place => cases refusal <;> rfl

theorem fill_eq (s s' : Store) (q : Place) (text : Text) (refusal : Option Refusal) :
    s'.fill q text refusal =
      (s.fill q text refusal).map fun _ => s'.put q (.file (.text text)) := by
  unfold fill
  cases Text.isWritable text with
  | false => rfl
  | true => cases refusal <;> rfl

theorem landing_eq (h : SameBut p s s') (path : List UInt8) :
    s'.landing path = s.landing path := by
  simp only [landing, h.locate_eq, h.directory_iff]

theorem moveNode (h : SameBut p s s') {source : Place} (hs : source ≠ []) (hne : source ≠ p)
    (hq : q ≠ []) {n : Node} (hn : q = p → ∃ c, n = .file c) :
    SameBut p (s.moveNode source q n) (s'.moveNode source q n) := by
  unfold Store.moveNode
  split
  · exact h
  · exact (h.put hq hn).erase hs hne

theorem move (h : SameBut p s s') {source : Temporary} {c : Content} (hs : source.place ≠ [])
    (hne : source.place ≠ p) (hc : s.node? source.place = some (.file c)) (target : Text)
    (refusal : Option Refusal) :
    Likewise (SameBut p) (s.move source target refusal) (s'.move source target refusal) := by
  unfold Store.move
  refine .bind_same _ fun path => ?_
  rw [h.landing_eq, h.node? _ hne, hc]
  cases hl : s.landing path with
  | error why => exact .error _
  | ok q =>
    obtain ⟨_, hq, _⟩ := landing_ok hl
    exact .bind_same _ fun _ => .ok (h.moveNode hs hne hq fun _ => ⟨c, rfl⟩)

theorem fill_move (h : SameBut p s s') {source : Temporary} (hs : source.place ≠ [])
    (hne : source.place ≠ p) (text target : Text) (filling moving : Option Refusal) :
    Likewise (SameBut p) (s.fill source.place text filling >>= (·.move source target moving))
      (s'.fill source.place text filling >>= (·.move source target moving)) := by
  rw [fill_eq s s']
  cases hf : s.fill source.place text filling with
  | error f => exact .error f
  | ok filled =>
    obtain ⟨_, rfl⟩ := fill_ok hf
    refine (h.put hs fun e => absurd e hne).move (c := .text text) hs hne ?_ target moving
    rw [node?_put _ _ _ _ hs, if_pos rfl]

/-- A replacement goes alike on both. -/
theorem replaceUpset (h : SameBut p s s') (t : Target) (text : Text) (upset : Upset) :
    (s'.replaceUpset t text upset).1 = (s.replaceUpset t text upset).1 ∧
      SameBut p (s.replaceUpset t text upset).2 (s'.replaceUpset t text upset).2 := by
  unfold Store.replaceUpset
  rw [h.makeTemporary_eq]
  cases hm : s.makeTemporary t upset.making with
  | error f => exact ⟨rfl, h⟩
  | ok m =>
    obtain ⟨temporary, made⟩ := m
    obtain ⟨hnew, rfl⟩ := makeTemporary_ok hm
    have hroot := ne_root_of_node? hnew
    have hne : temporary.place ≠ p := by
      rintro rfl
      obtain ⟨c, hc⟩ := h.file
      rw [hnew] at hc
      cases hc
    have hmade := h.put (n := .file (.text [])) hroot fun e => absurd e hne
    have hwritten := hmade.fill_move hroot hne text t.text upset.filling upset.moving
    dsimp only [Except.map]
    revert hwritten
    generalize Store.fill _ _ _ _ >>= _ = x, Store.fill _ _ _ _ >>= _ = y
    rintro (h | f)
    · exact ⟨rfl, h⟩
    · exact ⟨rfl, hmade.erase hroot hne⟩

theorem replace (h : SameBut p s s') (t : Target) (text : Text) :
    (s'.replace t text).1 = (s.replace t text).1 ∧
      SameBut p (s.replace t text).2 (s'.replace t text).2 := by
  have he : ∀ u : Store,
      u.replace t text = u.pastUpset.replaceUpset t text (u.upsets.head?.getD .none) := fun _ => rfl
  rw [he s, he s', h.upsets]
  exact h.pastUpset.replaceUpset t text _

end SameBut

end Disk.Store

open AgentFleet.Action

/-- The rosters are the same, and so are the disks but for what the file at a place holds. -/
structure Situation.SameBut (p : Disk.Place) (s s' : Situation) : Prop where
  roster : s'.roster = s.roster
  disk : s.disk.SameBut p s'.disk

namespace Roster

variable {p : Disk.Place} {s s' : Situation}

/-- What an action does with the roster goes alike where the rosters are the same. -/
theorem alike_get (act : Roster → Action α) (h : ∀ r, Alike (Situation.SameBut p) (act r)) :
    Alike (Situation.SameBut p) (get >>= fun s => act s.roster) := by
  intro s s' hs
  have hrun : ∀ u : Situation, (get >>= fun s => act s.roster : Action α) u = act u.roster u :=
    fun _ => rfl
  rw [outcome_congr (hrun s), outcome_congr (hrun s'), after_congr (hrun s), after_congr (hrun s'),
    hs.roster]
  exact h s.roster s s' hs

theorem alike_modify (g : Roster → Roster) :
    Alike (Situation.SameBut p) (modify fun s => { s with roster := g s.roster }) :=
  fun _ _ h => ⟨rfl, congrArg g h.roster, h.disk⟩

theorem alike_write (path : Text) (agents : List Agent) :
    Alike (Situation.SameBut p) (write path agents) := by
  intro s s' h
  have hreplace := h.disk.replace (s.disk.target path) (agentLines agents)
  simp only [outcome, after, write_run, h.disk.target_eq]
  generalize s.disk.replace _ _ = replaced, s'.disk.replace _ _ = replaced' at hreplace ⊢
  obtain ⟨result, disk⟩ := replaced
  obtain ⟨result', disk'⟩ := replaced'
  obtain ⟨rfl, hdisk⟩ : result' = result ∧ disk.SameBut p disk' := hreplace
  cases result' with
  | ok u => exact ⟨rfl, h.roster, hdisk⟩
  | error f => exact ⟨rfl, h.roster, hdisk⟩

theorem alike_commit (agents : List Agent) : Alike (Situation.SameBut p) (commit agents) :=
  alike_get _ fun r => (alike_write r.path agents).bind fun _ =>
    alike_modify fun r => { r with agents }

theorem alike_save (path : Option Text) : Alike (Situation.SameBut p) (save path) :=
  alike_get _ fun r => alike_write ((Cloud.present? path).getD r.path) r.agents

theorem alike_add (a : Agent) : Alike (Situation.SameBut p) (add a) := by
  refine alike_get (fun r => if a ∈ r.agents then pure false else do
    commit (r.agents ++ [a])
    return true) fun r => ?_
  split
  · exact .pure false
  · exact (alike_commit _).bind fun _ => .pure true

theorem alike_remove (a : Agent) : Alike (Situation.SameBut p) (remove a) := by
  refine alike_get (fun r => if a ∉ r.agents then pure false else do
    commit (r.agents.erase a)
    return true) fun r => ?_
  split
  · exact .pure false
  · exact (alike_commit _).bind fun _ => .pure true

theorem alike_take (count : Int) (strategy : Strategy) :
    Alike (Situation.SameBut p) (take count strategy) := by
  unfold take
  split
  · exact .throw _
  · refine alike_get (fun r => do
      let n := min count.toNat r.agents.length
      if n = 0 then return []
      let picked ← ofExcept (strategy.pick n r.agents)
      commit (r.agents.filter (· ∉ picked))
      return picked) fun r => ?_
    dsimp only
    split
    · exact .pure []
    · exact (Alike.ofExcept _).bind fun picked => (alike_commit _).bind fun _ => .pure picked

theorem Call.alike (call : Call) : Alike (Situation.SameBut p) call.run := by
  cases call with
  | add a => exact (alike_add a).bind fun _ => .pure _
  | remove a => exact (alike_remove a).bind fun _ => .pure _
  | take count strategy => exact (alike_take count strategy).bind fun _ => .pure _
  | removeOldest count => exact (alike_take count .oldestFirst).bind fun _ => .pure _
  | save path => exact (alike_save path).bind fun _ => .pure _

/-- Where calls lead does not hang on what was written before. -/
theorem follow_snd (written : Bool) (s : Situation) (calls : List Call) :
    (follow written s calls).2 = calls.foldl (fun s call => call.run.after s) s := by
  induction calls generalizing written s with
  | nil => rfl
  | cons call rest ih =>
    rw [follow, List.foldl_cons]
    split
    · rename_i hr
      rw [ih, after_of_ok hr]
    · rename_i hr
      rw [ih, after_of_error hr]

theorem follow_alike (h : s.SameBut p s') (calls : List Call) :
    (follow false s calls).2.SameBut p (follow false s' calls).2 := by
  rw [follow_snd, follow_snd]
  induction calls generalizing s s' with
  | nil => exact h
  | cons call rest ih => exact ih (call.alike s s' h).2

/-- To remove the oldest agents is to take them. -/
def Call.plain : Call → Call
  | removeOldest count => take count .oldestFirst
  | call => call

theorem Call.Writes.congr {call : Call} {list : List Agent} (hr : s'.roster = s.roster)
    (h : call.Writes s list) : call.Writes s' list := by
  cases h with
  | add h => rw [← hr] at h ⊢; exact .add h
  | remove h => rw [← hr] at h ⊢; exact .remove h
  | take hc hn hp => rw [← hr] at hn hp ⊢; exact .take hc hn hp
  | save path => rw [← hr]; exact .save path

theorem take_written {count : Int} {strategy : Strategy} {picked : List Agent} {t : Situation}
    (h : take count strategy s = .ok picked t) :
    (t = s ∧ ∀ list, ¬ (Call.take count strategy).Writes s list) ∨
      ∃ list, (Call.take count strategy).Writes s list ∧
        Stored s.disk t.disk s.roster.path list := by
  obtain ⟨hc, ⟨hz, _, rfl⟩ | ⟨hz, hp, hw⟩⟩ := take_ok h
  · refine .inl ⟨rfl, fun list hw => ?_⟩
    cases hw with | take _ hn _ => exact hn hz
  · exact .inr ⟨_, .take hc hz hp, commit_stored hw⟩

/-- A call that returns has written the list that it was going to write, if any. -/
theorem Call.written {call : Call} {reply : Reply} {t : Situation} (h : call.run s = .ok reply t) :
    (t = s ∧ ∀ list, ¬ call.plain.Writes s list) ∨
      ∃ list, call.plain.Writes s list ∧ Stored s.disk t.disk (call.file s) list := by
  cases call with
  | add a =>
    obtain ⟨_, u, ha, hu⟩ := bind_eq_ok.mp h
    cases hu
    rcases add_ok ha with ⟨hm, _, rfl⟩ | ⟨hm, _, hc⟩
    · refine .inl ⟨rfl, fun list hw => ?_⟩
      cases hw with | add hn => exact hn hm
    · exact .inr ⟨_, .add hm, commit_stored hc⟩
  | remove a =>
    obtain ⟨_, u, ha, hu⟩ := bind_eq_ok.mp h
    cases hu
    rcases remove_ok ha with ⟨hm, _, rfl⟩ | ⟨hm, _, hc⟩
    · refine .inl ⟨rfl, fun list hw => ?_⟩
      cases hw with | remove hn => exact hm hn
    · exact .inr ⟨_, .remove hm, commit_stored hc⟩
  | take count strategy =>
    obtain ⟨_, u, ht, hu⟩ := bind_eq_ok.mp h
    cases hu
    exact take_written ht
  | removeOldest count =>
    obtain ⟨_, u, ht, hu⟩ := bind_eq_ok.mp h
    cases hu
    exact take_written ht
  | save path =>
    obtain ⟨_, u, hs, hu⟩ := bind_eq_ok.mp h
    cases hu
    obtain ⟨disk, hst, rfl⟩ := save_ok hs
    exact .inr ⟨_, .save path, hst⟩

/-- Two calls that go alike write the same, if they write. -/
theorem Call.written_alike {call : Call} {reply : Reply} (h : s.SameBut p s')
    (hr : call.run.outcome s = .ok reply) :
    (call.run.after s = s ∧ call.run.after s' = s') ∨
      ∃ list, Stored s.disk (call.run.after s).disk (call.file s) list ∧
        Stored s'.disk (call.run.after s').disk (call.file s) list := by
  have hfile : call.file s' = call.file s := by
    cases call <;> simp only [Call.file, h.roster]
  have hr' : call.run.outcome s' = .ok reply := (call.alike s s' h).1 ▸ hr
  rcases Call.written (run_ok hr) with ⟨he, hno⟩ | ⟨list, hw, hs⟩
  · rcases Call.written (run_ok hr') with ⟨he', _⟩ | ⟨list, hw', _⟩
    · exact .inl ⟨he, he'⟩
    · exact absurd (hw'.congr h.roster.symm) (hno list)
  · rcases Call.written (run_ok hr') with ⟨_, hno⟩ | ⟨list', hw', hs'⟩
    · exact absurd (hw.congr h.roster) (hno list)
    · rw [hw'.unique (hw.congr h.roster), hfile] at hs'
      exact .inr ⟨list, hs, hs'⟩

theorem load_run (path : Text) (mustExist : Bool) (s : Situation) :
    load path mustExist s = match read s.disk path mustExist with
      | .ok roster => .ok () { s with roster }
      | .error f => .error f s := by
  unfold load
  rw [get_bind_run]
  cases hr : read s.disk path mustExist with
  | ok roster => exact bind_run (ofExcept_ok_run roster)
  | error f => exact bind_run_error (ofExcept_error_run f)

theorem load_alike (h : s.SameBut p s') {path : Text} {mustExist : Bool}
    (hr : read s'.disk path mustExist = read s.disk path mustExist) :
    ((load path mustExist).after s).SameBut p ((load path mustExist).after s') := by
  simp only [after, load_run, hr]
  cases read s.disk path mustExist with
  | ok roster => exact ⟨rfl, h.disk⟩
  | error f => exact h

/-- It does not matter how the lines of a file end. A roster and settings are read from it alike;
after that all calls on the roster go alike, and a file that one of them writes is written alike. -/
theorem lineEnds_indifferent {s : Situation} {path text other : Text} {p : Disk.Place}
    (hp : s.disk.Leads (s.disk.expand path) p) (hfile : s.disk.node? p = some (.file (.text text)))
    (hends : text.Reended other) (mustExist : Bool) (calls : List Call) :
    let s' := { s with disk := s.disk.put p (.file (.text other)) }
    let t := (follow false ((load path mustExist).after s) calls).2
    let t' := (follow false ((load path mustExist).after s') calls).2
    read s'.disk path mustExist = read s.disk path mustExist ∧
    Settings.entriesIn s'.disk path = Settings.entriesIn s.disk path ∧
    t'.roster = t.roster ∧ (∀ q, q ≠ p → t'.disk.node? q = t.disk.node? q) ∧
    ∀ call : Call, call.run.outcome t' = call.run.outcome t ∧
      ∀ reply, call.run.outcome t = .ok reply →
        (call.run.after t = t ∧ call.run.after t' = t') ∨
        ∃ list, Stored t.disk (call.run.after t).disk (call.file t) list ∧
          Stored t'.disk (call.run.after t').disk (call.file t) list := by
  intro s' t t'
  have hs : s.SameBut p s' := ⟨rfl, .of_put hfile _⟩
  have hheld : s.disk.Holds path text := Disk.Store.read_eq_ok.mpr ⟨p, hp, hfile⟩
  have hheld' : s'.disk.Holds path other := by
    refine Disk.Store.read_eq_ok.mpr ⟨p, hs.disk.leads_iff.mpr hp, ?_⟩
    rw [Disk.Store.node?_put _ _ _ _ (Disk.Store.ne_root_of_file hfile), if_pos rfl]
  have hread : read s'.disk path mustExist = read s.disk path mustExist := by
    rw [read_of_holds hheld', read_of_holds hheld, parse, parse, hends.lines_eq]
  have hentries : Settings.entriesIn s'.disk path = Settings.entriesIn s.disk path := by
    rw [Settings.entriesIn_of_holds hheld', Settings.entriesIn_of_holds hheld, Settings.parse,
      Settings.parse, hends.lines_eq]
  have ht : t.SameBut p t' := follow_alike (load_alike hs hread) calls
  refine ⟨hread, hentries, ht.roster, ht.disk.node?, fun call => ?_⟩
  exact ⟨(call.alike t t' ht).1.symm, fun reply hr => Call.written_alike ht hr⟩

/-- A file of two agents, with a vertical tab between their lines. -/
def tabbed : Situation :=
  .bare (.holding "p,x\n\x0b\nq,y\n") ⟨"a", []⟩

/-- Its lines end in three ways. The first agent is removed, and the other one stays on file. -/
theorem lineEnds_indifferent_tabbed :
    let s' := { tabbed with disk := tabbed.disk.put [[97]] (.file (.text "p,x\r\n\x0b\rq,y\n")) }
    let t' := (follow false ((load "a" true).after s') [.remove ⟨"p", "x"⟩]).2
    read s'.disk "a" true = .ok ⟨"a", [⟨"p", "x"⟩, ⟨"q", "y"⟩]⟩ ∧
      t'.roster.agents = [⟨"q", "y"⟩] := by
  have hends : Text.Reended "p,x\n\x0b\nq,y\n" "p,x\r\n\x0b\rq,y\n" := by
    refine .line (l := "p,x") ⟨by decide, by decide⟩ .both ?_
    refine .line (l := "\x0b") ⟨by decide, by decide⟩ (.carriageReturn (by decide)) ?_
    exact .line (l := "q,y") ⟨by decide, by decide⟩ .feed .nil
  have hp : tabbed.disk.Leads (tabbed.disk.expand "a") [[97]] := rfl
  have hfile : tabbed.disk.node? [[97]] = some (.file (.text "p,x\n\x0b\nq,y\n")) := rfl
  obtain ⟨hread, _, hroster, _⟩ :=
    lineEnds_indifferent hp hfile hends true [.remove ⟨"p", "x"⟩]
  intro s' t'
  refine ⟨hread.trans (by decide +kernel), ?_⟩
  rw [hroster]
  decide +kernel

end Roster

end AgentFleet
