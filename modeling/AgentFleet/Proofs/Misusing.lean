import AgentFleet.Proofs.Atomicity
import AgentFleet.Proofs.Escaping
import AgentFleet.Proofs.Paging
import AgentFleet.Proofs.Provisioning

namespace AgentFleet
open AgentFleet.Action AgentFleet.Command Cloud Situation

namespace Situation

/-- The cloud is going to answer with this fault. -/
inductive InStore (s : Situation) (f : Fault) : Prop
  | service {o : Operation} (h : .error f ∈ s.service o)
  | aws {o : Operation} (h : .error f ∈ s.aws o)

theorem InStore.congr {s t : Situation} {f : Fault} (h : t.InStore f) (hs : t.service = s.service)
    (ha : t.aws = s.aws) : s.InStore f := by
  cases h with
  | service h => exact .service (hs ▸ h)
  | aws h => exact .aws (ha ▸ h)

/-- `s` comes after `first`. What the cloud is going to answer it was going to answer then, and no
instances were looked up since without their ids or addresses. -/
structure Orderly (first s : Situation) : Prop where
  answers : ∀ f, s.InStore f → first.InStore f
  lookups : ∃ made, s.calls = first.calls ++ made ∧ .describe [] [] ∉ made

namespace Orderly

variable {first s t : Situation}

theorem refl (s : Situation) : Orderly s s :=
  ⟨fun _ h => h, [], (List.append_nil _).symm, List.not_mem_nil⟩

/-- Only the answers and the calls matter. -/
theorem congr (h : Orderly first s) (hs : t.service = s.service) (ha : t.aws = s.aws)
    (hc : t.calls = s.calls) : Orderly first t := by
  obtain ⟨hanswers, hlookups⟩ := h
  exact ⟨fun f hf => hanswers f (hf.congr hs ha), by rwa [hc]⟩

theorem idle (h : Orderly first s) (hi : s.Idle t) : Orderly first t :=
  h.congr hi.service hi.aws hi.calls

/-- A call that uses answers up. -/
theorem called (h : Orderly first s) {made : List CloudCall} (hc : t.calls = s.calls ++ made)
    (hmade : .describe [] [] ∉ made) (ha : ∀ f, t.InStore f → s.InStore f) : Orderly first t := by
  obtain ⟨hanswers, before, hbefore, hnone⟩ := h
  refine ⟨fun f hf => hanswers f (ha f hf), before ++ made, ?_, ?_⟩
  · rw [hc, hbefore, List.append_assoc]
  · exact fun hm => (List.mem_append.mp hm).elim hnone hmade

end Orderly

end Situation

/-- A fault is excused: it is no misuse, or a misuse that has `P`, or the cloud was going to answer
with it. -/
def Fault.Excused (P : Misuse → Prop) (first : Situation) (f : Fault) : Prop :=
  ∀ m, f.trouble = .misuse m → P m ∨ first.InStore f

/-- An action keeps the situation orderly, and of the misuses only those that have `P` are its
own. -/
abbrev Minds (P : Misuse → Prop) (first : Situation) (act : Action α) : Prop :=
  Ends (Orderly first) act Any (Fault.Excused P first)

namespace Minds

variable {P P' : Misuse → Prop} {first : Situation} {act : Action α}

theorem mono (h : Minds P first act) (hp : ∀ m, P m → P' m) : Minds P' first act :=
  Ends.mono h (fun _ hq => hq) fun _ hf m hm => (hf m hm).imp_left (hp m)

theorem pure {a : α} : Minds P first (Pure.pure a : Action α) :=
  Ends.pure trivial

/-- What is no misuse may always be. -/
theorem throw {f : Fault} (h : ∀ m, f.trouble ≠ .misuse m) :
    Minds P first (MonadExcept.throw f : Action α) :=
  Ends.throw fun m hm => absurd hm (h m)

theorem ofExcept {x : Except Fault α} (h : ∀ f m, x = .error f → f.trouble = .misuse m → P m) :
    Minds P first (MonadExcept.ofExcept x : Action α) :=
  Ends.ofExcept (fun _ _ => trivial) fun f hf m hm => .inl (h f m hf hm)

theorem log (severity : Severity) (text : Except Fault Text) :
    Minds P first (Action.log severity text) :=
  Ends.then_as fun s hs => by
    obtain ⟨t, hrun, hidle⟩ := log_idle severity text s
    exact ⟨Pure.pure (), t, hrun, hs.idle hidle, pure⟩

theorem info (text : Text) : Minds P first (Action.info text) :=
  log .info (.ok text)

theorem warn (text : Text) : Minds P first (Action.warn text) :=
  log .warning (.ok text)

theorem wait (seconds : Decimal.Number) : Minds P first (Action.wait seconds) :=
  Ends.then_as fun s hs => by
    obtain ⟨t, hidle, ⟨stop, hrun⟩ | ⟨_, hrun⟩⟩ := wait_idle seconds s
    · exact ⟨Pure.pure stop, t, hrun, hs.idle hidle, pure⟩
    · exact ⟨MonadExcept.throw _, t, hrun, hs.idle hidle, throw fun m hm => by cases hm⟩

section Requests

theorem error_of_replied {answers : List (Except Fault β)} {method : String} {f : Fault}
    (h : replied answers method = .error f) :
    .error f ∈ answers ∨ f = .of (.noReply method) := by
  cases answers with
  | nil =>
    cases h
    exact .inr rfl
  | cons answer rest =>
    have he : answer = .error f := h
    rw [he]
    exact .inl List.mem_cons_self

theorem ask (r : Service.Request) (h : r.call ≠ .describe [] []) :
    Minds P first (Action.ask r) := by
  refine ⟨Brings.of_after fun s hs => ?_, fun s hs f hf m hm => ?_⟩
  · have hcalled := called_ask r s
    refine hs.called hcalled.calls (by simpa using h.symm) fun f hf => ?_
    rw [after_ask] at hf
    cases hf with
    | service h => exact .service (Script.mem_of_mem_with_tail h)
    | aws h => exact .aws h
  · rw [outcome_ask] at hf
    rcases error_of_replied hf with hmem | rfl
    · exact .inr (hs.answers f (.service hmem))
    · cases hm

theorem send (r : Aws.Request) (h : r.call? ≠ some (.describe [] [])) :
    Minds P first (Action.send r) := by
  refine ⟨Brings.of_after fun s hs => ?_, fun s hs f hf m hm => ?_⟩
  · have hcalled := called_send r s
    refine hs.called hcalled.calls (by simpa [eq_comm] using h) fun f hf => ?_
    rw [after_send] at hf
    cases hf with
    | service h => exact .service h
    | aws h => exact .aws (Script.mem_of_mem_with_tail h)
  · rw [outcome_send] at hf
    rcases error_of_replied hf with hmem | rfl
    · exact .inr (hs.answers f (.aws hmem))
    · cases hm

/-- A fault that is led on to another trouble is no misuse any more. -/
theorem explain {meaning : Fault → Option Trouble} (h : Minds P first act)
    (hm : ∀ f t m, meaning f = some t → t ≠ .misuse m) : Minds P first (act.explain meaning) := by
  refine Ends.explain h fun f hf m he => ?_
  cases ht : meaning f with
  | none =>
    rw [ht] at he
    exact hf m he
  | some t =>
    rw [ht] at he
    exact absurd he (hm f t m ht)

theorem refusal_ne_misuse {o : Operation} {f : Fault} {t : Trouble} {m : Misuse}
    (h : Aws.refusal o f = some t) : t ≠ .misuse m := by
  unfold Aws.refusal at h
  split at h
  · cases h
    nofun
  · cases h

theorem call (r : Aws.Request) (h : r.call? ≠ some (.describe [] [])) :
    Minds P first (Aws.call r) :=
  (send r h).explain fun _ _ _ => refusal_ne_misuse

/-- What lacks from an answer is no misuse. -/
theorem missing {x : Except Fault α} (h : ∀ f, x = .error f → ∃ key, f = .of (.missingKey key)) :
    Minds P first (MonadExcept.ofExcept x : Action α) := by
  refine ofExcept fun f m hf hm => ?_
  obtain ⟨key, rfl⟩ := h f hf
  cases hm

/-- A page is asked for by ids or addresses. -/
theorem describePages {ids addresses : List Text} (h : ¬ (ids = [] ∧ addresses = [])) (n : Nat)
    (token : Option Text) : Minds P first (Aws.describePages ids addresses n token) := by
  have hpage : ∀ token,
      (Aws.Request.describeInstances ids addresses token).call? ≠ some (.describe [] []) := by
    intro token
    cases token with
    | none => simpa [Aws.Request.call?] using h
    | some _ =>
      intro hcall
      cases hcall
  induction n generalizing token with
  | zero => exact pure
  | succ n ih =>
    refine (call _ (hpage token)).bind fun page _ =>
      (missing fun _ => Aws.instances_error).bind fun instances _ => ?_
    split
    · exact pure
    · exact (ih _).bind fun _ _ => pure

variable (p : Provider)

theorem describeInstances {ids addresses : Option (List Text)}
    (h : ¬ (ids.getD [] = [] ∧ addresses.getD [] = [])) :
    Minds P first (p.describeInstances ids addresses) := by
  cases p with
  | service => exact ask _ (by simpa [Service.Request.call] using h)
  | aws =>
    change Minds P first (Aws.describeInstances _ _)
    unfold Aws.describeInstances
    rw [if_neg h]
    exact Ends.get_bind fun s _ => describePages h _ none

theorem createInstances (count : Int) (template : LaunchTemplate) :
    Minds P first (p.createInstances count template) := by
  cases p with
  | service => exact ask _ nofun
  | aws =>
    exact (call (.runInstances ..) nofun).bind fun answer _ =>
      (missing fun _ hf => ⟨_, Aws.required_error hf⟩).bind fun ds _ =>
        missing fun _ => Aws.instances_error

theorem terminateInstances (ids : List Text) : Minds P first (p.terminateInstances ids) := by
  cases p with
  | service => exact ask _ nofun
  | aws => exact call (.terminateInstances ids) nofun

theorem registerInstances (balancer : Text) (ids : List Text) :
    Minds P first (p.registerInstances balancer ids) := by
  cases p with
  | service => exact ask _ nofun
  | aws => exact call (.registerInstances balancer ids) nofun

theorem createBalancer (name : Text) (zones : List Text) (l : Listener) :
    Minds P first (p.createBalancer name zones l) := by
  cases p with
  | service => exact ask _ nofun
  | aws => exact (call (.createBalancer name zones l) nofun).bind fun _ _ => pure

theorem describeBalancers (names : List Text) : Minds P first (p.describeBalancers names) := by
  cases p with
  | service => exact ask _ nofun
  | aws =>
    have hsent : Minds P first (Action.send (.describeBalancers names)) := send _ nofun
    refine hsent.attempt.bind fun answer hanswer => ?_
    cases answer with
    | ok ds => exact missing fun _ => Aws.balancers_error
    | error f =>
      dsimp only
      split
      · exact pure
      · split
        · rename_i ht
          exact throw fun m => refusal_ne_misuse ht
        · exact Ends.throw hanswer

end Requests

section Waiting

variable {poller : Poller} {p : Provider}

theorem told_error {x : Decimal.Number} {f : Fault} {m : Misuse} (h : Poller.told x = .error f)
    (hm : f.trouble = .misuse m) : m = .tooManyDigits := by
  unfold Poller.told at h
  split at h
  · cases h
  · cases h
    cases hm
    rfl

theorem bound_error {f : Fault} {m : Misuse} (h : poller.bound = .error f) :
    f.trouble ≠ .misuse m := by
  unfold Poller.bound at h
  split at h
  · cases h
  · cases h
    nofun

theorem look (id : Text) : Minds P first (Poller.look p id) :=
  (describeInstances p (by simp)).bind fun _ _ => pure

variable (htold : P .tooManyDigits)

include htold

theorem rounds (longest : Decimal.Number) (id : Text) (left : Nat) :
    Minds P first (poller.rounds longest p id left) := by
  induction left with
  | zero =>
    refine (ofExcept fun f m hf hm => ?_).bind fun _ _ => throw nofun
    rw [told_error hf hm]
    exact htold
  | succ n ih =>
    refine (wait poller.interval).bind fun stop _ => ?_
    dsimp only
    split
    · exact throw nofun
    · refine (look id).bind fun found _ => ?_
      cases found with
      | some i => exact pure
      | none => exact ih

/-- A wait is misused only for a bound that is too long to be told. -/
theorem waitUntilReady (id : Text) : Minds P first (poller.waitUntilReady p id) :=
  (ofExcept fun _ _ hf hm => absurd hm (bound_error hf)).bind fun longest _ =>
    (log .info _).bind fun _ _ => rounds htold longest id _

end Waiting

section Finding

variable (p : Provider)

/-- Without agents nobody is asked, and with agents there are addresses to ask for. -/
theorem findInstances (agents : List Agent) : Minds P first (findInstances p agents) := by
  unfold AgentFleet.findInstances
  split
  · exact pure
  · rename_i hne
    exact (describeInstances p (by simp [hne])).bind fun _ _ => pure

theorem idsOf (found : Found) (missing : Agent → Text) (agents : List Agent) :
    Minds P first (idsOf found (fun a => Action.warn (missing a)) agents) := by
  induction agents with
  | nil => exact pure
  | cons a rest ih =>
    unfold AgentFleet.idsOf
    split
    · exact ih.bind fun _ _ => pure
    · exact (warn _).bind fun _ _ => ih

end Finding

section Rostering

theorem saveFault_ne_misuse (target : Disk.Target) (f : Disk.Fault) (m : Misuse) :
    (Roster.saveFault target f).trouble ≠ .misuse m := by
  unfold Roster.saveFault
  split <;> nofun

theorem commit (agents : List Agent) : Minds P first (Roster.commit agents) :=
  Ends.then_as fun s hs => by
    have hrun := Roster.commit_run agents s
    cases hr : s.disk.replace (s.disk.target s.roster.path) (agentLines agents) with
    | mk result disk =>
      rw [hr] at hrun
      cases result with
      | ok _ => exact ⟨Pure.pure (), _, hrun, hs.congr rfl rfl rfl, pure⟩
      | error f =>
        exact ⟨MonadExcept.throw _, _, hrun, hs.congr rfl rfl rfl,
          throw (saveFault_ne_misuse _ f)⟩

theorem add (a : Agent) : Minds P first (Roster.add a) := by
  refine Ends.get_bind fun s _ => ?_
  dsimp only
  split
  · exact pure
  · exact (commit _).bind fun _ _ => pure

theorem take (count : Nat) {strategy : Strategy}
    (h : ∀ name, strategy = .unknown name → P (.unknownStrategy name)) :
    Minds P first (Roster.take count strategy) := by
  unfold Roster.take
  rw [if_neg (by omega)]
  refine Ends.get_bind fun s _ => ?_
  dsimp only
  split
  · exact pure
  · refine (ofExcept fun f m hf hm => ?_).bind fun picked _ =>
      (commit _).bind fun _ _ => pure
    obtain ⟨name, hname, rfl⟩ := Roster.pick_eq_error.mp hf
    cases hm
    exact h name hname

end Rostering

end Minds

/-- The misuses of a scaling that are its own. -/
inductive Misuse.OfScaling (strategy : Strategy) (target : Int) : Misuse → Prop
  | target (h : target < 0) : OfScaling strategy target (.negativeTarget target)
  | strategy {name : Text} (h : strategy = .unknown name) :
      OfScaling strategy target (.unknownStrategy name)
  | telling : OfScaling strategy target .tooManyDigits

namespace Scaler

variable {P : Misuse → Prop} {first : Situation} (s : Scaler)

theorem enroll_minds (htold : P .tooManyDigits) (id : Text) : Minds P first (s.enroll id) := by
  have hwait : Minds P first (s.poller.waitUntilReady s.provider id) :=
    Minds.waitUntilReady htold id
  unfold enroll
  refine hwait.attempt.bind fun x hx => ?_
  cases x with
  | ok i => exact (Minds.add _).bind fun _ _ => (Minds.info _).bind fun _ _ => Minds.pure
  | error f =>
    dsimp only
    split
    · exact (Minds.warn _).bind fun _ _ => Minds.pure
    · exact Ends.throw hx

theorem enrollAll_minds (htold : P .tooManyDigits) (ids : List Text) :
    Minds P first (s.enrollAll ids) := by
  induction ids with
  | nil => exact Minds.pure
  | cons id rest ih =>
    refine (s.enroll_minds htold id).bind fun enrollment _ => ih.bind fun _ _ => ?_
    cases enrollment with
    | added a => exact Minds.pure
    | known => exact Minds.pure
    | timedOut => exact Minds.pure

theorem grow_minds (htold : P .tooManyDigits) (target : Int) (count : Nat) :
    Minds P first (s.grow target count) := by
  have hend : ∀ (added : List Agent) (timedOut : List Text), Minds P first (do
      info ("Added " ++ counted added ++ " agent(s). The fleet has " ++
        counted (← get).roster.agents ++ " agent(s).")
      return ⟨target, added, [], timedOut, []⟩ : Action ScaleResult) := fun _ _ =>
    Ends.get_bind fun _ _ => (Minds.info _).bind fun _ _ => Minds.pure
  unfold grow
  refine (Minds.info _).bind fun _ _ => (Minds.createInstances _ _ _).bind fun created _ =>
    (s.enrollAll_minds htold _).bind fun enrolled _ => ?_
  dsimp only
  split
  · exact (Minds.warn _).bind fun _ _ => hend _ _
  · exact hend _ _

theorem dismiss_minds (target : Int) (removed : List Agent) :
    Minds P first (s.dismiss target removed) := by
  unfold dismiss
  refine Ends.get_bind fun _ _ => (Minds.info _).bind fun _ _ =>
    (Minds.findInstances _ removed).bind fun found _ =>
      (Minds.idsOf found _ removed).bind fun ids _ => ?_
  dsimp only
  split
  · exact (Minds.info _).bind fun _ _ => Minds.pure
  · exact (Minds.info _).bind fun _ _ => (Minds.terminateInstances _ _).bind fun _ _ => Minds.pure

theorem scaleTo_minds (target : Int) :
    Minds (Misuse.OfScaling s.strategy target) first (s.scaleTo target) := by
  unfold scaleTo
  split
  · rename_i hneg
    refine Ends.throw fun m hm => .inl ?_
    cases hm
    exact .target hneg
  · refine Ends.get_bind fun _ _ => (Minds.info _).bind fun _ _ => ?_
    split
    · exact s.grow_minds .telling _ _
    · split
      · exact (Minds.take _ fun _ h => .strategy h).bind fun removed _ => s.dismiss_minds _ removed
      · exact (Minds.info _).bind fun _ _ => Minds.pure

end Scaler

/-- The misuses of putting agents behind a balancer: a port that is no number. -/
inductive Misuse.OfPorts : Misuse → Prop
  | numeral (fault : Text.NumeralFault) : OfPorts (.badNumeral fault)
  | notANumber : OfPorts .notANumber

section Balancing

variable {P : Misuse → Prop} {first : Situation} (p : Provider)

theorem toWhole_misuse {v : Setting} {f : Fault} {m : Misuse} (h : v.toWhole = .error f)
    (hm : f.trouble = .misuse m) : m.OfPorts := by
  unfold Setting.toWhole at h
  split at h
  · rename_i t
    cases hr : Text.readInteger t with
    | ok n =>
      rw [hr] at h
      cases h
    | error fault =>
      rw [hr] at h
      cases h
      cases hm
      exact .numeral fault
  · cases h
  · cases h
    cases hm
    exact .notANumber
  · rename_i x _
    cases hx : x.whole? with
    | none =>
      rw [hx] at h
      cases h
      cases hm
    | some n =>
      rw [hx] at h
      cases h
  · cases h
  · cases h
    cases hm

theorem numbered_misuse {l : Listener} {f : Fault} {m : Misuse} (h : l.numbered = .error f)
    (hm : f.trouble = .misuse m) : m.OfPorts := by
  rcases except_bind_eq_error.mp h with h | ⟨_, _, h⟩
  · exact toWhole_misuse h hm
  rcases except_bind_eq_error.mp h with h | ⟨_, _, h⟩
  · exact toWhole_misuse h hm
  · cases h

theorem recordName_minds (file dnsName : Text) : Minds P first (recordName file dnsName) :=
  Ends.then_as fun s hs => by
    refine ⟨_, _, recordName_appends file dnsName s, hs.congr rfl rfl rfl, ?_⟩
    split
    · exact Minds.pure
    · split
      · exact Minds.warn _
      · exact Minds.throw fun m hm => by cases hm

theorem notCreated_ne_misuse {name : Text} {f : Fault} {t : Trouble} {m : Misuse}
    (h : notCreated name f = some t) : t ≠ .misuse m := by
  unfold notCreated at h
  split at h
  · cases h
    nofun
  · cases h

theorem ensureBalancer_minds (file : NameFile) (name : Text) (zones : List Text) (l : Listener)
    (hports : ∀ f m, l.numbered = .error f → f.trouble = .misuse m → P m) :
    Minds P first (ensureBalancer p file name zones l) := by
  unfold ensureBalancer
  have hfind : Minds P first (findBalancer p name) :=
    (Minds.describeBalancers p [name]).bind fun _ _ => Minds.pure
  refine hfind.bind fun found _ => ?_
  cases found with
  | some b => exact (Minds.info _).bind fun _ _ => Minds.pure
  | none =>
    refine (Minds.ofExcept hports).bind fun l _ => (Minds.info _).bind fun _ _ =>
      ((Minds.createBalancer p name zones l).explain
        fun _ _ _ => notCreated_ne_misuse).bind fun created _ => ?_
    dsimp only
    split
    · exact (recordName_minds _ _).bind fun _ _ => Minds.pure
    · exact Minds.pure

theorem registerMembers_minds (name : Text) (ids : List Text) :
    Minds P first (registerMembers p name ids) := by
  unfold registerMembers
  split
  · exact Minds.info _
  · exact (Minds.info _).bind fun _ _ => Minds.registerInstances p name ids

theorem addAgents_minds (file : NameFile) (name : Text) (zones : List Text) (l : Listener)
    (hports : ∀ f m, l.numbered = .error f → f.trouble = .misuse m → P m) :
    Minds P first (addAgents p file name zones l) :=
  (ensureBalancer_minds p file name zones l hports).bind fun _ _ => Ends.get_bind fun _ _ =>
    (Minds.findInstances p _).bind fun found _ => (Minds.idsOf found _ _).bind fun ids _ =>
      (registerMembers_minds p name ids).bind fun _ _ => Minds.pure

end Balancing

/-- The misuses of scaling as the settings say: their policy of waiting is unfit, or its bound has
too many digits to be told. -/
inductive Misuse.OfPolicy : Misuse → Prop
  | interval : OfPolicy .negativeInterval
  | attempts : OfPolicy .noAttempts
  | telling : OfPolicy .tooManyDigits

/-- Nobody scales to a negative count, or by a strategy of another name, who scales as the settings
say. -/
theorem Misuse.OfScaling.ofPolicy {count : Nat} {m : Misuse}
    (h : m.OfScaling .oldestFirst count) : m.OfPolicy := by
  cases h with
  | target h => omega
  | strategy h => cases h
  | telling => exact .telling

section BySettings

variable {P : Misuse → Prop} {first : Situation} (p : Provider) (c : Settings)

theorem owned_ne_misuse {f : Fault} (h : f.Owned) (m : Misuse) : f.trouble ≠ .misuse m := by
  rcases h with h | ⟨method, rfl⟩
  · intro hm
    rw [hm] at h
    cases h
  · nofun

/-- A setting that is not whole is told of in the words of the settings. -/
theorem whole_ne_misuse {key : Text} {f : Fault} (h : c.whole key = .error f) (m : Misuse) :
    f.trouble ≠ .misuse m := by
  unfold Settings.whole Settings.wholeOr at h
  dsimp only at h
  cases hv : (c.get key .absent).toWhole with
  | ok n =>
    rw [hv] at h
    cases h
  | error g =>
    rw [hv] at h
    cases h
    dsimp only
    split
    · rename_i hg
      rw [hg]
      nofun
    · nofun

theorem whole_minds (key : Text) : Minds P first (ofExcept (c.whole key)) :=
  Minds.ofExcept fun _ m hf hm => absurd hm (whole_ne_misuse c hf m)

theorem scaleBySettings_minds {count : Int} (hpolicy : ∀ m, m.OfPolicy → P m)
    (hscaling : ∀ m, m.OfScaling .oldestFirst count → P m) :
    Minds P first (scaleBySettings p c count) := by
  have hpoller : ∀ interval attempts,
      Minds P first (ofExcept (Poller.ofPolicy (.whole interval) attempts)) := by
    refine fun interval attempts => Minds.ofExcept fun f m hf hm => hpolicy m ?_
    rcases Poller.ofPolicy_eq_error.mp hf with ⟨_, rfl⟩ | ⟨_, _, rfl⟩
    · cases hm
      exact .interval
    · cases hm
      exact .attempts
  have htemplate : Minds P first (ofExcept (LaunchTemplate.ofSettings c)) :=
    Minds.ofExcept fun f m hf hm => absurd hm (owned_ne_misuse (ofSettings_owned hf) m)
  have hscale : ∀ poller template,
      Minds P first (Scaler.scaleTo ⟨p, template, poller, .oldestFirst⟩ count) :=
    fun poller template => (Scaler.scaleTo_minds _ count).mono hscaling
  unfold scaleBySettings
  refine (whole_minds c _).bind fun interval _ => (whole_minds c _).bind fun attempts _ =>
    (hpoller interval attempts).bind fun poller _ => Ends.get_bind fun s _ => ?_
  dsimp only
  split
  · exact htemplate.bind fun template _ => hscale poller template
  · exact Minds.pure.bind fun template _ => hscale poller template

theorem balanceBySettings_minds (name : Text) :
    Minds P first (balanceBySettings p c name) := by
  unfold balanceBySettings
  dsimp only
  split
  · exact Ends.bind (Q := fun _ => False) (Ends.throw fun m hm => nomatch hm) fun _ h => h.elim
  · refine (whole_minds c "ELB_PORT_IN").bind fun portIn _ =>
      (whole_minds c "ELB_PORT_OUT").bind fun portOut _ => ?_
    refine addAgents_minds p _ name _ _ fun f m hf _ => ?_
    cases hf

end BySettings

namespace Command

variable {s t : Situation} {c : Settings} {f : Fault} {m : Misuse}

/-- A fault comes from outside: the cloud was going to answer with it, or to refuse a session with
it. -/
def Brought (s : Situation) (f : Fault) : Prop :=
  s.InStore f ∨ .error f ∈ s.sessions

theorem opened_misuse {sessions : List (Except Fault Unit)} (h : opened sessions = .error f)
    (hm : f.trouble = .misuse m) : .error f ∈ sessions := by
  unfold opened at h
  cases sessions with
  | nil => cases h
  | cons answer rest =>
    cases answer with
    | ok _ => cases h
    | error g =>
      dsimp only [List.head?_cons, Option.getD_some] at h
      unfold noClients at h
      split at h
      · cases h
        cases hm
      · cases h
        exact List.mem_cons_self

theorem withCloud_misuse {P : Misuse → Prop} {use : Provider → Action α}
    (huse : ∀ first, Minds P first (use .aws))
    (h : (withCloud c use).outcome t = .error f) (hm : f.trouble = .misuse m) :
    P m ∨ Brought t f := by
  have hf : f.trouble.isReported = false := by
    rw [hm]
    rfl
  rw [withCloud_outcome] at h
  rcases except_bind_eq_error.mp h with h | ⟨k, _, h⟩
  · cases (Credentials.load_unreported hf).mp h with
    | path h => cases hm
    | content h => cases hm
  rcases except_bind_eq_error.mp h with h | ⟨_, _, h⟩
  · exact .inr (.inr (opened_misuse h hm))
  · have hexcused := (huse (asking t k (c.value "AWS_REGION"))).fails _ (.refl _) f h m hm
    exact hexcused.imp_right fun hs => .inl (hs.congr rfl rfl)

theorem connector_ne_misuse {load : Link.Loader} {disk : Disk.Store}
    (h : Connector.ofSettings load disk c = .error f) (m : Misuse) : f.trouble ≠ .misuse m := by
  have hraw : ∀ t : Trouble, t.isRaw = true → t ≠ .misuse m := by
    rintro t ht rfl
    cases ht
  rcases except_bind_eq_error.mp h with h | ⟨_, _, h⟩
  · exact whole_ne_misuse c h m
  rcases except_bind_eq_error.mp h with h | ⟨_, _, h⟩
  · exact hraw _ (configure_raw _ _ _ f h)
  rcases except_bind_eq_error.mp h with h | ⟨_, _, h⟩
  · exact hraw _ (identityFile_raw _ _ f h)
  · cases h

/-- The work of a command is misused only by an unfit policy of waiting. -/
theorem work_misuse {command : Command} (h : (command.work c).outcome t = .error f)
    (hm : f.trouble = .misuse m) : m.OfPolicy ∨ Brought t f := by
  cases command with
  | scale count =>
    unfold work at h
    rw [outcome_bind] at h
    rcases except_bind_eq_error.mp h with h | ⟨_, _, h⟩
    · have hscale : ∀ first, Minds Misuse.OfPolicy first (scaleBySettings .aws c count) :=
        fun _ => scaleBySettings_minds .aws c (fun _ hp => hp) fun _ hp => hp.ofPolicy
      exact withCloud_misuse hscale h hm
    · cases h
  | balance name =>
    unfold work at h
    rw [outcome_bind] at h
    rcases except_bind_eq_error.mp h with h | ⟨_, _, h⟩
    · exact withCloud_misuse (fun _ => balanceBySettings_minds .aws c name) h hm
    · cases h
  | broadcast message d =>
    have hrun : (do
        let connector ← ofExcept (Connector.ofSettings t.configuration t.disk c)
        let _ ← AgentFleet.broadcast connector (d.getD .sequential) message :
          Action Unit).outcome t = .error f := h
    rw [outcome_bind] at hrun
    rcases except_bind_eq_error.mp hrun with h | ⟨k, _, h⟩
    · obtain ⟨h, _⟩ := ofExcept_eq_error.mp (run_error h)
      exact absurd hm (connector_ne_misuse h m)
    · rw [outcome_bind] at h
      rcases except_bind_eq_error.mp h with h | ⟨_, _, h⟩
      · have hreported := broadcast_error h
        rw [hm] at hreported
        cases hreported
      · cases h
  | list => cases h

end Command

namespace Invocation

variable {i : Invocation} {s : Situation} {f : Fault} {m : Misuse}

/-- What a command does not read, and nobody reports, is trouble with its files as it came. -/
theorem reading_raw {disk : Disk.Store} (hf : f.trouble.isReported = false)
    (h : i.reading disk = .error f) : f.trouble.isRaw = true := by
  rcases except_bind_eq_error.mp h with h | ⟨_, _, h⟩
  · rcases (settings_unreported hf).mp h with ⟨_, rfl⟩ | ⟨_, rfl, _⟩
    · rfl
    · rfl
  rcases except_bind_eq_error.mp h with h | ⟨_, _, h⟩
  · obtain ⟨_, rfl⟩ := Given.toPath_eq_error.mp h
    rfl
  rcases except_bind_eq_error.mp h with h | ⟨_, _, h⟩
  · obtain ⟨rfl, _⟩ := (Roster.read_unreported hf).mp h
    rfl
  · cases h

/-- A command is misused only by an unfit policy of waiting, whatever its files hold. Any other
misuse that escapes from it came from outside. -/
theorem run_misuse (h : i.run.outcome s = .error f) (hm : f.trouble = .misuse m) :
    m.OfPolicy ∨ Brought s f := by
  obtain ⟨h, hf⟩ := run_outcome_error.mp h
  cases hr : i.reading s.disk with
  | error g =>
    have hunread : i.perform.outcome { s with level := i.level } = .error g := perform_unread hr
    rw [hunread] at h
    cases h
    have hraw := reading_raw hf hr
    rw [hm] at hraw
    cases hraw
  | ok read =>
    obtain ⟨c, r⟩ := read
    obtain ⟨t, hrest, hwork, _⟩ := perform_work (s := { s with level := i.level }) hr
    obtain ⟨told, heard, rfl, _⟩ := hrest
    rw [hwork] at h
    exact (work_misuse h hm).imp_right fun hb => hb.imp_left fun hs => hs.congr rfl rfl

end Invocation

end AgentFleet
