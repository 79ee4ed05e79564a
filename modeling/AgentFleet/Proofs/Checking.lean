import AgentFleet.Proofs.Binding
import AgentFleet.Proofs.Lines
import AgentFleet.Proofs.Managing

namespace AgentFleet
open AgentFleet.Action Cloud

namespace Settings

/-- The number that a setting stands for: the one in its text, or its default if it is not set. -/
inductive Stands (c : Settings) (key : Text) : Int → Prop
  | set (h : c.entries.lookup key = some (.text t)) (hr : Text.readInteger t = .ok n) :
      Stands c key n
  | unset (h : c.entries.lookup key = none)
      (hd : Default.settings.lookup key = some (.whole n)) : Stands c key n

variable {c : Settings} {key : Text} {n : Int}

theorem value_of_set {v : Setting} (h : c.entries.lookup key = some v) : c.value key = v := by
  unfold value get
  rw [h]

theorem value_of_unset (h : c.entries.lookup key = none) :
    c.value key = (Default.settings.lookup key).getD .absent := by
  unfold value get
  rw [h]

theorem OfTexts.set_or_not (hc : c.OfTexts) (key : Text) :
    (∃ t, c.entries.lookup key = some (.text t)) ∨ c.entries.lookup key = none := by
  cases hl : c.entries.lookup key with
  | none => exact .inr rfl
  | some v =>
    obtain ⟨before, after, hsplit, _⟩ := List.lookup_eq_some_iff.mp hl
    obtain ⟨t, rfl⟩ := hc (key, v) (by rw [hsplit]; simp)
    exact .inl ⟨t, rfl⟩

theorem whole_eq (c : Settings) (key : Text) :
    c.whole key = (c.value key).toWhole.mapError fun f =>
      if f.trouble = .infinite then f
      else f.because (.configuration (.notWhole key (c.value key).shown)) := rfl

theorem Stands.whole (h : c.Stands key n) : c.whole key = .ok n := by
  rw [whole_eq]
  cases h with
  | set h hr =>
    rw [value_of_set h, Setting.toWhole, hr]
    rfl
  | unset h hd =>
    rw [value_of_unset h, hd]
    rfl

theorem Stands.unique {m : Int} (h : c.Stands key n) (h' : c.Stands key m) : n = m :=
  Except.ok.inj (h.whole.symm.trans h'.whole)

/-- A setting that stands for no number is reported with its value. -/
theorem whole_misfit (hc : c.OfTexts) (hd : ∃ m, Default.settings.lookup key = some (.whole m))
    (h : ∀ n, ¬ c.Stands key n) : ∃ f, c.whole key = .error f ∧
      f.trouble = .configuration (.notWhole key (c.value key).shown) := by
  rw [whole_eq]
  rcases hc.set_or_not key with ⟨t, ht⟩ | hu
  · rw [value_of_set ht, Setting.toWhole]
    cases hr : Text.readInteger t with
    | ok n => exact absurd (.set ht hr) (h n)
    | error g => exact ⟨_, rfl, rfl⟩
  · obtain ⟨m, hm⟩ := hd
    exact absurd (.unset hu hm) (h m)

/-- A key is not set, or set to nothing. -/
def Lacks (c : Settings) (key : Text) : Prop :=
  c.entries.lookup key = none ∨ c.entries.lookup key = some (.text [])

/-- What the settings say that new instances are made from. -/
def template (c : Settings) : LaunchTemplate :=
  ⟨c.value "AWS_AMI", c.value "AWS_BOXID", c.value "AWS_KEY_NAME", c.value "SECURITY_GROUP",
    c.value "SUBNET_ID"⟩

theorem ofSettings_lacking (h : c.Lacks "AWS_AMI") :
    LaunchTemplate.ofSettings c = .error (.of (.configuration (.notSet "AWS_AMI"))) := by
  have hv : c.value "AWS_AMI" = .absent ∨ c.value "AWS_AMI" = .text [] :=
    h.imp (fun hu => (value_of_unset hu).trans rfl) value_of_set
  unfold LaunchTemplate.ofSettings required
  rw [if_pos hv]
  rfl

theorem ofSettings_given (hc : c.OfTexts) (h : ¬ c.Lacks "AWS_AMI") :
    LaunchTemplate.ofSettings c = .ok c.template := by
  rcases hc.set_or_not "AWS_AMI" with ⟨t, ht⟩ | hu
  · have hv : ¬ (c.value "AWS_AMI" = .absent ∨ c.value "AWS_AMI" = .text []) := by
      rw [value_of_set ht]
      rintro (he | he)
      · cases he
      · cases he
        exact h (.inr ht)
    unfold LaunchTemplate.ofSettings required
    rw [if_neg hv]
    rfl
  · exact absurd (.inl hu) h

/-- What keeps a fleet of so many agents from being scaled to a count as the settings say. Each
objection presumes that those before it do not hold. A setting may be unfit for its place; a number
that was read may be misused. -/
inductive Objection (c : Settings) (agents : Nat) (count : Int) : Trouble → Prop
  | interval (h : ∀ n, ¬ c.Stands "POLL_INTERVAL_SECONDS" n) :
      Objection c agents count (.configuration
        (.notWhole "POLL_INTERVAL_SECONDS" (c.value "POLL_INTERVAL_SECONDS").shown))
  | attempts (hi : c.Stands "POLL_INTERVAL_SECONDS" interval)
      (h : ∀ n, ¬ c.Stands "POLL_MAX_ATTEMPTS" n) :
      Objection c agents count (.configuration
        (.notWhole "POLL_MAX_ATTEMPTS" (c.value "POLL_MAX_ATTEMPTS").shown))
  | negativeInterval (hi : c.Stands "POLL_INTERVAL_SECONDS" interval)
      (ha : c.Stands "POLL_MAX_ATTEMPTS" attempts) (h : interval < 0) :
      Objection c agents count (.misuse .negativeInterval)
  | noAttempts (hi : c.Stands "POLL_INTERVAL_SECONDS" interval)
      (ha : c.Stands "POLL_MAX_ATTEMPTS" attempts) (hpos : 0 ≤ interval) (h : attempts < 1) :
      Objection c agents count (.misuse .noAttempts)
  | noImage (hi : c.Stands "POLL_INTERVAL_SECONDS" interval)
      (ha : c.Stands "POLL_MAX_ATTEMPTS" attempts) (hpos : 0 ≤ interval) (hone : 1 ≤ attempts)
      (hgrow : agents < count) (h : c.Lacks "AWS_AMI") :
      Objection c agents count (.configuration (.notSet "AWS_AMI"))
  | negativeTarget (hi : c.Stands "POLL_INTERVAL_SECONDS" interval)
      (ha : c.Stands "POLL_MAX_ATTEMPTS" attempts) (hpos : 0 ≤ interval) (hone : 1 ≤ attempts)
      (h : count < 0) : Objection c agents count (.misuse (.negativeTarget count))

theorem poller_of_stands {interval attempts : Int} (hi : c.Stands "POLL_INTERVAL_SECONDS" interval)
    (ha : c.Stands "POLL_MAX_ATTEMPTS" attempts) :
    c.poller = Poller.ofPolicy (.whole interval) attempts := by
  unfold poller
  rw [hi.whole, ha.whole]
  rfl

theorem poller_fit {interval attempts : Int} (hi : c.Stands "POLL_INTERVAL_SECONDS" interval)
    (ha : c.Stands "POLL_MAX_ATTEMPTS" attempts) (hpos : 0 ≤ interval) (hone : 1 ≤ attempts) :
    c.poller = .ok ⟨.whole interval, attempts⟩ := by
  rw [poller_of_stands hi ha]
  cases hp : Poller.ofPolicy (.whole interval) attempts with
  | ok p => rw [(Poller.eq_of_ofPolicy hp).1]
  | error f => rcases Poller.ofPolicy_eq_error.mp hp with ⟨h, _⟩ | ⟨_, h, _⟩ <;> omega

end Settings

open Settings

variable {c : Settings} {p : Provider} {s : Situation} {count : Int}

theorem Scaler.scaleTo_negative (h : count < 0) (scaler : Scaler) :
    scaler.scaleTo count s = .error (.of (.misuse (.negativeTarget count))) s := by
  unfold Scaler.scaleTo
  rw [if_pos h]
  rfl

/-- No template is looked at but to grow. -/
theorem Scaler.scaleTo_template {poller : Poller} {strategy : Strategy}
    (h : ¬ s.roster.agents.length < count) (template other : LaunchTemplate) :
    Scaler.scaleTo ⟨p, template, poller, strategy⟩ count s =
      Scaler.scaleTo ⟨p, other, poller, strategy⟩ count s := by
  unfold Scaler.scaleTo
  by_cases hneg : count < 0
  · rw [if_pos hneg, if_pos hneg]
    rfl
  · rw [if_neg hneg, if_neg hneg]
    simp only [get_bind_run, if_neg h]
    rfl

theorem scaleBySettings_objection {t : Trouble} (hc : c.OfTexts)
    (h : c.Objection s.roster.agents.length count t) :
    ∃ f, f.trouble = t ∧ scaleBySettings p c count s = .error f s := by
  cases h with
  | interval h =>
    obtain ⟨f, hf, ht⟩ := whole_misfit hc default_pollInterval h
    refine ⟨f, ht, scaleBySettings_unpolled ?_ s⟩
    rw [poller, hf]
    rfl
  | attempts hi h =>
    obtain ⟨f, hf, ht⟩ := whole_misfit hc default_pollAttempts h
    refine ⟨f, ht, scaleBySettings_unpolled ?_ s⟩
    rw [poller, hi.whole, hf]
    rfl
  | negativeInterval hi ha h =>
    refine ⟨.of _, rfl, scaleBySettings_unpolled ?_ s⟩
    rw [poller_of_stands hi ha]
    exact Poller.ofPolicy_eq_error.mpr (.inl ⟨h, rfl⟩)
  | noAttempts hi ha hpos h =>
    refine ⟨.of _, rfl, scaleBySettings_unpolled ?_ s⟩
    rw [poller_of_stands hi ha]
    exact Poller.ofPolicy_eq_error.mpr (.inr ⟨hpos, h, rfl⟩)
  | noImage hi ha hpos hone hgrow h =>
    refine ⟨.of _, rfl, ?_⟩
    rw [scaleBySettings_polled (poller_fit hi ha hpos hone), if_pos hgrow, ofSettings_lacking h]
    exact bind_run_error (ofExcept_error_run _)
  | negativeTarget hi ha hpos hone h =>
    refine ⟨.of _, rfl, ?_⟩
    rw [scaleBySettings_kept (poller_fit hi ha hpos hone) (by omega)]
    exact Scaler.scaleTo_negative h _

/-- Where there is no objection the fleet is scaled, with the template that is described if it is
to grow. -/
theorem scaleBySettings_fit (hc : c.OfTexts)
    (h : ∀ t, ¬ c.Objection s.roster.agents.length count t) : ∃ interval attempts,
    c.Stands "POLL_INTERVAL_SECONDS" interval ∧ c.Stands "POLL_MAX_ATTEMPTS" attempts ∧
    ∀ template, (s.roster.agents.length < count → template = c.template) →
      scaleBySettings p c count s =
        Scaler.scaleTo ⟨p, template, ⟨.whole interval, attempts⟩, .oldestFirst⟩ count s := by
  obtain ⟨interval, hi⟩ := Classical.not_forall_not.mp fun hno => h _ (.interval hno)
  obtain ⟨attempts, ha⟩ := Classical.not_forall_not.mp fun hno => h _ (.attempts hi hno)
  have hpos : 0 ≤ interval := Int.not_lt.mp fun hneg => h _ (.negativeInterval hi ha hneg)
  have hone : 1 ≤ attempts := Int.not_lt.mp fun hless => h _ (.noAttempts hi ha hpos hless)
  refine ⟨interval, attempts, hi, ha, fun template htemplate => ?_⟩
  have hfit := poller_fit hi ha hpos hone
  by_cases hgrow : s.roster.agents.length < count
  · have hgiven := ofSettings_given hc fun hl => h _ (.noImage hi ha hpos hone hgrow hl)
    rw [htemplate hgrow]
    exact scaleBySettings_growing hfit hgiven hgrow
  · exact (scaleBySettings_kept hfit hgrow).trans (Scaler.scaleTo_template hgrow _ _)

/-- The value names no zone: there is nothing but blanks between its commas. -/
def Settings.NamesNoZone (c : Settings) : Prop :=
  ∃ t, c.value "ELB_ZONES" = .text t ∧ ∀ piece ∈ fields (.char ',') t, Text.Blank piece

/-- What keeps agents from being put behind a balancer as the settings say. -/
def Settings.Unbalanced (c : Settings) : Prop :=
  c.NamesNoZone ∨ (∀ n, ¬ c.Stands "ELB_PORT_IN" n) ∨ ∀ n, ¬ c.Stands "ELB_PORT_OUT" n

theorem Settings.list_of_text {key t : Text} (h : c.value key = .text t) :
    c.list key = ((fields (.char ',') t).map Text.strip).filter (· ≠ []) := by
  unfold Settings.list
  rw [h]
  cases t with
  | nil => rfl
  | cons q r => rfl

theorem Settings.list_eq_nil_iff (hc : c.OfTexts) : c.list "ELB_ZONES" = [] ↔ c.NamesNoZone := by
  have htext : ∃ t, c.value "ELB_ZONES" = .text t := by
    rcases hc.set_or_not "ELB_ZONES" with ⟨t, ht⟩ | hu
    · exact ⟨t, value_of_set ht⟩
    · exact ⟨_, value_of_unset hu⟩
  obtain ⟨t, ht⟩ := htext
  have hblank : c.list "ELB_ZONES" = [] ↔ ∀ piece ∈ fields (.char ',') t, Text.Blank piece := by
    simp [list_of_text ht, List.filter_eq_nil_iff, Text.strip_eq_nil]
  rw [hblank]
  constructor
  · exact fun h => ⟨t, ht, h⟩
  · rintro ⟨u, hu, h⟩
    cases ht.symm.trans hu
    exact h

theorem balanceBySettings_unbalanced (hc : c.OfTexts) (h : c.Unbalanced) (name : Text) :
    ∃ f, balanceBySettings p c name s = .error f s ∧ f.trouble.kind = .configuration := by
  unfold balanceBySettings
  dsimp only
  by_cases hz : c.list "ELB_ZONES" = []
  · rw [if_pos hz]
    exact ⟨_, rfl, rfl⟩
  rw [if_neg hz]
  by_cases hin : ∀ n, ¬ c.Stands "ELB_PORT_IN" n
  · obtain ⟨f, hf, ht⟩ := whole_misfit hc ⟨_, rfl⟩ hin
    exact ⟨f, by rw [hf]; exact bind_run_error (ofExcept_error_run f), by rw [ht]; rfl⟩
  obtain ⟨portIn, hin⟩ := Classical.not_forall_not.mp hin
  rcases h with hno | hno | hout
  · exact absurd ((list_eq_nil_iff hc).mpr hno) hz
  · exact absurd hin (hno portIn)
  · obtain ⟨f, hf, ht⟩ := whole_misfit hc ⟨_, rfl⟩ hout
    refine ⟨f, ?_, by rw [ht]; rfl⟩
    rw [hin.whole, hf]
    exact (bind_run (ofExcept_ok_run portIn)).trans (bind_run_error (ofExcept_error_run f))

theorem balanceBySettings_fit (hc : c.OfTexts) (h : ¬ c.Unbalanced) (name : Text) :
    ∃ portIn portOut, balanceBySettings p c name s = BalancerCall.serve ⟨name, c.list "ELB_ZONES",
      ⟨c.value "ELB_PROTOCOL", .whole portIn, .whole portOut⟩⟩ p
      (some Default.balancerFile) s := by
  obtain ⟨hz, hports⟩ := not_or.mp h
  obtain ⟨hin, hout⟩ := not_or.mp hports
  obtain ⟨portIn, hin⟩ := Classical.not_forall_not.mp hin
  obtain ⟨portOut, hout⟩ := Classical.not_forall_not.mp hout
  refine ⟨portIn, portOut, ?_⟩
  unfold balanceBySettings
  dsimp only
  rw [if_neg (mt (list_eq_nil_iff hc).mp hz), hin.whole, hout.whole]
  exact (bind_run (ofExcept_ok_run portIn)).trans (bind_run (ofExcept_ok_run portOut))

namespace BalancerCall

/-- A call starts with a request for the balancers there are. -/
theorem run_describes (p : Provider) (file : NameFile) (call : BalancerCall) (s : Situation) :
    ∃ more disk, s.Asks (.describe [call.name] :: more) disk ((call.run p file).after s) := by
  have hstep := step p file call s
  unfold after
  generalize call.run p file s = result at hstep ⊢
  cases hstep with
  | undescribed _ h => exact ⟨_, _, h⟩
  | found _ _ h => exact ⟨_, _, h⟩
  | misnumbered _ _ h => exact ⟨_, _, h⟩
  | uncreated _ _ _ h => exact ⟨_, _, h⟩
  | created _ _ _ _ h => exact ⟨_, _, h⟩
  | unrecorded _ _ _ _ _ h => exact ⟨_, _, h⟩

theorem operation_of_balancerRequest {e : Event} {r : BalancerRequest}
    (h : e.balancerRequest? = some r) : e.operation? ≠ none := by
  cases e with
  | asked | sent => nofun
  | _ => cases h

/-- To put agents behind a balancer something is asked of the cloud, whatever comes of it. -/
theorem serve_calls (p : Provider) (file : NameFile) (call : BalancerCall) (s : Situation) :
    ¬ s.Shows Event.operation? [] ((call.serve p file).after s) := by
  obtain ⟨more, disk, _, _, done, hdone, hasked, _⟩ := run_describes p file call s
  have hlater : ∃ later : List Event,
      ((call.serve p file).after s).history = later ++ ((call.run p file).after s).history := by
    rw [serve_eq, after_bind]
    cases (call.run p file).outcome s with
    | error f => exact ⟨[], rfl⟩
    | ok b =>
      obtain ⟨_, _, since, hsince, _⟩ := enlist_binding p call.name ((call.run p file).after s)
      exact ⟨since.reverse, hsince⟩
  obtain ⟨later, hlater⟩ := hlater
  rintro ⟨all, hall, hnone⟩
  have hparts : all.reverse ++ s.history = later ++ done ++ s.history := by
    rw [← hall, hlater, hdone, List.append_assoc]
  obtain ⟨e, he, hrequest⟩ : ∃ e ∈ done.reverse,
      e.balancerRequest? = some (.describe [call.name]) :=
    List.mem_filterMap.mp (hasked ▸ List.mem_cons_self)
  have hall : e ∈ all := by
    rw [← List.mem_reverse, List.append_cancel_right hparts]
    exact List.mem_append_right _ (List.mem_reverse.mp he)
  exact operation_of_balancerRequest hrequest (List.filterMap_eq_nil_iff.mp hnone e hall)

end BalancerCall

/-- Settings that were loaded are checked before anything is done. To an unfit policy of waiting, to
an image that is missing and needed, and to a negative count there is an objection, the first that
applies, and nothing has happened. Otherwise the fleet is scaled as the settings describe. To put
agents behind a balancer fails for its configuration with nothing asked and nothing written exactly
if no zone is named or a port is no number. -/
theorem settings_checked {disk : Disk.Store} {path : Option Text}
    (hload : Settings.load disk path [] = .ok c) (p : Provider) (s : Situation) :
    (∀ count t, c.Objection s.roster.agents.length count t →
      ∃ f, f.trouble = t ∧ scaleBySettings p c count s = .error f s) ∧
    (∀ count, (∀ t, ¬ c.Objection s.roster.agents.length count t) → ∃ interval attempts,
      c.Stands "POLL_INTERVAL_SECONDS" interval ∧ c.Stands "POLL_MAX_ATTEMPTS" attempts ∧
      ∀ template, (s.roster.agents.length < count → template = c.template) →
        scaleBySettings p c count s =
          Scaler.scaleTo ⟨p, template, ⟨.whole interval, attempts⟩, .oldestFirst⟩ count s) ∧
    ∀ name, (∃ f t, balanceBySettings p c name s = .error f t ∧ f.trouble.kind = .configuration ∧
      s.Shows Event.operation? [] t ∧ t.disk = s.disk) ↔
        c.NamesNoZone ∨ (∀ n, ¬ c.Stands "ELB_PORT_IN" n) ∨ ∀ n, ¬ c.Stands "ELB_PORT_OUT" n := by
  have hc := ofTexts_of_load hload
  refine ⟨fun _ _ => scaleBySettings_objection hc, fun _ => scaleBySettings_fit hc,
    fun name => ⟨?_, fun h => ?_⟩⟩
  · rintro ⟨f, t, hrun, _, hshows, _⟩
    refine Classical.byContradiction fun hfit => ?_
    obtain ⟨portIn, portOut, hserve⟩ := balanceBySettings_fit (s := s) (p := p) hc hfit name
    rw [← after_of_error hrun, after_congr hserve] at hshows
    exact BalancerCall.serve_calls _ _ _ _ hshows
  · obtain ⟨f, hrun, hkind⟩ := balanceBySettings_unbalanced (s := s) (p := p) hc h name
    exact ⟨f, s, hrun, hkind, .refl s, rfl⟩

/-- A file that names neither an image nor a zone. -/
def imageless : Text := "POLL_INTERVAL_SECONDS=0\nELB_ZONES= ,\n"

/-- No agent is there. One would need an image, and a balancer would need a zone. -/
theorem settings_checked_imageless :
    let c : Settings := ⟨some "a", [("POLL_INTERVAL_SECONDS", .text "0"), ("ELB_ZONES", .text ",")]⟩
    let s := Situation.bare (.holding imageless) ⟨"f", []⟩
    (∃ f, f.trouble = .configuration (.notSet "AWS_AMI") ∧
      scaleBySettings .aws c 1 s = .error f s) ∧
    scaleBySettings .aws c 0 s = Scaler.scaleTo ⟨.aws, .blank, ⟨.whole 0, 12⟩, .oldestFirst⟩ 0 s ∧
    ∃ f t, balanceBySettings .aws c "b" s = .error f t ∧ f.trouble.kind = .configuration ∧
      s.Shows Event.operation? [] t ∧ t.disk = s.disk := by
  intro c s
  have hload : Settings.load (.holding imageless) (some "a") [] = .ok c := by decide +kernel
  obtain ⟨hobjection, hfit, hbalance⟩ := settings_checked hload .aws s
  have hi : c.Stands "POLL_INTERVAL_SECONDS" 0 := .set (t := "0") rfl rfl
  have ha : c.Stands "POLL_MAX_ATTEMPTS" 12 := .unset rfl rfl
  refine ⟨hobjection 1 _ (.noImage hi ha (by decide) (by decide) (by decide) (.inl rfl)), ?_,
    (hbalance "b").mpr (.inl ⟨",", rfl, by decide⟩)⟩
  have hno : ∀ t, ¬ c.Objection s.roster.agents.length 0 t := by
    intro t h
    cases h with
    | interval h => exact h 0 hi
    | attempts _ h => exact h 12 ha
    | negativeInterval hi' _ h =>
      cases hi.unique hi'
      exact absurd h (by decide)
    | noAttempts _ ha' _ h =>
      cases ha.unique ha'
      exact absurd h (by decide)
    | noImage _ _ _ _ hgrow _ => exact absurd hgrow (by decide)
    | negativeTarget _ _ _ _ h => exact absurd h (by decide)
  obtain ⟨interval, attempts, hi', ha', hscale⟩ := hfit 0 hno
  have hscaled := hscale .blank fun hgrow => absurd hgrow (by decide)
  rwa [← hi.unique hi', ← ha.unique ha'] at hscaled

end AgentFleet
