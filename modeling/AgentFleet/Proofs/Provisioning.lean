import AgentFleet.Balancing
import AgentFleet.Proofs.Appending
import AgentFleet.Proofs.Watching

namespace AgentFleet
open AgentFleet.Action Cloud

inductive BalancerRequest
  | describe (names : List Text)
  | create (name : Text) (zones : List Text) (listener : Listener)
  deriving DecidableEq, Repr

def Event.balancerRequest? : Event → Option BalancerRequest
  | .asked (.describeBalancers names) .. => some (.describe names)
  | .sent (.describeBalancers names) .. => some (.describe names)
  | .asked (.createBalancer name zones l) .. => some (.create name zones l)
  | .sent (.createBalancer name zones l) .. => some (.create name zones l)
  | _ => none

namespace Situation

/-- What the cloud was asked about balancers since a first situation, in order. -/
def balancerRequestsSince (first s : Situation) : List BalancerRequest :=
  (s.history.take (s.history.length - first.history.length)).reverse.filterMap
    Event.balancerRequest?

/-- `t` is `s` after requests about balancers, with this disk in the end. At each of them disk and
roster stood as in `s`. -/
structure Asks (requests : List BalancerRequest) (disk : Disk.Store) (s t : Situation) : Prop where
  disk_eq : t.disk = disk
  roster_eq : t.roster = s.roster
  since : ∃ done, t.history = done ++ s.history ∧
    done.reverse.filterMap Event.balancerRequest? = requests ∧
    ∀ e ∈ done, ∀ m, e.moment? = some m → m = (s.disk, s.roster)

namespace Asks

variable {requests more : List BalancerRequest} {disk : Disk.Store} {s t u : Situation}

theorem requests_eq (h : Asks requests disk s t) : s.balancerRequestsSince t = requests := by
  obtain ⟨_, _, done, hhistory, hrequests, _⟩ := h
  unfold balancerRequestsSince
  rw [hhistory, List.length_append, Nat.add_sub_cancel, List.take_left, hrequests]

theorem moments (h : Asks requests disk s t) : ∀ m ∈ s.momentsSince t, m = (s.disk, s.roster) := by
  obtain ⟨_, _, done, hhistory, _, hmoments⟩ := h
  intro m hm
  rw [momentsSince_eq hhistory] at hm
  obtain ⟨e, he, hem⟩ := List.mem_filterMap.mp hm
  exact hmoments e he m hem

theorem of_event {e : Event} (hdisk : t.disk = s.disk) (hroster : t.roster = s.roster)
    (hhistory : t.history = e :: s.history)
    (he : ∀ m, e.moment? = some m → m = (s.disk, s.roster)) :
    Asks e.balancerRequest?.toList s.disk s t := by
  refine ⟨hdisk, hroster, [e], hhistory, ?_, List.forall_mem_singleton.mpr he⟩
  cases hr : e.balancerRequest? <;> simp [hr]

/-- The disk may change at the end only. -/
theorem trans (h : Asks requests s.disk s t) (h' : Asks more disk t u) :
    Asks (requests ++ more) disk s u := by
  obtain ⟨hdisk, hroster, done, hhistory, hrequests, hmoments⟩ := h
  obtain ⟨hdisk', hroster', done', hhistory', hrequests', hmoments'⟩ := h'
  refine ⟨hdisk', hroster'.trans hroster, done' ++ done, ?_, ?_, ?_⟩
  · rw [hhistory', hhistory, List.append_assoc]
  · rw [List.reverse_append, List.filterMap_append, hrequests, hrequests']
  · intro e he m hm
    rcases List.mem_append.mp he with he | he
    · rw [hmoments' e he m hm, hdisk, hroster]
    · exact hmoments e he m hm

theorem refl (s : Situation) : Asks [] s.disk s s :=
  ⟨rfl, rfl, [], rfl, rfl, fun _ h => nomatch h⟩

/-- Telling is no request. -/
theorem told (h : Asks requests disk s t) (ht : Told t u) : Asks requests disk s u := by
  obtain ⟨hdisk, hroster, done, hhistory, hrequests, hmoments⟩ := h
  obtain ⟨lines, rfl, hlogged⟩ := ht
  have hnone : lines.reverse.filterMap Event.balancerRequest? = [] := by
    apply List.filterMap_eq_nil_iff.mpr
    intro e he
    obtain ⟨severity, text, rfl⟩ := hlogged e (List.mem_reverse.mp he)
    rfl
  refine ⟨hdisk, hroster, lines ++ done, ?_, ?_, ?_⟩
  · rw [List.append_assoc, ← hhistory]
  · rw [List.reverse_append, List.filterMap_append, hrequests, hnone, List.append_nil]
  · intro e he m hm
    rcases List.mem_append.mp he with he | he
    · rw [moment?_of_told hlogged e he] at hm
      cases hm
    · exact hmoments e he m hm

end Asks

end Situation

open Situation

theorem asks_ask (r : Service.Request) (s : Situation) :
    Asks (Event.asked r s.disk s.roster).balancerRequest?.toList s.disk s ((ask r).after s) := by
  rw [after_ask]
  apply Asks.of_event
  · rfl
  · rfl
  · rfl
  · intro m hm
    exact (Option.some.inj hm).symm

theorem asks_send (r : Aws.Request) (s : Situation) :
    Asks (Event.sent r s.disk s.roster).balancerRequest?.toList s.disk s ((send r).after s) := by
  rw [after_send]
  apply Asks.of_event
  · rfl
  · rfl
  · rfl
  · intro m hm
    exact (Option.some.inj hm).symm

namespace Cloud

theorem Aws.after_describeBalancers (names : List Text) (s : Situation) :
    (describeBalancers names).after s = (send (.describeBalancers names)).after s := by
  have hsend : Brings (· = s) (send (.describeBalancers names))
      (· = (send (.describeBalancers names)).after s) Any :=
    Brings.of_after fun t ht => by rw [ht]
  have hall : Brings (· = s) (describeBalancers names)
      (· = (send (.describeBalancers names)).after s) Any := by
    apply hsend.attempt.bind
    intro answer _
    cases answer with
    | ok descriptions => exact Brings.ofAny
    | error f =>
      dsimp only
      split
      · exact Brings.pure trivial
      · split
        · exact Brings.throw
        · exact Brings.throw
  exact hall.after rfl

theorem Aws.after_createBalancer (name : Text) (zones : List Text) (l : Listener) (s : Situation) :
    (createBalancer name zones l).after s = (send (.createBalancer name zones l)).after s := by
  unfold createBalancer
  rw [after_bind, call, after_explain]
  split <;> rfl

namespace Provider

variable (c : Provider) (s : Situation)

theorem asks_describeBalancers (names : List Text) :
    Asks [.describe names] s.disk s ((c.describeBalancers names).after s) ∧
      SameAnswers .createBalancer s ((c.describeBalancers names).after s) := by
  cases c with
  | service =>
    have hcalled := called_ask (.describeBalancers names) s
    exact ⟨asks_ask (.describeBalancers names) s,
      hcalled.sameAnswers (by simp [Service.Request.operation])⟩
  | aws =>
    have hcalled := called_send (.describeBalancers names) s
    change Asks _ _ _ ((Aws.describeBalancers names).after s) ∧
      SameAnswers _ _ ((Aws.describeBalancers names).after s)
    rw [Aws.after_describeBalancers]
    exact ⟨asks_send (.describeBalancers names) s,
      hcalled.sameAnswers (by simp [Aws.Request.operation])⟩

theorem asks_createBalancer (name : Text) (zones : List Text) (l : Listener) :
    Asks [.create name zones l] s.disk s ((c.createBalancer name zones l).after s) := by
  cases c with
  | service => exact asks_ask (.createBalancer name zones l) s
  | aws =>
    change Asks _ _ _ ((Aws.createBalancer name zones l).after s)
    rw [Aws.after_createBalancer]
    exact asks_send (.createBalancer name zones l) s

theorem alike_createBalancer (name : Text) (zones : List Text) (l : Listener) :
    Alike (SameAnswers .createBalancer) (c.createBalancer name zones l) := by
  cases c with
  | service => exact alike_ask (.createBalancer name zones l)
  | aws => exact (alike_call (.createBalancer name zones l)).bind fun _ => Alike.pure _

end Provider

end Cloud

/-- Only what is no refusal of the system is passed on. -/
theorem recordName_run (path dnsName : Text) (s : Situation) :
    ∃ t, Asks [] (s.disk.append (s.disk.expand path) (dnsName ++ "\n")).2 s t ∧
      recordName path dnsName s =
        match (s.disk.append (s.disk.expand path) (dnsName ++ "\n")).1 with
        | .ok () => .ok () t
        | .error f => if f.isSystem then .ok () t else .error (.of (.disk f)) t := by
  rw [recordName_appends]
  cases s.disk.append (s.disk.expand path) (dnsName ++ "\n") with
  | mk result disk =>
    have hmoved : Asks [] disk s { s with disk } := ⟨rfl, rfl, (Asks.refl s).since⟩
    cases result with
    | ok _ => exact ⟨_, hmoved, rfl⟩
    | error f =>
      by_cases hf : f.isSystem = true
      · obtain ⟨t, hwarn, htold⟩ := warn_told ("Unable to record DNS name " ++ dnsName ++ " in " ++
          path ++ ": " ++ f.message) { s with disk }
        refine ⟨t, hmoved.told htold, ?_⟩
        simp only [hf, if_true]
        exact hwarn
      · refine ⟨_, hmoved, ?_⟩
        simp only [hf]
        rfl

namespace NameFile

/-- Where the line for a balancer goes, and the line. -/
def line? (file : NameFile) (b : Balancer) : Option (Text × Text) :=
  match present? file, present? b.dnsName with
  | some path, some dnsName => some (path, dnsName ++ "\n")
  | _, _ => none

/-- Add the line for a balancer, if there is one. -/
def append (file : NameFile) (b : Balancer) (disk : Disk.Store) :
    Except Disk.Fault Unit × Disk.Store :=
  match file.line? b with
  | some (path, line) => disk.append (disk.expand path) line
  | none => (.ok (), disk)

/-- The lines that are added for a balancer: one at most. -/
def added (file : NameFile) (b : Balancer) (disk : Disk.Store) : List Text :=
  match file.line? b, (file.append b disk).1 with
  | some (_, line), .ok () => [line]
  | _, _ => []

variable (file : NameFile) (b : Balancer)

theorem contents_append {path : Text} (h : present? file = some path) (disk : Disk.Store) :
    (file.append b disk).2.contents path =
      (file.added b disk).foldl Disk.Content.add (disk.contents path) := by
  unfold added append line?
  rw [h]
  cases hd : present? b.dnsName with
  | none => rfl
  | some dnsName =>
    dsimp only
    rw [Disk.Store.contents_append]
    cases (disk.append (disk.expand path) (dnsName ++ "\n")).1 <;> rfl

/-- What is done about the name of a new balancer. -/
def record (file : NameFile) (b : Balancer) : Action Unit :=
  match present? file, present? b.dnsName with
  | some file, some dnsName => recordName file dnsName
  | _, _ => pure ()

theorem record_run (s : Situation) :
    ∃ t, Asks [] (file.append b s.disk).2 s t ∧ file.record b s =
      match (file.append b s.disk).1 with
      | .ok () => .ok () t
      | .error f => if f.isSystem then .ok () t else .error (.of (.disk f)) t := by
  unfold record append line?
  cases present? file with
  | none => exact ⟨s, .refl s, rfl⟩
  | some path =>
    cases present? b.dnsName with
    | none => exact ⟨s, .refl s, rfl⟩
    | some dnsName => exact recordName_run path dnsName s

end NameFile

structure BalancerCall where
  name : Text
  zones : List Text
  listener : Listener
  deriving DecidableEq, Repr

namespace BalancerCall

def run (call : BalancerCall) (c : Provider) (file : NameFile) : Action Balancer :=
  ensureBalancer c file call.name call.zones call.listener

/-- What a failure to create the balancer is led on to. -/
def failure (call : BalancerCall) (f : Fault) : Fault :=
  ((notCreated call.name f).map f.because).getD f

/-- The cloud tells what balancers there are, none of them of the name. -/
def IsNew (c : Provider) (call : BalancerCall) (s : Situation) : Prop :=
  ∃ all, (c.describeBalancers [call.name]).outcome s = .ok all ∧ ∀ b ∈ all, b.name ≠ call.name

/-- What comes of the request for the creation, with the listener in numbers. -/
def creation (c : Provider) (call : BalancerCall) (l : Listener) (s : Situation) :
    Except Fault Balancer :=
  (c.createBalancer call.name call.zones l).outcome s

/-- All that a call can do. -/
inductive Step (c : Provider) (file : NameFile) (call : BalancerCall) (s : Situation) :
    EStateM.Result Fault Situation Balancer → Prop
  | undescribed {f : Fault} {t : Situation} :
      (c.describeBalancers [call.name]).outcome s = .error f →
      Asks [.describe [call.name]] s.disk s t → Step c file call s (.error f t)
  | found {all : List Balancer} {b : Balancer} {t : Situation} :
      (c.describeBalancers [call.name]).outcome s = .ok all →
      all.find? (·.name = call.name) = some b →
      Asks [.describe [call.name]] s.disk s t → Step c file call s (.ok b t)
  | misnumbered {f : Fault} {t : Situation} :
      call.IsNew c s → call.listener.numbered = .error f →
      Asks [.describe [call.name]] s.disk s t → Step c file call s (.error f t)
  | uncreated {l : Listener} {f : Fault} {t : Situation} :
      call.IsNew c s → call.listener.numbered = .ok l → call.creation c l s = .error f →
      Asks [.describe [call.name], .create call.name call.zones l] s.disk s t →
      Step c file call s (.error (call.failure f) t)
  | created {l : Listener} {b : Balancer} {t : Situation} :
      call.IsNew c s → call.listener.numbered = .ok l → call.creation c l s = .ok b →
      (∀ f, (file.append b s.disk).1 = .error f → f.isSystem = true) →
      Asks [.describe [call.name], .create call.name call.zones l] (file.append b s.disk).2 s t →
      Step c file call s (.ok b t)
  | unrecorded {l : Listener} {b : Balancer} {f : Disk.Fault} {t : Situation} :
      call.IsNew c s → call.listener.numbered = .ok l → call.creation c l s = .ok b →
      (file.append b s.disk).1 = .error f → f.isSystem = false →
      Asks [.describe [call.name], .create call.name call.zones l] (file.append b s.disk).2 s t →
      Step c file call s (.error (.of (.disk f)) t)

/-- What a call does once it knows that there is no balancer of the name. -/
def create (c : Provider) (file : NameFile) (call : BalancerCall) (l : Listener) :
    Action Balancer := do
  info ("Creating load balancer " ++ call.name ++ " in zone(s) " ++ Text.join "," call.zones ++
    " with listener " ++ l.protocol.shown ++ " " ++ l.portIn.shown ++ " -> " ++ l.portOut.shown)
  let created ← (c.createBalancer call.name call.zones l).explain (notCreated call.name)
  file.record created
  return created

variable {c : Provider} {file : NameFile} {call : BalancerCall} {s u : Situation} {l : Listener}

/-- The end of a call, when the balancer is there. -/
theorem step_recorded {b : Balancer} (hnew : call.IsNew c s) (hl : call.listener.numbered = .ok l)
    (hc : call.creation c l s = .ok b)
    (hasked : Asks [.describe [call.name], .create call.name call.zones l] s.disk s u) :
    Step c file call s ((do
      file.record b
      return b : Action Balancer) u) := by
  obtain ⟨v, hrecorded, hrecord⟩ := file.record_run b u
  rw [hasked.disk_eq] at hrecorded hrecord
  have hdone := hasked.trans hrecorded
  cases happ : (file.append b s.disk).1 with
  | ok _ =>
    rw [happ] at hrecord
    rw [bind_run hrecord]
    refine .created hnew hl hc (fun f hf => ?_) hdone
    cases happ.symm.trans hf
  | error f =>
    rw [happ] at hrecord
    dsimp only at hrecord
    split at hrecord
    · rename_i hsystem
      rw [bind_run hrecord]
      refine .created hnew hl hc (fun g hg => ?_) hdone
      cases happ.symm.trans hg
      exact hsystem
    · rename_i hsystem
      rw [bind_run_error hrecord]
      exact .unrecorded hnew hl hc happ (by simpa using hsystem) hdone

theorem step_create (hnew : call.IsNew c s) (hl : call.listener.numbered = .ok l)
    (hasked : Asks [.describe [call.name]] s.disk s u) (hsame : SameAnswers .createBalancer s u) :
    Step c file call s (call.create c file l u) := by
  obtain ⟨t, hinfo, htold⟩ := info_told ("Creating load balancer " ++ call.name ++ " in zone(s) " ++
    Text.join "," call.zones ++ " with listener " ++ l.protocol.shown ++ " " ++ l.portIn.shown ++
    " -> " ++ l.portOut.shown) u
  -- What was told and asked before takes nothing from the answers to the creation.
  have houtcome : call.creation c l t = call.creation c l s := by
    have htold' := htold.sameAnswers .createBalancer
    have hst : SameAnswers .createBalancer s t :=
      ⟨hsame.1.trans htold'.1, hsame.2.trans htold'.2⟩
    exact (c.alike_createBalancer call.name call.zones l s t hst).1.symm
  have hcreate := c.asks_createBalancer t call.name call.zones l
  rw [(hasked.told htold).disk_eq] at hcreate
  have hall := (hasked.told htold).trans hcreate
  cases hc : call.creation c l s with
  | error f =>
    have hrun : call.create c file l u = .error (call.failure f) _ :=
      (bind_run hinfo).trans
        (bind_run_error (explain_error_run _ (run_error (houtcome.trans hc))))
    rw [hrun]
    exact .uncreated hnew hl hc hall
  | ok b =>
    have hcreated := explain_ok_run (notCreated call.name) (run_ok (houtcome.trans hc))
    have hrun : call.create c file l u = (do
        file.record b
        return b : Action Balancer) _ := (bind_run hinfo).trans (bind_run hcreated)
    rw [hrun]
    exact step_recorded hnew hl hc hall

theorem run_new (hfind : findBalancer c call.name s = .ok none u) :
    call.run c file s = (do
      let l ← ofExcept call.listener.numbered
      call.create c file l : Action Balancer) u := by
  unfold run ensureBalancer create NameFile.record
  rw [bind_run hfind]
  apply congrFun
  apply bind_congr
  intro l
  apply bind_congr
  intro _
  apply bind_congr
  intro created
  cases present? file with
  | none => rfl
  | some path => cases present? created.dnsName <;> rfl

theorem step (c : Provider) (file : NameFile) (call : BalancerCall) (s : Situation) :
    Step c file call s (call.run c file s) := by
  obtain ⟨hasked, hsame⟩ := c.asks_describeBalancers s [call.name]
  cases hd : (c.describeBalancers [call.name]).outcome s with
  | error f =>
    have hfind : findBalancer c call.name s = .error f _ := bind_run_error (run_error hd)
    have hrun : call.run c file s = .error f _ := bind_run_error hfind
    rw [hrun]
    exact .undescribed hd hasked
  | ok all =>
    have hfind : findBalancer c call.name s = .ok (all.find? (·.name = call.name)) _ :=
      bind_run (run_ok hd)
    cases hall : all.find? (·.name = call.name) with
    | some b =>
      rw [hall] at hfind
      obtain ⟨t, hinfo, htold⟩ := info_told ("Load balancer " ++ call.name ++
        " already exists (" ++ b.shownName ++ ")") ((c.describeBalancers [call.name]).after s)
      have hrun : call.run c file s = .ok b t := (bind_run hfind).trans (bind_run hinfo)
      rw [hrun]
      exact .found hd hall (hasked.told htold)
    | none =>
      rw [hall] at hfind
      have hnew : call.IsNew c s := by
        refine ⟨all, hd, fun b hb => ?_⟩
        simpa using List.find?_eq_none.mp hall b hb
      rw [run_new hfind]
      cases hl : call.listener.numbered with
      | error f => exact .misnumbered hnew hl hasked
      | ok l => exact step_create hnew hl hasked hsame

/-- What holds of a call that starts at `s`, ends at `t` and comes to a result. -/
structure Ensures (c : Provider) (file : NameFile) (call : BalancerCall) (s t : Situation)
    (result : Except Fault Balancer) : Prop where
  /-- Nothing is written before the last request. -/
  moments : ∀ m ∈ s.momentsSince t, m = (s.disk, s.roster)
  /-- The cloud is asked first, and then for one creation at most. -/
  requests : ∃ more, s.balancerRequestsSince t = .describe [call.name] :: more ∧
    ∀ r ∈ more, call.IsNew c s ∧ ∃ l, call.listener.numbered = .ok l ∧
      r = .create call.name call.zones l ∧ more = [r]
  undescribed : ∀ f, (c.describeBalancers [call.name]).outcome s = .error f →
    result = .error f ∧ t.disk = s.disk
  found : ∀ all b, (c.describeBalancers [call.name]).outcome s = .ok all →
    all.find? (·.name = call.name) = some b → result = .ok b ∧ t.disk = s.disk
  misnumbered : ∀ f, call.IsNew c s → call.listener.numbered = .error f →
    result = .error f ∧ t.disk = s.disk
  requested : ∀ l, call.IsNew c s → call.listener.numbered = .ok l →
    .create call.name call.zones l ∈ s.balancerRequestsSince t
  /-- A failed call to the cloud is the cause of the failure; other failures pass as they are. -/
  uncreated : ∀ l f, .create call.name call.zones l ∈ s.balancerRequestsSince t →
    call.creation c l s = .error f → t.disk = s.disk ∧
      (∀ operation reason, f.trouble = .cloudCall operation reason →
        result = .error (f.because (.noBalancer call.name))) ∧
      ((∀ operation reason, f.trouble ≠ .cloudCall operation reason) → result = .error f)
  /-- The new balancer is given unless its line cannot be added for a reason of its own. -/
  created : ∀ l b, .create call.name call.zones l ∈ s.balancerRequestsSince t →
    call.creation c l s = .ok b → t.disk = (file.append b s.disk).2 ∧
      (result = .ok b ↔ ∀ f, (file.append b s.disk).1 = .error f → f.isSystem = true) ∧
      ∀ f, (file.append b s.disk).1 = .error f → f.isSystem = false →
        result = .error (.of (.disk f))

variable {t : Situation}

theorem failure_of_cloudCall {f : Fault} {operation reason : Text}
    (h : f.trouble = .cloudCall operation reason) :
    call.failure f = f.because (.noBalancer call.name) := by
  unfold failure notCreated
  rw [h]
  rfl

theorem failure_of_ne {f : Fault}
    (h : ∀ operation reason, f.trouble ≠ .cloudCall operation reason) : call.failure f = f := by
  unfold failure notCreated
  split
  · rename_i operation reason hf
    exact absurd hf (h operation reason)
  · rfl

theorem IsNew.not_error (h : call.IsNew c s) {f : Fault} :
    (c.describeBalancers [call.name]).outcome s ≠ .error f := by
  obtain ⟨all, hall, _⟩ := h
  rw [hall]
  exact nofun

theorem IsNew.not_found (h : call.IsNew c s) {all : List Balancer} {b : Balancer}
    (hall : (c.describeBalancers [call.name]).outcome s = .ok all) :
    all.find? (·.name = call.name) ≠ some b := by
  obtain ⟨all', hall', hnone⟩ := h
  cases hall.symm.trans hall'
  intro hb
  exact hnone b (List.mem_of_find?_eq_some hb) (by simpa using List.find?_some hb)

/-- A call that does not come to the creation. -/
theorem ensures_of_describe {result : Except Fault Balancer}
    (hasked : Asks [.describe [call.name]] s.disk s t)
    (hund : ∀ f, (c.describeBalancers [call.name]).outcome s = .error f → result = .error f)
    (hfound : ∀ all b, (c.describeBalancers [call.name]).outcome s = .ok all →
      all.find? (·.name = call.name) = some b → result = .ok b)
    (hmis : call.IsNew c s → ∃ f, call.listener.numbered = .error f ∧ result = .error f) :
    call.Ensures c file s t result := by
  have hrequests := hasked.requests_eq
  have hnone (l : Listener) : .create call.name call.zones l ∉ s.balancerRequestsSince t := by
    simp [hrequests]
  constructor
  case moments => exact hasked.moments
  case requests => exact ⟨[], hrequests, fun _ hr => absurd hr List.not_mem_nil⟩
  case undescribed => exact fun f hf => ⟨hund f hf, hasked.disk_eq⟩
  case found => exact fun all b hall hb => ⟨hfound all b hall hb, hasked.disk_eq⟩
  case misnumbered =>
    intro f hnew hf
    obtain ⟨g, hg, hresult⟩ := hmis hnew
    cases hf.symm.trans hg
    exact ⟨hresult, hasked.disk_eq⟩
  case requested =>
    intro l hnew hl
    obtain ⟨g, hg, _⟩ := hmis hnew
    cases hl.symm.trans hg
  case uncreated => exact fun l _ hl => absurd hl (hnone l)
  case created => exact fun l _ hl => absurd hl (hnone l)

/-- A call that comes to the creation. -/
theorem ensures_of_create {disk : Disk.Store} {result : Except Fault Balancer} {l : Listener}
    (hnew : call.IsNew c s) (hl : call.listener.numbered = .ok l)
    (hasked : Asks [.describe [call.name], .create call.name call.zones l] disk s t)
    (huncreated : ∀ f, call.creation c l s = .error f →
      disk = s.disk ∧ result = .error (call.failure f))
    (hcreated : ∀ b, call.creation c l s = .ok b → disk = (file.append b s.disk).2 ∧
      (result = .ok b ↔ ∀ f, (file.append b s.disk).1 = .error f → f.isSystem = true) ∧
      ∀ f, (file.append b s.disk).1 = .error f → f.isSystem = false →
        result = .error (.of (.disk f))) :
    call.Ensures c file s t result := by
  have hrequests := hasked.requests_eq
  have hsame {m : Listener} (h : .create call.name call.zones m ∈ s.balancerRequestsSince t) :
      m = l := by
    simpa [hrequests] using h
  constructor
  case moments => exact hasked.moments
  case requests =>
    refine ⟨[.create call.name call.zones l], hrequests, ?_⟩
    intro r hr
    cases List.mem_singleton.mp hr
    exact ⟨hnew, l, hl, rfl, rfl⟩
  case undescribed => exact fun f hf => absurd hf hnew.not_error
  case found => exact fun all b hall hb => absurd hb (hnew.not_found hall)
  case misnumbered =>
    intro f _ hf
    cases hl.symm.trans hf
  case requested =>
    intro m _ hm
    cases hl.symm.trans hm
    simp [hrequests]
  case uncreated =>
    intro m f hm hf
    cases hsame hm
    obtain ⟨hdisk, hresult⟩ := huncreated f hf
    refine ⟨hasked.disk_eq.trans hdisk, ?_, ?_⟩
    · intro operation reason htrouble
      rw [hresult, failure_of_cloudCall htrouble]
    · intro htrouble
      rw [hresult, failure_of_ne htrouble]
  case created =>
    intro m b hm hb
    cases hsame hm
    obtain ⟨hdisk, hresult⟩ := hcreated b hb
    exact ⟨hasked.disk_eq.trans hdisk, hresult⟩

theorem ensures (c : Provider) (file : NameFile) (call : BalancerCall) (s : Situation) :
    call.Ensures c file s ((call.run c file).after s) ((call.run c file).outcome s) := by
  have hstep := step c file call s
  unfold after outcome
  generalize call.run c file s = r at hstep
  cases hstep with
  | undescribed hd hasked =>
    apply ensures_of_describe hasked
    · intro g hg
      cases hd.symm.trans hg
      rfl
    · intro all b hall
      cases hd.symm.trans hall
    · exact fun hnew => absurd hd hnew.not_error
  | found hd hb hasked =>
    apply ensures_of_describe hasked
    · intro g hg
      cases hd.symm.trans hg
    · intro all b' hall hb'
      cases hd.symm.trans hall
      cases hb.symm.trans hb'
      rfl
    · exact fun hnew => absurd hb (hnew.not_found hd)
  | misnumbered hnew hl hasked =>
    apply ensures_of_describe hasked
    · exact fun g hg => absurd hg hnew.not_error
    · exact fun all b hall hb => absurd hb (hnew.not_found hall)
    · exact fun _ => ⟨_, hl, rfl⟩
  | uncreated hnew hl hc hasked =>
    apply ensures_of_create hnew hl hasked
    · intro g hg
      cases hc.symm.trans hg
      exact ⟨rfl, rfl⟩
    · intro b hb
      cases hc.symm.trans hb
  | created hnew hl hc happ hasked =>
    apply ensures_of_create hnew hl hasked
    · intro g hg
      cases hc.symm.trans hg
    · intro b hb
      cases hc.symm.trans hb
      refine ⟨rfl, iff_of_true rfl happ, ?_⟩
      intro f hf hsystem
      rw [happ f hf] at hsystem
      cases hsystem
  | unrecorded hnew hl hc happ hf hasked =>
    apply ensures_of_create hnew hl hasked
    · intro g hg
      cases hc.symm.trans hg
    · intro b hb
      cases hc.symm.trans hb
      refine ⟨rfl, iff_of_false nofun ?_, ?_⟩
      · intro hall
        rw [hall _ happ] at hf
        cases hf
      · intro g hg _
        cases happ.symm.trans hg
        rfl

/-- The balancer that comes of the request for a creation, where there is such a request. -/
def made? (c : Provider) (file : NameFile) (call : BalancerCall) (s : Situation) :
    Option Balancer :=
  (s.balancerRequestsSince ((call.run c file).after s)).findSome? fun
    | .create _ _ l => (call.creation c l s).toOption
    | .describe _ => none

/-- The disk changes with a creation only. -/
theorem made?_cases (c : Provider) (file : NameFile) (call : BalancerCall) (s : Situation) :
    (call.made? c file s = none ∧ ((call.run c file).after s).disk = s.disk) ∨
      ∃ b, call.made? c file s = some b ∧ call.IsNew c s ∧
        ((call.run c file).after s).disk = (file.append b s.disk).2 := by
  have hstep := step c file call s
  unfold made? after
  generalize call.run c file s = r at hstep
  cases hstep with
  | undescribed hd hasked =>
    left
    simp [hasked.requests_eq, hasked.disk_eq]
  | found hd hb hasked =>
    left
    simp [hasked.requests_eq, hasked.disk_eq]
  | misnumbered hnew hl hasked =>
    left
    simp [hasked.requests_eq, hasked.disk_eq]
  | uncreated hnew hl hc hasked =>
    left
    simp [hasked.requests_eq, hasked.disk_eq, hc, Except.toOption]
  | @created l b t hnew hl hc happ hasked =>
    right
    refine ⟨b, ?_, hnew, hasked.disk_eq⟩
    simp [hasked.requests_eq, hc, Except.toOption]
  | @unrecorded l b f t hnew hl hc happ hf hasked =>
    right
    refine ⟨b, ?_, hnew, hasked.disk_eq⟩
    simp [hasked.requests_eq, hc, Except.toOption]

end BalancerCall

/-- How far a run of calls has come. -/
structure Provision where
  situation : Situation
  /-- The names that a balancer was created for. -/
  made : List Text
  /-- What was added to the name file. -/
  lines : List Text

namespace Provision

def start (first : Situation) : Provision :=
  ⟨first, [], []⟩

def advance (c : Provider) (file : NameFile) (p : Provision) (call : BalancerCall) : Provision :=
  let situation := (call.run c file).after p.situation
  match call.made? c file p.situation with
  | none => { p with situation }
  | some b => ⟨situation, p.made ++ [call.name], p.lines ++ file.added b p.situation.disk⟩

/-- Calls one after another. Whether they fail or not, the next one is made. -/
def run (c : Provider) (file : NameFile) (first : Situation) (calls : List BalancerCall) :
    Provision :=
  calls.foldl (advance c file) (start first)

/-- Where the cloud tells the balancers that there are, it tells of one that was made in the run. -/
def Told (c : Provider) (p : Provision) (call : BalancerCall) : Prop :=
  ∀ all, (c.describeBalancers [call.name]).outcome p.situation = .ok all → call.name ∈ p.made →
    ∃ b ∈ all, b.name = call.name

/-- The cloud tells the balancers that were made at each of the calls. -/
def Truthful (c : Provider) (file : NameFile) : Provision → List BalancerCall → Prop
  | _, [] => True
  | p, call :: rest => p.Told c call ∧ Truthful c file (p.advance c file call) rest

/-- No name was created twice, and the name file holds a line for each creation. -/
structure Sound (file : NameFile) (first : Situation) (p : Provision) : Prop where
  once : p.made.Nodup
  contents_eq : ∀ path, present? file = some path →
    p.situation.disk.contents path = p.lines.foldl Disk.Content.add (first.disk.contents path)

variable {c : Provider} {file : NameFile} {first : Situation} {p : Provision}

theorem sound_start (file : NameFile) (first : Situation) : Sound file first (start first) :=
  ⟨List.nodup_nil, fun _ _ => rfl⟩

theorem Sound.advance (h : Sound file first p) {call : BalancerCall} (htold : p.Told c call) :
    Sound file first (p.advance c file call) := by
  unfold Provision.advance
  rcases call.made?_cases c file p.situation with ⟨hmade, hdisk⟩ | ⟨b, hmade, hnew, hdisk⟩
  · rw [hmade]
    refine ⟨h.once, fun path hpath => ?_⟩
    change ((call.run c file).after p.situation).disk.contents path = _
    rw [hdisk]
    exact h.contents_eq path hpath
  · rw [hmade]
    have hfresh : call.name ∉ p.made := by
      intro hmem
      obtain ⟨all, hall, hnone⟩ := hnew
      obtain ⟨d, hd, hname⟩ := htold all hall hmem
      exact hnone d hd hname
    refine ⟨?_, fun path hpath => ?_⟩
    · simpa [List.nodup_append] using ⟨h.once, fun name hname => ne_of_mem_of_not_mem hname hfresh⟩
    · change ((call.run c file).after p.situation).disk.contents path = _
      rw [hdisk, file.contents_append b hpath, h.contents_eq path hpath, List.foldl_append]

theorem Sound.run (h : Sound file first p) {calls : List BalancerCall}
    (htruth : Truthful c file p calls) :
    Sound file first (calls.foldl (Provision.advance c file) p) := by
  induction calls generalizing p with
  | nil => exact h
  | cons call rest ih => exact ih (h.advance htruth.1) htruth.2

/-- Whatever fails on the way, no name is created twice, the name file holds the first contents and
a line for each creation, in order, and the next call creates a balancer only if there is none. -/
theorem run_once (c : Provider) (file : NameFile) (first : Situation) (calls : List BalancerCall)
    (htruth : Truthful c file (start first) calls) :
    (run c file first calls).made.Nodup ∧
      (∀ path, present? file = some path →
        (run c file first calls).situation.disk.contents path =
          (run c file first calls).lines.foldl Disk.Content.add (first.disk.contents path)) ∧
      ∀ call : BalancerCall, call.Ensures c file (run c file first calls).situation
        ((call.run c file).after (run c file first calls).situation)
        ((call.run c file).outcome (run c file first calls).situation) := by
  have h : Sound file first (run c file first calls) := (sound_start file first).run htruth
  exact ⟨h.once, h.contents_eq, fun call => call.ensures c file _⟩

/-- Two balancers can be created. The second one has half of a pair for its name in the network. -/
def twoToCome : Situation :=
  { Situation.bare ⟨.root, [], []⟩ ⟨"f", []⟩ with
    service := fun
      | .describeBalancers => [.ok [], .ok [⟨"one", some "d", []⟩], .ok []]
      | .createBalancer => [.ok ⟨"one", some "d", []⟩, .ok ⟨"two", some [.half (.last 0x7FF)], []⟩]
      | _ => [] }

/-- A balancer for the web. -/
def called (name : Text) : BalancerCall :=
  ⟨name, ["z"], ⟨.text "tcp", .whole 80, .whole 8080⟩⟩

/-- The second call finds what the first one made. The third one creates a balancer and fails. -/
theorem run_once_twoToCome :
    let p := run .service (some "names") twoToCome [called "one", called "one"]
    p.made = ["one"] ∧ p.situation.disk.contents "names" = .text "d\n" ∧
      (called "two").creation .service (called "two").listener p.situation =
        .ok ⟨"two", some [.half (.last 0x7FF)], []⟩ ∧
      ((called "two").run .service (some "names")).outcome p.situation =
        .error (.of (.disk .notEncoded)) := by
  have htruth : Truthful .service (some "names") (start twoToCome)
      [called "one", called "one"] := by
    refine ⟨fun all _ hmade => (by cases hmade), fun all hall _ => ?_, trivial⟩
    have htold : (Provider.service.describeBalancers ["one"]).outcome
        ((start twoToCome).advance .service (some "names") (called "one")).situation =
          .ok [⟨"one", some "d", []⟩] := by
      decide +kernel
    cases htold.symm.trans hall
    exact ⟨_, List.mem_singleton_self _, rfl⟩
  obtain ⟨_, hcontents, hensures⟩ := run_once .service (some "names") twoToCome _ htruth
  have hmade : (run .service (some "names") twoToCome
      [called "one", called "one"]).made = ["one"] := by
    decide +kernel
  have hlines : (run .service (some "names") twoToCome
      [called "one", called "one"]).lines = ["d\n"] := by
    decide +kernel
  have hnew : (Provider.service.describeBalancers [(called "two").name]).outcome
      (run .service (some "names") twoToCome [called "one", called "one"]).situation = .ok [] := by
    decide +kernel
  have hcreation : (called "two").creation .service (called "two").listener
      (run .service (some "names") twoToCome [called "one", called "one"]).situation =
        .ok ⟨"two", some [.half (.last 0x7FF)], []⟩ := by
    decide +kernel
  have happend : (NameFile.append (some "names") ⟨"two", some [.half (.last 0x7FF)], []⟩
      (run .service (some "names") twoToCome
        [called "one", called "one"]).situation.disk).1 = .error .notEncoded := by
    decide +kernel
  generalize run .service (some "names") twoToCome [called "one", called "one"] = p at *
  refine ⟨hmade, ?_, hcreation, ?_⟩
  · have hempty : twoToCome.disk.contents "names" = .text [] := rfl
    rw [hcontents "names" rfl, hlines, hempty, Disk.Content.foldl_add]
    rfl
  · have h := hensures (called "two")
    have hrequested := h.requested _ ⟨[], hnew, nofun⟩ rfl
    exact (h.created _ _ hrequested hcreation).2.2 .notEncoded happend rfl

end Provision

end AgentFleet
