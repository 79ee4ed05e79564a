import AgentFleet.Cloud.Provider
import AgentFleet.Proofs.Keeping

namespace AgentFleet
open AgentFleet.Action Cloud

theorem mem_of_present? {a : Option Text} {t : Text} (h : present? a = some t) : t ∈ a := by
  unfold present? at h
  split at h
  · cases h
  · exact h

inductive CloudCall
  | create (count : Int)
  | describe (ids addresses : List Text)
  | terminate (ids : List Text)
  | balancer (operation : Operation)
  deriving DecidableEq, Repr

def Cloud.Service.Request.call : Service.Request → CloudCall
  | .createInstances count _ => .create count
  | .describeInstances ids addresses => .describe (ids.getD []) (addresses.getD [])
  | .terminateInstances ids => .terminate ids
  | r => .balancer r.operation

/-- What asks for a further page belongs to the call that asked for the first one. -/
def Cloud.Aws.Request.call? : Aws.Request → Option CloudCall
  | .runInstances _ _ count _ _ => some (.create count)
  | .describeInstances ids addresses none => some (.describe ids addresses)
  | .describeInstances _ _ (some _) => none
  | .terminateInstances ids => some (.terminate ids)
  | r => some (.balancer r.operation)

def Event.call? : Event → Option CloudCall
  | .asked r _ _ => some r.call
  | .sent r _ _ => r.call?
  | _ => none

namespace Situation

/-- The calls to the cloud, in order. -/
def calls (s : Situation) : List CloudCall :=
  s.events.filterMap Event.call?

theorem calls_record (s : Situation) (e : Event) :
    (s.record e).calls = s.calls ++ e.call?.toList := by
  simp only [calls, events, record, List.reverse_cons, List.filterMap_append]
  cases h : e.call? <;> simp [h]

/-- `t` is `s` after calls of one operation. -/
structure Called (o : Operation) (made : List CloudCall) (s t : Situation) : Prop where
  disk : t.disk = s.disk
  roster : t.roster = s.roster
  calls : t.calls = s.calls ++ made
  others : ∀ p, o ≠ p → t.service p = s.service p ∧ t.aws p = s.aws p
  cancellation : t.cancellation = s.cancellation

theorem Called.trans {o : Operation} {made more : List CloudCall} {s t u : Situation}
    (h : Called o made s t) (h' : Called o more t u) : Called o (made ++ more) s u := by
  refine ⟨h'.disk.trans h.disk, h'.roster.trans h.roster, ?_, fun p hp => ?_,
    h'.cancellation.trans h.cancellation⟩
  · rw [h'.calls, h.calls, List.append_assoc]
  · exact ⟨(h'.others p hp).1.trans (h.others p hp).1, (h'.others p hp).2.trans (h.others p hp).2⟩

/-- `t` is `s` with more in the log. -/
def Told (s t : Situation) : Prop :=
  ∃ told, t = { s with history := told ++ s.history } ∧
    ∀ e ∈ told, ∃ severity text, e = .logged severity text

theorem Told.refl (s : Situation) : Told s s :=
  ⟨[], rfl, by simp⟩

theorem Told.trans {s t u : Situation} (h : Told s t) (h' : Told t u) : Told s u := by
  obtain ⟨told, rfl, hs⟩ := h
  obtain ⟨more, rfl, ht⟩ := h'
  refine ⟨more ++ told, by simp, fun e he => ?_⟩
  rcases List.mem_append.mp he with he | he
  · exact ht e he
  · exact hs e he

/-- Telling is no call. -/
theorem Told.calls {s t : Situation} (h : Told s t) : t.calls = s.calls := by
  obtain ⟨told, rfl, hs⟩ := h
  have hnone : told.filterMap Event.call? = [] := by
    refine List.filterMap_eq_nil_iff.mpr fun e he => ?_
    obtain ⟨severity, text, rfl⟩ := hs e he
    rfl
  simp [Situation.calls, events, List.filterMap_reverse, hnone]

theorem Told.called {s t : Situation} (h : Told s t) (o : Operation) : Called o [] s t := by
  have hc := h.calls
  obtain ⟨told, rfl, _⟩ := h
  exact ⟨rfl, rfl, hc.trans (List.append_nil _).symm, fun _ _ => ⟨rfl, rfl⟩, rfl⟩

/-- The same answers to an operation are to come. -/
def SameAnswers (o : Operation) (s t : Situation) : Prop :=
  s.service o = t.service o ∧ s.aws o = t.aws o

theorem Told.sameAnswers {s t : Situation} (h : Told s t) (o : Operation) : SameAnswers o s t := by
  obtain ⟨told, rfl, _⟩ := h
  exact ⟨rfl, rfl⟩

theorem Called.sameAnswers {o p : Operation} {made : List CloudCall} {s t : Situation}
    (h : Called o made s t) (hp : o ≠ p) : SameAnswers p s t :=
  ⟨(h.others p hp).1.symm, (h.others p hp).2.symm⟩

end Situation

open Situation

namespace Cloud

/-- Answers that are those to come already change nothing. -/
theorem Script.with_of_eq {Answer : Operation → Type} {script : Script Answer} {o : Operation}
    {answers : List (Except Fault (Answer o))} (h : script o = answers) :
    script.with o answers = script := by
  funext p
  by_cases hp : o = p
  · subst hp
    rw [Script.with_self, h]
  · exact script.with_of_ne _ hp

end Cloud

namespace Action

variable {s t : Situation}

theorem log_told (severity : Severity) (text : Text) (s : Situation) :
    ∃ t, log severity (.ok text) s = .ok () t ∧ s.Told t := by
  unfold log
  rw [get_bind_run]
  split
  · exact ⟨s.record (.logged severity text), rfl, [.logged severity text], rfl, by simp⟩
  · exact ⟨s, rfl, .refl s⟩

/-- A text is told, or it is told that it cannot be made. -/
theorem log_made (severity : Severity) (text : Except Fault Text) (s : Situation) :
    ∃ t, log severity text s = .ok () t ∧
      (s.Told t ∨ (∃ f, text = .error f) ∧ t = s.record (.unlogged severity)) := by
  cases text with
  | ok text =>
    obtain ⟨t, hrun, htold⟩ := log_told severity text s
    exact ⟨t, hrun, .inl htold⟩
  | error f =>
    unfold log
    rw [get_bind_run]
    split
    · exact ⟨_, rfl, .inr ⟨⟨f, rfl⟩, rfl⟩⟩
    · exact ⟨s, rfl, .inl (.refl s)⟩

theorem info_told (text : Text) (s : Situation) : ∃ t, info text s = .ok () t ∧ s.Told t :=
  log_told .info text s

theorem warn_told (text : Text) (s : Situation) : ∃ t, warn text s = .ok () t ∧ s.Told t :=
  log_told .warning text s

/-- What comes of a request, from the answers to its operation. -/
def replied (answers : List (Except Fault α)) (method : String) : Except Fault α :=
  answers.head?.getD (.error (.of (.noReply method)))

theorem outcome_ask (r : Service.Request) (s : Situation) :
    (ask r).outcome s = replied (s.service r.operation) (r.operation.name .service) := by
  unfold ask outcome replied
  cases h : s.service r.operation with
  | nil => simp [h, record, modify_bind_run, Situation.record]
  | cons answer rest => cases answer <;> simp [h, record, modify_bind_run, Situation.record]

theorem after_ask (r : Service.Request) (s : Situation) :
    (ask r).after s = { s.record (.asked r s.disk s.roster) with
      service := s.service.with r.operation (s.service r.operation).tail } := by
  unfold ask after
  cases h : s.service r.operation with
  | nil => simp [h, record, modify_bind_run, Situation.record, Script.with_of_eq h]
  | cons answer rest => cases answer <;> simp [h, record, modify_bind_run, Situation.record]

theorem outcome_send (r : Aws.Request) (s : Situation) :
    (send r).outcome s = replied (s.aws r.operation) (r.operation.name .aws) := by
  unfold send outcome replied
  cases h : s.aws r.operation with
  | nil => simp [h, record, modify_bind_run, Situation.record]
  | cons answer rest => cases answer <;> simp [h, record, modify_bind_run, Situation.record]

theorem after_send (r : Aws.Request) (s : Situation) :
    (send r).after s = { s.record (.sent r s.disk s.roster) with
      aws := s.aws.with r.operation (s.aws r.operation).tail } := by
  unfold send after
  cases h : s.aws r.operation with
  | nil => simp [h, record, modify_bind_run, Situation.record, Script.with_of_eq h]
  | cons answer rest => cases answer <;> simp [h, record, modify_bind_run, Situation.record]

theorem called_ask (r : Service.Request) (s : Situation) :
    Called r.operation [r.call] s ((ask r).after s) := by
  rw [after_ask]
  exact ⟨rfl, rfl, calls_record s _, fun p hp => ⟨Script.with_of_ne _ _ hp, rfl⟩, rfl⟩

theorem called_send (r : Aws.Request) (s : Situation) :
    Called r.operation r.call?.toList s ((send r).after s) := by
  rw [after_send]
  exact ⟨rfl, rfl, calls_record s _, fun p hp => ⟨rfl, Script.with_of_ne _ _ hp⟩, rfl⟩

theorem called_call (r : Aws.Request) (s : Situation) :
    Called r.operation r.call?.toList s ((Aws.call r).after s) := by
  rw [Aws.call, after_explain]
  exact called_send r s

theorem alike_ask (r : Service.Request) : Alike (SameAnswers r.operation) (ask r) := by
  intro s t h
  rw [outcome_ask, outcome_ask, after_ask, after_ask, h.1]
  exact ⟨rfl, by simp [SameAnswers, h.2, Situation.record]⟩

theorem alike_call (r : Aws.Request) : Alike (SameAnswers r.operation) (Aws.call r) := by
  refine Alike.explain ?_ _
  intro s t h
  rw [outcome_send, outcome_send, after_send, after_send, h.2]
  exact ⟨rfl, by simp [SameAnswers, h.1, Situation.record]⟩

end Action

namespace Cloud

variable {s : Situation}

theorem Aws.keeps_furtherPages {I : Situation → Prop} {ids addresses : List Text}
    (hmore : ∀ token, Keeps I (call (.describeInstances ids addresses (some token))) Any)
    (n : Nat) (token : Text) :
    Keeps I (describePages ids addresses n (some token)) Any := by
  induction n generalizing token with
  | zero => exact Brings.pure trivial
  | succ n ih =>
    refine (hmore token).bind fun page _ => Brings.bind Brings.ofAny fun instances _ => ?_
    split
    · exact Brings.pure trivial
    · exact (ih _).bind fun _ _ => Brings.pure trivial

theorem Aws.describeInstances_run {ids addresses : List Text} (h : ¬ (ids = [] ∧ addresses = [])) :
    describeInstances ids addresses s =
      describePages ids addresses ((s.aws .describeInstances).length + 1) none s := by
  unfold describeInstances
  rw [if_neg h]
  rfl

/-- What asking for the first page brings about, and asking for further pages keeps, there is after
the description. -/
theorem Aws.after_describeInstances {I : Situation → Prop} {ids addresses : List Text}
    (h : ¬ (ids = [] ∧ addresses = []))
    (hfirst : I ((call (.describeInstances ids addresses none)).after s))
    (hmore : ∀ token, Keeps I (call (.describeInstances ids addresses (some token))) Any) :
    I ((describeInstances ids addresses).after s) := by
  have hcall : Brings (· = s) (call (.describeInstances ids addresses none)) I Any := by
    refine Brings.of_after fun t ht => ?_
    rw [ht]
    exact hfirst
  have hall : Brings (· = s)
      (describePages ids addresses ((s.aws .describeInstances).length + 1) none) I Any := by
    refine hcall.bind fun page _ => Brings.bind Brings.ofAny fun instances _ => ?_
    split
    · exact Brings.pure trivial
    · exact (keeps_furtherPages hmore _ _).bind fun _ _ => Brings.pure trivial
  rw [after, describeInstances_run h]
  exact hall.after rfl

/-- Further pages are no calls of their own. -/
theorem Aws.called_describeInstances {ids addresses : List Text}
    (h : ¬ (ids = [] ∧ addresses = [])) :
    Called .describeInstances [.describe ids addresses] s
      ((describeInstances ids addresses).after s) := by
  refine after_describeInstances h
    (called_call (.describeInstances ids addresses none) s) fun token => ?_
  refine Brings.of_after fun t ht => ?_
  have := ht.trans (called_call (.describeInstances ids addresses (some token)) t)
  simpa [Request.call?] using this

theorem Aws.alike_describePages (ids addresses : List Text) (n : Nat) (token : Option Text) :
    Alike (SameAnswers .describeInstances) (describePages ids addresses n token) := by
  induction n generalizing token with
  | zero => exact Alike.pure _
  | succ n ih =>
    refine (alike_call (.describeInstances ids addresses token)).bind fun page =>
      (Alike.ofExcept _).bind fun instances => ?_
    split
    · exact Alike.pure _
    · exact (ih _).bind fun _ => Alike.pure _

theorem Aws.alike_describeInstances (ids addresses : List Text) :
    Alike (SameAnswers .describeInstances) (describeInstances ids addresses) := by
  by_cases he : ids = [] ∧ addresses = []
  · unfold describeInstances
    rw [if_pos he]
    exact fun _ _ h => ⟨rfl, h⟩
  · intro s t h
    rw [outcome, outcome, after, after, describeInstances_run he, describeInstances_run he, ← h.2]
    exact alike_describePages ids addresses _ none s t h

theorem Aws.called_createInstances (count : Int) (template : LaunchTemplate) :
    Called .createInstances [.create count] s ((createInstances count template).after s) := by
  have hall : Brings (· = s) (createInstances count template)
      (Called .createInstances [.create count] s) Any := by
    refine Brings.bind (Q := Any) (Brings.of_after fun t ht => ?_) fun answer _ =>
      Brings.bind Brings.ofAny fun descriptions _ => Brings.ofAny
    rw [ht]
    exact called_call (.runInstances ..) s
  exact hall.after rfl

theorem Aws.alike_createInstances (count : Int) (template : LaunchTemplate) :
    Alike (SameAnswers .createInstances) (createInstances count template) :=
  (alike_call (.runInstances ..)).bind fun _ => (Alike.ofExcept _).bind fun _ => Alike.ofExcept _

namespace Provider

variable (p : Provider)

theorem called_createInstances (count : Int) (template : LaunchTemplate) :
    Called .createInstances [.create count] s ((p.createInstances count template).after s) := by
  cases p with
  | service => exact called_ask (.createInstances count template) s
  | aws => exact Aws.called_createInstances count template

theorem alike_createInstances (count : Int) (template : LaunchTemplate) :
    Alike (SameAnswers .createInstances) (p.createInstances count template) := by
  cases p with
  | service => exact alike_ask (.createInstances count template)
  | aws => exact Aws.alike_createInstances count template

/-- Instances are described in one call. -/
theorem called_describeInstances {ids addresses : Option (List Text)}
    (h : ¬ (ids.getD [] = [] ∧ addresses.getD [] = [])) :
    Called .describeInstances [.describe (ids.getD []) (addresses.getD [])] s
      ((p.describeInstances ids addresses).after s) := by
  cases p with
  | service => exact called_ask (.describeInstances ids addresses) s
  | aws => exact Aws.called_describeInstances h

theorem called_terminateInstances (ids : List Text) :
    Called .terminateInstances [.terminate ids] s ((p.terminateInstances ids).after s) := by
  cases p with
  | service => exact called_ask (.terminateInstances ids) s
  | aws => exact called_call (.terminateInstances ids) s

theorem alike_describeInstances (ids addresses : Option (List Text)) :
    Alike (SameAnswers .describeInstances) (p.describeInstances ids addresses) := by
  cases p with
  | service => exact alike_ask (.describeInstances ids addresses)
  | aws => exact Aws.alike_describeInstances _ _

theorem alike_terminateInstances (ids : List Text) :
    Alike (SameAnswers .terminateInstances) (p.terminateInstances ids) := by
  cases p with
  | service => exact alike_ask (.terminateInstances ids)
  | aws => exact alike_call (.terminateInstances ids)

theorem alike_registerInstances (balancer : Text) (ids : List Text) :
    Alike (SameAnswers .registerInstances) (p.registerInstances balancer ids) := by
  cases p with
  | service => exact alike_ask (.registerInstances balancer ids)
  | aws => exact alike_call (.registerInstances balancer ids)

end Provider

end Cloud

end AgentFleet
