import Mathlib.Data.List.Basic
import AgentFleet.Proofs.Performing

namespace AgentFleet
open AgentFleet.Action Cloud

/-- The operation that was asked for. -/
def Event.operation? : Event → Option Operation
  | .asked r .. => some r.operation
  | .sent r .. => some r.operation
  | _ => none

namespace Situation

variable {view : Event → Option α} {seen more : List α} {s t u : Situation}

/-- From `s` to `t` this is seen, in order. -/
def Shows (view : Event → Option α) (seen : List α) (s t : Situation) : Prop :=
  ∃ done : List Event, t.history = done.reverse ++ s.history ∧ done.filterMap view = seen

namespace Shows

theorem of_history (h : t.history = s.history) : Shows view [] s t :=
  ⟨[], h, rfl⟩

theorem refl (s : Situation) : Shows view [] s s :=
  of_history rfl

theorem trans (h : Shows view seen s t) (h' : Shows view more t u) :
    Shows view (seen ++ more) s u := by
  obtain ⟨done, hs, rfl⟩ := h
  obtain ⟨done', ht, rfl⟩ := h'
  refine ⟨done ++ done', ?_, List.filterMap_append⟩
  rw [ht, hs, List.reverse_append, List.append_assoc]

/-- Nothing more is seen. -/
theorem onward (h : Shows view seen s t) (h' : Shows view [] t u) : Shows view seen s u := by
  rw [← List.append_nil seen]
  exact h.trans h'

theorem of_event {e : Event} (h : t.history = e :: s.history) (he : (view e).toList = seen) :
    Shows view seen s t := by
  refine ⟨[e], h, ?_⟩
  rw [← he]
  cases hv : view e <;> simp [hv]

/-- Nothing is seen where no event is of a kind that is looked at. -/
theorem of_unseen {lines : List Event} (h : t.history = lines ++ s.history)
    (hlines : ∀ e ∈ lines, view e = none) : Shows view [] s t := by
  refine ⟨lines.reverse, by rw [List.reverse_reverse, h], ?_⟩
  exact List.filterMap_eq_nil_iff.mpr fun e he => hlines e (List.mem_reverse.mp he)

/-- Only the history counts, at either end. -/
theorem congr (h : Shows view seen s t) {s' t' : Situation} (hs : s'.history = s.history)
    (ht : t'.history = t.history) : Shows view seen s' t' := by
  obtain ⟨done, hdone, hseen⟩ := h
  exact ⟨done, by rw [ht, hs, hdone], hseen⟩

end Shows

theorem Told.unseen (h : s.Told t) (hview : ∀ severity text, view (.logged severity text) = none) :
    Shows view [] s t := by
  obtain ⟨lines, rfl, hlogged⟩ := h
  refine .of_unseen rfl fun e he => ?_
  obtain ⟨severity, text, rfl⟩ := hlogged e he
  exact hview severity text

theorem Aside.unseen (h : s.Aside t) (hview : ∀ e : Event, e.isLine = true → view e = none) :
    Shows view [] s t := by
  obtain ⟨lines, _, rfl, hlines⟩ := h
  exact .of_unseen rfl fun e he => hview e (hlines e he)

/-- What is told is seen only where its severity is admitted. -/
theorem log_shows (view : Event → Option α) (severity : Severity) (text : Text) (s : Situation) :
    Shows view (if s.level.admits severity then (view (.logged severity text)).toList else []) s
      ((log severity (.ok text)).after s) := by
  have hlog : log severity (.ok text) s =
      .ok () (if s.level.admits severity then s.record (.logged severity text) else s) := by
    unfold log
    rw [get_bind_run]
    cases s.level.admits severity <;> rfl
  rw [after_of_ok hlog]
  split
  · exact .of_event rfl rfl
  · exact .refl s

/-- `t` is `s` after these calls of one operation, and after nothing else. -/
structure Consulted (o : Operation) (made : List CloudCall) (s t : Situation) : Prop where
  same : t = { s with service := t.service, aws := t.aws, history := t.history }
  since : ∃ done : List Event, t.history = done.reverse ++ s.history ∧
    done.filterMap Event.call? = made ∧ ∀ e ∈ done, e.operation? = some o

namespace Consulted

variable {o : Operation} {made others : List CloudCall}

theorem of_event {e : Event} (hsame : t = { s with
      service := t.service, aws := t.aws, history := t.history })
    (hhistory : t.history = e :: s.history) (ho : e.operation? = some o) :
    Consulted o e.call?.toList s t := by
  refine ⟨hsame, [e], hhistory, ?_, by simpa using ho⟩
  cases hc : e.call? <;> simp [hc]

theorem trans (h : Consulted o made s t) (h' : Consulted o others t u) :
    Consulted o (made ++ others) s u := by
  obtain ⟨hsame, done, hdone, rfl, ho⟩ := h
  obtain ⟨hsame', done', hdone', rfl, ho'⟩ := h'
  refine ⟨?_, done ++ done', ?_, List.filterMap_append, fun e he => ?_⟩
  · rw [hsame', hsame]
  · rw [hdone', hdone, List.reverse_append, List.append_assoc]
  · rcases List.mem_append.mp he with he | he
    · exact ho e he
    · exact ho' e he

/-- One who looks at these calls sees them one by one. -/
theorem shows (h : Consulted o made s t) (seeing : CloudCall → Option α)
    (hview : ∀ e : Event, e.operation? = some o → view e = e.call?.bind seeing) :
    Shows view (made.filterMap seeing) s t := by
  obtain ⟨_, done, hdone, rfl, ho⟩ := h
  refine ⟨done, hdone, ?_⟩
  rw [List.filterMap_filterMap]
  exact List.filterMap_congr fun e he => hview e (ho e he)

end Consulted

end Situation

open Situation

variable (s : Situation)

theorem consulted_ask (r : Service.Request) :
    s.Consulted r.operation [r.call] ((ask r).after s) := by
  rw [after_ask]
  exact Consulted.of_event (e := .asked r s.disk s.roster) rfl rfl rfl

theorem consulted_call (r : Aws.Request) :
    s.Consulted r.operation r.call?.toList ((Aws.call r).after s) := by
  rw [Aws.call, after_explain, after_send]
  exact Consulted.of_event (e := .sent r s.disk s.roster) rfl rfl rfl

namespace Cloud

/-- Whatever pages there are, instances are described in one call. -/
theorem Provider.consulted_describeInstances (c : Provider) {ids addresses : Option (List Text)}
    (h : ¬ (ids.getD [] = [] ∧ addresses.getD [] = [])) :
    s.Consulted .describeInstances [.describe (ids.getD []) (addresses.getD [])]
      ((c.describeInstances ids addresses).after s) := by
  cases c with
  | service => exact consulted_ask s (.describeInstances ids addresses)
  | aws =>
    refine Aws.after_describeInstances h
      (consulted_call s (.describeInstances (ids.getD []) (addresses.getD []) none)) fun token => ?_
    refine Brings.of_after fun t ht => ?_
    have := ht.trans
      (consulted_call t (.describeInstances (ids.getD []) (addresses.getD []) (some token)))
    simpa [Aws.Request.call?] using this

end Cloud

end AgentFleet
