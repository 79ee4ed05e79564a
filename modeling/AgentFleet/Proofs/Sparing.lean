import AgentFleet.Proofs.Shrinking
import Mathlib.Data.List.Pairwise

namespace AgentFleet
open AgentFleet.Action Cloud

/-- Live instances go by different ids. -/
def Distinguished (response : List Instance) : Prop :=
  ((response.filter (·.liveAddress?.isSome)).map (·.id)).Nodup

section Ids

variable {response : List Instance} {i j : Instance} {address : Text} {removed : List Agent}

theorem Distinguished.eq_of_id (h : Distinguished response) (hi : i ∈ response)
    (hj : j ∈ response) (hil : i.liveAddress?.isSome) (hjl : j.liveAddress?.isSome)
    (he : i.id = j.id) : i = j :=
  List.inj_on_of_nodup_map h (List.mem_filter.mpr ⟨hi, hil⟩) (List.mem_filter.mpr ⟨hj, hjl⟩) he

theorem mem_unresolvedAt {a : Agent} :
    a ∈ unresolvedAt response removed ↔
      a ∈ removed ∧ lastAt response a.publicAddress = none := by
  rw [unresolvedAt_eq, List.mem_filter, Option.isNone_iff_eq_none]

/-- An id comes up twice exactly if it is found for two agents. -/
theorem nodup_idsAt_iff (hn : removed.Nodup) :
    (idsAt response removed).Nodup ↔ ∀ a ∈ removed, ∀ b ∈ removed, ∀ i j,
      lastAt response a.publicAddress = some i → lastAt response b.publicAddress = some j →
      i.id = j.id → a = b := by
  unfold idsAt List.Nodup
  rw [List.pairwise_filterMap]
  constructor
  · intro h a ha b hb i j hi hj he
    refine Classical.byContradiction fun hne => ?_
    have : Std.Symm fun a b : Agent =>
        ∀ x, (lastAt response a.publicAddress).map (·.id) = some x →
        ∀ y, (lastAt response b.publicAddress).map (·.id) = some y → x ≠ y :=
      ⟨fun a b hab y hy x hx e => hab x hx y hy e.symm⟩
    exact h.forall ha hb hne i.id (by rw [hi]; rfl) j.id (by rw [hj]; rfl) he
  · intro h
    refine hn.pairwise_of_forall_ne fun a ha b hb hne x hx y hy e => hne ?_
    obtain ⟨i, hi, rfl⟩ := Option.map_eq_some_iff.mp hx
    obtain ⟨j, hj, rfl⟩ := Option.map_eq_some_iff.mp hy
    exact h a ha b hb i j hi hj e

end Ids

/-- The ids that are terminated are all different, and none is that of a live instance at the
address of an agent that stays. -/
def Spares (response : List Instance) (staying : List Agent) (ids : List Text) : Prop :=
  ids.Nodup ∧ ∀ i ∈ response, ∀ a ∈ staying, i.liveAddress? = some a.publicAddress → i.id ∉ ids

/-- Agents that leave do not share their addresses if instances are found there. -/
def Unshared (response : List Instance) (agents removed : List Agent) : Prop :=
  ∀ a ∈ removed, a ∉ unresolvedAt response removed →
    ∀ b ∈ agents, b.publicAddress = a.publicAddress → b = a

theorem spares_iff {response : List Instance} {agents removed : List Agent}
    (hr : Distinguished response) (hn : removed.Nodup) (hsub : ∀ a ∈ removed, a ∈ agents) :
    Spares response (agents.filter (· ∉ removed)) (idsAt response removed) ↔
      Unshared response agents removed := by
  constructor
  · rintro ⟨hids, hspared⟩ a ha hfound b hb he
    obtain ⟨i, hi⟩ : ∃ i, lastAt response a.publicAddress = some i := by
      refine Option.ne_none_iff_exists'.mp fun hnone => ?_
      exact hfound (mem_unresolvedAt.mpr ⟨ha, hnone⟩)
    by_cases hbr : b ∈ removed
    · exact (nodup_idsAt_iff hn).mp hids b hbr a ha i i (by rw [he, hi]) hi rfl
    · obtain ⟨him, hil⟩ := of_lastAt hi
      refine absurd (mem_idsAt.mpr ⟨a, ha, i, hi, rfl⟩) (hspared i him b ?_ (by rw [hil, he]))
      exact List.mem_filter.mpr ⟨hb, by simpa using hbr⟩
  · intro h
    have hsame : ∀ a ∈ removed, ∀ i j, lastAt response a.publicAddress = some i → j ∈ response →
        j.liveAddress?.isSome → j.id = i.id → ∀ b ∈ agents,
        j.liveAddress? = some b.publicAddress → b = a := by
      intro a ha i j hi hj hjl he b hb hat
      obtain ⟨him, hil⟩ := of_lastAt hi
      have hij := hr.eq_of_id hj him hjl (by rw [hil]; rfl) he
      subst hij
      refine h a ha (fun hu => ?_) b hb ?_
      · rw [(mem_unresolvedAt.mp hu).2] at hi
        cases hi
      · exact Option.some.inj (hat.symm.trans hil)
    refine ⟨(nodup_idsAt_iff hn).mpr ?_, ?_⟩
    · intro a ha b hb i j hi hj he
      obtain ⟨hjm, hjl⟩ := of_lastAt hj
      exact (hsame a ha i j hi hjm (by rw [hjl]; rfl) he.symm b (hsub b hb) hjl).symm
    · intro i hi b hb hat hid
      obtain ⟨hb, hbr⟩ := List.mem_filter.mp hb
      obtain ⟨a, ha, j, hj, he⟩ := mem_idsAt.mp hid
      have := hsame a ha j i hj hi (by rw [hat]; rfl) he.symm b hb hat
      subst this
      simp [ha] at hbr

namespace Scaler

variable {scaler : Scaler} {s : Situation} {target : Int} {removed : List Agent}

/-- The instances of agents that stay are spared, and none is terminated twice, exactly if no agent
shares its address with an agent that leaves and whose instance is found. -/
theorem scaleTo_spares_iff (hn : s.roster.agents.Nodup) (h0 : 0 ≤ target)
    (ht : target < s.roster.agents.length)
    (hp : scaler.strategy.pick (surplus s target) s.roster.agents = .ok removed)
    {response : List Instance} (hr : described scaler.provider removed s = .ok response)
    (hd : Distinguished response) {made : List CloudCall}
    (hm : ((scaler.scaleTo target).after s).calls = s.calls ++ made) {ids : List Text}
    (hids : .terminate ids ∈ made) :
    Spares response ((scaler.scaleTo target).after s).roster.agents ids ↔
      Unshared response s.roster.agents removed := by
  have hpicked := picked_surplus hn hp
  cases hw : s.disk.replace (s.disk.target s.roster.path) (agentLines (staying s removed)) with
  | mk result disk =>
    cases result with
    | error f =>
      obtain ⟨_, _, _, hcalls⟩ := scaleTo_refused h0 ht hp hw
      rw [hcalls, List.self_eq_append_right] at hm
      rw [hm] at hids
      cases hids
    | ok u =>
      obtain ⟨more, dismissal, _, hroster, hcalls⟩ := scaleTo_written hn h0 ht hp hw
      rw [hcalls, List.append_cancel_left_eq] at hm
      subst hm
      rw [hroster]
      generalize (scaler.scaleTo target).outcome s = outcome at dismissal
      cases dismissal with
      | undescribed _ => simp [describeCall] at hids
      | noneFound _ _ => simp [describeCall] at hids
      | found hr' _ =>
        rw [hr] at hr'
        cases hr'
        have he : ids = idsAt response removed := by simpa [describeCall] using hids
        rw [he]
        exact spares_iff hd hpicked.nodup hpicked.mem

/-- Two agents share a public address, at which there is one instance. -/
def sharedAddress : Situation :=
  { Situation.bare ⟨.root, [], []⟩ ⟨"f", [⟨"a", "x"⟩, ⟨"a", "y"⟩]⟩ with
    service := fun
      | .describeInstances => [.ok [⟨"i-1", some "running", some "a", none⟩]]
      | .terminateInstances => [.ok ()]
      | _ => [] }

/-- The instance at the address of the agent that stays is terminated. -/
theorem scaleTo_spares_iff_sharedAddress :
    ((oldestOut.scaleTo 1).after sharedAddress).roster.agents = [⟨"a", "y"⟩] ∧
    ¬ Spares [⟨"i-1", some "running", some "a", none⟩]
      ((oldestOut.scaleTo 1).after sharedAddress).roster.agents ["i-1"] := by
  refine ⟨by decide +kernel, fun hspares => ?_⟩
  have h := (@scaleTo_spares_iff oldestOut sharedAddress 1 [⟨"a", "x"⟩] (by decide) (by decide)
    (by decide) rfl [⟨"i-1", some "running", some "a", none⟩] rfl (by unfold Distinguished; decide)
    [.describe [] ["a"], .terminate ["i-1"]] (by decide +kernel) ["i-1"] (by decide)).mp hspares
  exact absurd (h ⟨"a", "x"⟩ (by decide) (by decide) ⟨"a", "y"⟩ (by decide) rfl) (by decide)

end Scaler

end AgentFleet
