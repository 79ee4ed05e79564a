import AgentFleet.Proofs.Growing

namespace AgentFleet
open AgentFleet.Action Cloud Scaler

/-- The agents of `records` that are not known, each once, in order. -/
def strangers (known records : List Agent) : List Agent :=
  (distinct records).filter (· ∉ known)

/-- All different, and none of them known. -/
def Fresh (known records : List Agent) : Prop :=
  records.Nodup ∧ ∀ a ∈ records, a ∉ known

instance (known records : List Agent) : Decidable (Fresh known records) :=
  inferInstanceAs (Decidable (_ ∧ _))

section Strangers

variable {known records : List Agent} {a : Agent}

@[simp] theorem strangers_nil (known : List Agent) : strangers known [] = [] := rfl

theorem strangers_known (h : a ∈ known) :
    strangers known (a :: records) = strangers known records := by
  unfold strangers
  rw [distinct, List.filter_cons_of_neg (by simpa using h), List.filter_filter]
  refine List.filter_congr fun b _ => ?_
  by_cases hb : b = a
  · simp [hb, h]
  · simp [hb]

theorem strangers_new (h : a ∉ known) :
    strangers known (a :: records) = a :: strangers (known ++ [a]) records := by
  unfold strangers
  rw [distinct, List.filter_cons_of_pos (by simpa using h), List.filter_filter]
  refine congrArg (a :: ·) (List.filter_congr fun b _ => ?_)
  simp

theorem fresh_cons : Fresh known (a :: records) ↔ a ∉ known ∧ Fresh (known ++ [a]) records := by
  simp only [Fresh, List.nodup_cons, List.forall_mem_cons, List.mem_append, List.mem_singleton]
  constructor
  · rintro ⟨⟨ha, hn⟩, hk, hr⟩
    exact ⟨hk, hn, fun b hb => fun h => h.elim (hr b hb) fun e => ha (e ▸ hb)⟩
  · rintro ⟨hk, hn, hr⟩
    exact ⟨⟨fun ha => hr a ha (.inr rfl), hn⟩, hk, fun b hb h => hr b hb (.inl h)⟩

theorem length_strangers_le : (strangers known records).length ≤ records.length := by
  induction records generalizing known with
  | nil => simp
  | cons a rest ih =>
    by_cases h : a ∈ known
    · rw [strangers_known h]
      exact Nat.le_succ_of_le ih
    · rw [strangers_new h]
      exact Nat.succ_le_succ ih

/-- There are as many new agents as instances exactly if the instances are fresh. -/
theorem length_strangers_iff : (strangers known records).length = records.length ↔
    Fresh known records := by
  induction records generalizing known with
  | nil => simp [Fresh]
  | cons a rest ih =>
    rw [fresh_cons]
    by_cases h : a ∈ known
    · rw [strangers_known h]
      have hle := @length_strangers_le known rest
      refine iff_of_false (by rw [List.length_cons]; omega) fun hf => hf.1 h
    · rw [strangers_new h, List.length_cons, List.length_cons, Nat.succ_inj, ih]
      exact (and_iff_right h).symm

end Strangers

namespace Scaler

/-- Instances of these ids are found ready one after another, and nothing keeps their agents from
being added. -/
inductive Smooth (scaler : Scaler) : (ids : List Text) → Situation → (records : List Agent) → Prop
  | nil (s : Situation) : Smooth scaler [] s []
  | cons {id : Text} (hw : scaler.poller.waitUntilReady scaler.provider id s = .ok i t)
      (ha : Roster.add (agentOf i) t = .ok added u)
      (rest : Smooth scaler ids ((register i).after t) records) :
      Smooth scaler (id :: ids) s (agentOf i :: records)

variable {scaler : Scaler} {s : Situation}

theorem Smooth.length_eq {ids : List Text} {records : List Agent}
    (h : Smooth scaler ids s records) : records.length = ids.length := by
  induction h with
  | nil s => rfl
  | cons hw ha rest ih => exact congrArg (· + 1) ih

/-- Where nothing fails the strangers become agents. -/
theorem Smooth.enrollAll {ids : List Text} {records : List Agent}
    (h : Smooth scaler ids s records) :
    (scaler.enrollAll ids).outcome s = .ok (strangers s.roster.agents records, []) ∧
      ((scaler.enrollAll ids).after s).roster =
        ⟨s.roster.path, s.roster.agents ++ strangers s.roster.agents records⟩ := by
  induction h with
  | nil s =>
    rw [strangers_nil, List.append_nil]
    exact ⟨rfl, rfl⟩
  | @cons s i t added u ids records id hw ha rest ih =>
    obtain ⟨_, _, hlooked⟩ := scaler.poller.waitUntilReady_watch scaler.provider id s
    have hroster := hlooked.roster
    rw [after, hw] at hroster
    obtain ⟨v, hregister, told⟩ := register_told ha
    obtain ⟨houtcome, hafter⟩ := enrollAll_cons ((enroll_ready hw).trans hregister) ids
    have hend : (register i).after t = v := by rw [after, hregister]
    rw [hend] at ih
    rw [houtcome, hafter, ih.1, ih.2, ← hroster, told.idle.roster]
    -- a record that is known adds nobody, though its instance is ready
    rcases Roster.add_ok ha with ⟨hm, rfl, rfl⟩ | ⟨hm, rfl, hc⟩
    · rw [strangers_known hm]
      exact ⟨rfl, rfl⟩
    · obtain ⟨disk, _, rfl⟩ := Roster.commit_ok hc
      rw [strangers_new hm]
      exact ⟨rfl, by simp⟩

variable {target : Int}

/-- Nothing is asked of the cloud for a fleet that is as large as is meant. -/
theorem scaleTo_same (scaler : Scaler) (h : (s.roster.agents.length : Int) = target) :
    ((scaler.scaleTo target).after s).calls = s.calls := by
  obtain ⟨u, hu, told⟩ := info_told ("Scaling fleet from " ++
    Text.ofNat s.roster.agents.length ++ " to " ++ Text.ofInt target ++ " agents") s
  obtain ⟨v, hv, more⟩ := info_told ("Fleet already has " ++
    Text.ofNat s.roster.agents.length ++ " agents. Nothing to do.") u
  have hrun : scaler.scaleTo target s = .ok ⟨target, [], [], [], []⟩ v := by
    unfold scaleTo
    rw [if_neg (by omega)]
    simp only [get_bind_run]
    rw [bind_run hu, if_neg (by omega), if_neg (by omega)]
    exact bind_run hv
  rw [after, hrun]
  exact (told.trans more).calls

/-- The cloud is asked for what is missing, whatever comes of it. -/
theorem scaleTo_asks (scaler : Scaler) (ht : s.roster.agents.length < target) :
    ((scaler.scaleTo target).after s).calls ≠ s.calls := by
  cases hc : (scaler.creation s target).outcome s with
  | error f =>
    obtain ⟨_, _, _, hcalls⟩ := scaleTo_uncreated ht hc
    simp [hcalls]
  | ok created =>
    obtain ⟨_, _, _, hprogress⟩ :=
      scaler.enrollAll_growth (s := (scaler.start target).after s) (created.map (·.id)) rfl
    rw [(scaleTo_created ht hc).2.calls, hprogress.asked.calls, (scaler.start_called ht).2.calls]
    simp

/-- A growth to which as many instances are given as were asked for, all of which become ready and
are written, returns. It has reached its target exactly if the instances are fresh; else the next
one asks the cloud again. -/
theorem scaleTo_reaches_iff {created : List Instance} {records : List Agent}
    (ht : s.roster.agents.length < target)
    (hc : (scaler.creation s target).outcome s = .ok created)
    (hlength : (created.length : Int) = target - s.roster.agents.length)
    (hs : Smooth scaler (created.map (·.id)) ((scaler.start target).after s) records) :
    (scaler.scaleTo target).outcome s =
        .ok ⟨target, strangers s.roster.agents records, [], [], []⟩ ∧
      ((scaler.scaleTo target).after s).roster =
        ⟨s.roster.path, s.roster.agents ++ strangers s.roster.agents records⟩ ∧
      ((strangers s.roster.agents records).length = target - s.roster.agents.length ↔
        Fresh s.roster.agents records) ∧
      (((scaler.scaleTo target).after s).roster.agents.length = target ↔
        Fresh s.roster.agents records) ∧
      (((scaler.scaleTo target).after ((scaler.scaleTo target).after s)).calls =
          ((scaler.scaleTo target).after s).calls ↔ Fresh s.roster.agents records) := by
  obtain ⟨houtcome, htold⟩ := scaleTo_created ht hc
  obtain ⟨henrolled, hroster⟩ := hs.enrollAll
  rw [(scaler.start_called ht).2.roster] at henrolled hroster
  rw [henrolled] at houtcome
  have hafter := htold.idle.roster.trans hroster
  have hrecords : (records.length : Int) = target - s.roster.agents.length := by
    rw [hs.length_eq, List.length_map, hlength]
  have hle := @length_strangers_le s.roster.agents records
  have hadded : ((strangers s.roster.agents records).length : Int) =
      target - s.roster.agents.length ↔ Fresh s.roster.agents records := by
    rw [← hrecords, Int.natCast_inj, length_strangers_iff]
  have hreached : (((scaler.scaleTo target).after s).roster.agents.length : Int) = target ↔
      Fresh s.roster.agents records := by
    rw [← hadded, hafter, List.length_append]
    omega
  refine ⟨houtcome, hafter, hadded, hreached, ?_⟩
  rw [← hreached]
  constructor
  · intro hcalls
    refine Classical.byContradiction fun hne => ?_
    have hless : ((scaler.scaleTo target).after s).roster.agents.length < target := by
      rw [hafter, List.length_append] at hne ⊢
      omega
    exact scaler.scaleTo_asks hless hcalls
  · exact scaler.scaleTo_same

/-- The cloud gives a new instance, which is ready at once, to a fleet of one agent. -/
def givenTo (address : Text) : Situation :=
  { Situation.bare ⟨.root, [], []⟩ ⟨"f", [⟨"a", "x"⟩]⟩ with
    service := fun
      | .createInstances => [.ok [⟨"i-1", some "pending", none, none⟩]]
      | .describeInstances => [.ok [⟨"i-1", some "running", some address, some "x"⟩]]
      | _ => [] }

/-- An instance at the address of an agent that is known does not bring the fleet to its target. -/
theorem scaleTo_reaches_iff_givenTo :
    ((lookingTwice.scaleTo 2).after (givenTo "b")).roster.agents = [⟨"a", "x"⟩, ⟨"b", "x"⟩] ∧
    ((lookingTwice.scaleTo 2).after (givenTo "a")).roster.agents.length ≠ 2 := by
  have hsmooth : ∀ address : Text, address = "a" ∨ address = "b" →
      Smooth lookingTwice ["i-1"] ((lookingTwice.start 2).after (givenTo address))
        [⟨address, "x"⟩] := by
    rintro address (rfl | rfl)
    · exact .cons (i := ⟨"i-1", some "running", some "a", some "x"⟩) (run_ok (by decide +kernel))
        (run_ok (a := false) (by decide +kernel)) (.nil _)
    · exact .cons (i := ⟨"i-1", some "running", some "b", some "x"⟩) (run_ok (by decide +kernel))
        (run_ok (a := true) (by decide +kernel)) (.nil _)
  constructor
  · have h := @scaleTo_reaches_iff lookingTwice (givenTo "b") 2 _ _ (by decide) rfl rfl
      (hsmooth "b" (.inr rfl))
    rw [h.2.1]
    decide
  · have h := @scaleTo_reaches_iff lookingTwice (givenTo "a") 2 _ _ (by decide) rfl rfl
      (hsmooth "a" (.inl rfl))
    intro he
    exact absurd (h.2.2.2.1.mp (congrArg _ he)) (by decide)

end Scaler

end AgentFleet
