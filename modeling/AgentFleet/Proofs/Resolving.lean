import AgentFleet.Proofs.Misusing
import AgentFleet.Proofs.Shrinking

namespace AgentFleet
open AgentFleet.Action Cloud

section Entries

variable [BEq κ] [LawfulBEq κ] {entries entries' : List (κ × α)} {key : κ} {a : α}

/-- Where keys stand once, what is found by a key is what stands with it. -/
theorem lookup_iff_mem (h : (entries.map (·.1)).Nodup) :
    entries.lookup key = some a ↔ (key, a) ∈ entries := by
  rw [List.lookup_eq_some_iff]
  constructor
  · rintro ⟨before, after, rfl, _⟩
    simp
  · intro hm
    obtain ⟨before, after, rfl⟩ := List.append_of_mem hm
    refine ⟨before, after, rfl, fun e he => ?_⟩
    rw [List.map_append, List.nodup_append] at h
    have hne := h.2.2 e.1 (List.mem_map_of_mem he) key List.mem_cons_self
    simpa using hne.symm

theorem lookup_perm (h : (entries.map (·.1)).Nodup) (hp : entries'.Perm entries) (key : κ) :
    entries'.lookup key = entries.lookup key := by
  have h' : (entries'.map (·.1)).Nodup := (hp.map _).nodup_iff.mpr h
  refine Option.ext fun a => ?_
  rw [lookup_iff_mem h, lookup_iff_mem h', hp.mem_iff]

end Entries

/-- No two live instances have one address. -/
def Unambiguous (response : List Instance) : Prop :=
  (response.filterMap (·.liveAddress?)).Nodup

/-- The response comes in another order, and instances that are not live come or go. -/
inductive Rearranged : List Instance → List Instance → Prop
  | order {l l' : List Instance} (h : l.Perm l') : Rearranged l l'
  | more {i : Instance} (before after : List Instance) (h : i.liveAddress? = none) :
      Rearranged (before ++ after) (before ++ i :: after)
  | less {i : Instance} (before after : List Instance) (h : i.liveAddress? = none) :
      Rearranged (before ++ i :: after) (before ++ after)
  | trans {l l' l'' : List Instance} (h : Rearranged l l') (h' : Rearranged l' l'') :
      Rearranged l l''

namespace Found

/-- What is found is live, carries its address, and is the last to do so. -/
structure Resolves (found : Found) (response : List Instance) : Prop where
  last : ∀ address, found.lookup address = lastAt response address
  live : ∀ e ∈ found, e.2 ∈ response ∧ e.2.liveAddress? = some e.1
  once : (found.map (·.1)).Nodup

/-- The live instances of a response, one after the other. -/
def entries (response : List Instance) : Found :=
  response.filterMap fun i => i.liveAddress?.map (·, i)

theorem map_entries (response : List Instance) :
    (entries response).map (·.1) = response.filterMap (·.liveAddress?) := by
  simp [entries, List.map_filterMap, Function.comp_def]

theorem foldl_add (response : List Instance) {found : Found}
    (h : (found.map (·.1) ++ response.filterMap (·.liveAddress?)).Nodup) :
    response.foldl add found = found ++ entries response := by
  -- No address that is still to come is there yet, so each entry is new and goes to the end.
  induction response generalizing found with
  | nil => simp [entries]
  | cons i rest ih =>
    rw [List.foldl_cons]
    cases hi : i.liveAddress? with
    | none =>
      rw [List.filterMap_cons_none hi] at h
      have hadd : add found i = found := by
        unfold add
        rw [hi]
      rw [hadd, ih h]
      simp [entries, hi]
    | some address =>
      rw [List.filterMap_cons_some hi] at h
      have hfresh : address ∉ found.map (·.1) := fun hm =>
        (List.nodup_append.mp h).2.2 address hm address List.mem_cons_self rfl
      have hadd : add found i = found ++ [(address, i)] := by
        unfold add
        rw [hi]
        exact setEntry_fresh hfresh i
      rw [hadd, ih (by simpa using h)]
      simp [entries, hi]

theorem ofList_eq_entries {response : List Instance} (h : Unambiguous response) :
    ofList response = entries response :=
  foldl_add response h

theorem live_ofList (response : List Instance) :
    ∀ e ∈ ofList response, e.2 ∈ response ∧ e.2.liveAddress? = some e.1 := by
  refine List.foldlRecOn response add
    (motive := fun found => ∀ e ∈ found, e.2 ∈ response ∧ e.2.liveAddress? = some e.1)
    (List.forall_mem_nil _) fun found hfound i hi => ?_
  unfold add
  split
  · rename_i address ha
    exact forall_setEntry hfound ⟨hi, ha⟩
  · exact hfound

theorem nodup_ofList (response : List Instance) : ((ofList response).map (·.1)).Nodup := by
  have hnil : (([] : Found).map (·.1)).Nodup := List.nodup_nil
  refine List.foldlRecOn response add (motive := fun found : Found => (found.map (·.1)).Nodup)
    hnil fun found hfound i _ => ?_
  unfold add
  split
  · exact nodup_setEntry hfound
  · exact hfound

theorem resolves_ofList (response : List Instance) : (ofList response).Resolves response :=
  ⟨lookup_ofList response, live_ofList response, nodup_ofList response⟩

end Found

namespace Rearranged

variable {l l' : List Instance}

/-- Instances that are not live are not there for who looks for live ones. -/
theorem entries_perm (h : Rearranged l l') : (Found.entries l).Perm (Found.entries l') := by
  induction h with
  | order h => exact h.filterMap _
  | more before after h => simp [Found.entries, h]
  | less before after h => simp [Found.entries, h]
  | trans _ _ ih ih' => exact ih.trans ih'

theorem unambiguous (h : Rearranged l l') (hu : Unambiguous l) : Unambiguous l' := by
  unfold Unambiguous at hu ⊢
  rw [← Found.map_entries] at hu ⊢
  exact (h.entries_perm.map _).nodup hu

theorem ofList_perm (h : Rearranged l l') (hu : Unambiguous l) :
    (Found.ofList l').Perm (Found.ofList l) := by
  rw [Found.ofList_eq_entries hu, Found.ofList_eq_entries (h.unambiguous hu)]
  exact h.entries_perm.symm

end Rearranged

/-- An action looks no instances up without their ids or addresses. If it fails because one must not
do that, the cloud was going to say so by itself. -/
structure Filtered (act : Action α) (s : Situation) : Prop where
  lookups : ∃ made, (act.after s).calls = s.calls ++ made ∧ .describe [] [] ∉ made
  refusals : ∀ f, act.outcome s = .error f → f.trouble = .misuse .nothingToDescribe → s.InStore f

theorem Minds.filtered {P : Misuse → Prop} {act : Action α} {s : Situation} (h : Minds P s act)
    (hp : ¬ P .nothingToDescribe) : Filtered act s :=
  ⟨(h.keeps.after (.refl s)).lookups, fun f hf hm =>
    (h.fails s (.refl s) f hf _ hm).resolve_left hp⟩

/-- Without agents nothing is found, and nobody is asked. For agents, an address leads to the last
live instance that the cloud describes there, and nothing else is found. If no two live instances
have one address, the same is found in whatever order they come, and whatever instances come with
them that are not live. Neither scaling nor balancing looks instances up without saying which. -/
theorem findInstances_indifferent (p : Provider) :
    (∀ s, findInstances p [] s = .ok [] s) ∧
    (∀ agents s response, agents ≠ [] → described p agents s = .ok response →
      ∃ found, (findInstances p agents).outcome s = .ok found ∧ found.Resolves response ∧
        ∀ t other, described p agents t = .ok other → Unambiguous response →
          Rearranged response other →
          ∃ again, (findInstances p agents).outcome t = .ok again ∧ again.Perm found ∧
            ∀ address, again.lookup address = found.lookup address) ∧
    ∀ s,
      (∀ template poller strategy target,
        Filtered (Scaler.scaleTo ⟨p, template, poller, strategy⟩ target) s) ∧
      (∀ c count, Filtered (scaleBySettings p c count) s) ∧
      (∀ file name zones l, Filtered (addAgents p file name zones l) s) ∧
      ∀ c name, Filtered (balanceBySettings p c name) s := by
  refine ⟨fun s => rfl, fun agents s response hne hs => ?_, fun s => ⟨?_, ?_, ?_, ?_⟩⟩
  · have houtcome : ∀ {t other}, described p agents t = .ok other →
        (findInstances p agents).outcome t = .ok (.ofList other) := fun h => by
      rw [outcome, findInstances_ok hne h]
    refine ⟨_, houtcome hs, Found.resolves_ofList response, fun t other ht hu hr => ?_⟩
    have hperm := hr.ofList_perm hu
    exact ⟨_, houtcome ht, hperm, lookup_perm (Found.nodup_ofList response) hperm⟩
  · intro template poller strategy target
    refine (Scaler.scaleTo_minds _ target).filtered fun h => ?_
    cases h
  · intro c count
    have hscale : Minds (fun m => m.OfPolicy ∨ m.OfScaling .oldestFirst count) s
        (scaleBySettings p c count) := scaleBySettings_minds p c (fun _ => .inl) fun _ => .inr
    refine hscale.filtered ?_
    rintro (h | h)
    · cases h
    · cases h
  · intro file name zones l
    have hadd : Minds Misuse.OfPorts s (addAgents p file name zones l) :=
      addAgents_minds p file name zones l fun _ _ => numbered_misuse
    refine hadd.filtered fun h => ?_
    cases h
  · intro c name
    have hbalance : Minds (fun _ => False) s (balanceBySettings p c name) :=
      balanceBySettings_minds p c name
    exact hbalance.filtered id

/-- The cloud describes these instances. -/
def describing (response : List Instance) : Situation :=
  { Situation.bare ⟨.root, [], []⟩ ⟨"f", []⟩ with
    service := fun
      | .describeInstances => [.ok response]
      | _ => [] }

def runningAt (id address : Text) : Instance :=
  ⟨id, some "running", some address, none⟩

/-- Two instances are live. What is gone was at the address of one of them. -/
def withGone : List Instance :=
  [runningAt "i-1" "a", ⟨"i-2", some "terminated", some "a", none⟩, runningAt "i-3" "b"]

/-- Two agents have the same instances found when the cloud turns them round, and leaves out the one
that is gone. -/
theorem findInstances_indifferent_turned :
    ∃ found again,
      (findInstances .service [⟨"a", "x"⟩, ⟨"b", "y"⟩]).outcome (describing withGone) = .ok found ∧
      (findInstances .service [⟨"a", "x"⟩, ⟨"b", "y"⟩]).outcome
        (describing [runningAt "i-3" "b", runningAt "i-1" "a"]) = .ok again ∧
      again.Perm found ∧ found.lookup ("a" : Text) = some (runningAt "i-1" "a") := by
  obtain ⟨found, hfound, hresolves, hindifferent⟩ := (findInstances_indifferent .service).2.1
    [⟨"a", "x"⟩, ⟨"b", "y"⟩] (describing withGone) withGone nofun rfl
  have hless : Rearranged withGone [runningAt "i-1" "a", runningAt "i-3" "b"] :=
    .less [runningAt "i-1" "a"] [runningAt "i-3" "b"] (by decide)
  obtain ⟨again, hagain, hperm, _⟩ := hindifferent
    (describing [runningAt "i-3" "b", runningAt "i-1" "a"])
    [runningAt "i-3" "b", runningAt "i-1" "a"] rfl (by unfold Unambiguous; decide)
    (hless.trans (.order (.swap _ _ _)))
  exact ⟨found, again, hfound, hagain, hperm, (hresolves.last "a").trans (by decide)⟩

end AgentFleet
