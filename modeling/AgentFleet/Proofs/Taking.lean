import AgentFleet.Proofs.Atomicity

namespace AgentFleet
open AgentFleet.Action

namespace Strategy

/-- The agents in the order in which they leave. -/
def queue (agents : List Agent) : Strategy → List Agent
  | .newestFirst => agents.reverse
  | _ => agents

/-- The agents leave in the order in which they came, or in the opposite one. -/
def InOrder (strategy : Strategy) : Prop :=
  strategy = .oldestFirst ∨ strategy = .newestFirst

variable {strategy : Strategy} {agents : List Agent}

theorem InOrder.pick (h : strategy.InOrder) (n : Nat) (agents : List Agent) :
    strategy.pick n agents = .ok ((strategy.queue agents).take n) := by
  rcases h with rfl | rfl <;> rfl

theorem length_queue (strategy : Strategy) (agents : List Agent) :
    (strategy.queue agents).length = agents.length := by
  cases strategy <;> simp [queue]

theorem nodup_queue (h : agents.Nodup) : (strategy.queue agents).Nodup := by
  cases strategy <;> simp [queue, h]

theorem queue_filter (strategy : Strategy) (keep : Agent → Bool) (agents : List Agent) :
    strategy.queue (agents.filter keep) = (strategy.queue agents).filter keep := by
  cases strategy <;> simp [queue]

theorem queue_injective {agents' : List Agent}
    (h : strategy.queue agents = strategy.queue agents') : agents = agents' := by
  cases strategy with
  | newestFirst => exact List.reverse_injective h
  | oldestFirst | random draw | unknown name => exact h

/-- Who stays is behind in the queue. -/
theorem queue_staying (h : agents.Nodup) (n : Nat) :
    strategy.queue (agents.filter (· ∉ (strategy.queue agents).take n)) =
      (strategy.queue agents).drop n := by
  rw [queue_filter]
  exact Roster.filter_not_mem_take (nodup_queue h) n

end Strategy

namespace Roster

variable {s t u : Situation} {picked : List Agent} {strategy : Strategy}

/-- What a call is going to write can be written. -/
def Call.Granted (s : Situation) (call : Call) : Prop :=
  ∀ list, call.Writes s list →
    ∃ disk, s.disk.replace (s.disk.target (call.file s)) (agentLines list) = (.ok (), disk)

section Stored

variable {before after later : Disk.Store} {path : Text} {list list' : List Agent}

/-- What is written last to a file stays. -/
theorem Stored.trans (h : Stored before after path list) (h' : Stored after later path list') :
    Stored before later path list' := by
  obtain ⟨p, hp, w⟩ := h
  obtain ⟨q, hq, w'⟩ := h'
  rw [target_congr w.base, w.leads] at hq
  cases hp.unique hq
  refine ⟨p, hp, w'.base.trans w.base, fun x => ?_, w.noDirectory⟩
  rw [w'.node? x, w.node? x]
  split <;> rfl

theorem Stored.node?_eq (h : Stored before after path list) (h' : Stored before later path list)
    (q : Disk.Place) : after.node? q = later.node? q := by
  obtain ⟨p, hp, w⟩ := h
  obtain ⟨p', hp', w'⟩ := h'
  cases hp.unique hp'
  rw [w.node? q, w'.node? q]

end Stored

/-- Agents were taken out of the roster. The file was written if anyone left. -/
structure Taken (s : Situation) (picked : List Agent) (t : Situation) : Prop where
  roster : t.roster = { s.roster with agents := s.roster.agents.filter (· ∉ picked) }
  idle : picked = [] → t = s
  stored : picked ≠ [] → Stored s.disk t.disk s.roster.path t.roster.agents

/-- No more agents are taken than there are. -/
theorem take_clamped (n : Nat) (strategy : Strategy) (s : Situation) :
    take n strategy s = take (min n s.roster.agents.length : Nat) strategy s := by
  unfold take
  rw [if_neg (by omega), if_neg (by omega)]
  simp only [get_bind_run, Int.toNat_natCast, Nat.min_assoc, Nat.min_self]

theorem take_none (strategy : Strategy) (s : Situation) :
    take (0 : Nat) strategy s = .ok [] s := by
  simp [take]

/-- A call that can be written returns those who are picked, and the others stay. -/
theorem take_granted {n : Nat} (hn : s.roster.agents.Nodup)
    (hp : strategy.pick (min n s.roster.agents.length) s.roster.agents = .ok picked)
    (hg : (Call.take n strategy).Granted s) :
    ∃ t, take n strategy s = .ok picked t ∧ Taken s picked t := by
  have hlen := (Strategy.pick_spec hn (Nat.min_le_right ..) hp).length_eq
  rw [take_clamped]
  by_cases hz : min n s.roster.agents.length = 0
  · have he : picked = [] := List.eq_nil_of_length_eq_zero (hlen.trans hz)
    rw [hz, he]
    exact ⟨s, take_none strategy s, by simp, fun _ => rfl, fun h => absurd rfl h⟩
  · have hne : picked ≠ [] := by
      rintro rfl
      exact hz hlen.symm
    obtain ⟨disk, hd⟩ := hg _ (.take (Int.natCast_nonneg n) (by simpa using hz) hp)
    simp only [Call.file] at hd
    have hc : commit (s.roster.agents.filter (· ∉ picked)) s =
        .ok () { s with disk, roster.agents := s.roster.agents.filter (· ∉ picked) } := by
      rw [commit_run, hd]
    refine ⟨_, (take_run hz (Nat.min_le_right ..) hp).trans (bind_run hc), rfl,
      fun h => absurd h hne, fun _ => commit_stored hc⟩

namespace Taken

variable {more : List Agent} {v : Situation}

theorem path_eq (h : Taken s picked t) : t.roster.path = s.roster.path := by
  rw [h.roster]

theorem nodup (h : Taken s picked t) (hn : s.roster.agents.Nodup) : t.roster.agents.Nodup := by
  rw [h.roster]
  exact hn.filter _

/-- Files are the same whether agents leave in two calls or in one. -/
theorem node?_eq (h : Taken s picked t) (h' : Taken t more u) (hall : Taken s (picked ++ more) v)
    (hr : u.roster = v.roster) (q : Disk.Place) : u.disk.node? q = v.disk.node? q := by
  by_cases hp : picked = []
  · subst hp
    rw [h.idle rfl] at h'
    by_cases hm : more = []
    · rw [h'.idle hm, hall.idle (by simp [hm])]
    · have hu := h'.stored hm
      rw [hr] at hu
      exact hu.node?_eq (hall.stored (by simp [hm])) q
  · have hv := hall.stored (by simp [hp])
    by_cases hm : more = []
    · have hu := h.stored hp
      rw [← h'.idle hm, hr] at hu
      exact hu.node?_eq hv q
    · have hu := h'.stored hm
      rw [h.path_eq, hr] at hu
      exact ((h.stored hp).trans hu).node?_eq hv q

end Taken

/-- Agents that leave in order are the first in the queue, and those behind them stay. -/
theorem take_inOrder {n : Nat} (hs : strategy.InOrder) (hn : s.roster.agents.Nodup)
    (hg : (Call.take n strategy).Granted s) :
    ∃ t, take n strategy s = .ok ((strategy.queue s.roster.agents).take n) t ∧
      Taken s ((strategy.queue s.roster.agents).take n) t ∧
      strategy.queue t.roster.agents = (strategy.queue s.roster.agents).drop n := by
  have hp := hs.pick (min n s.roster.agents.length) s.roster.agents
  have hmin : (strategy.queue s.roster.agents).take (min n s.roster.agents.length) =
      (strategy.queue s.roster.agents).take n := by
    rw [← strategy.length_queue s.roster.agents]
    exact List.take_eq_take_min.symm
  rw [hmin] at hp
  obtain ⟨t, hrun, ht⟩ := take_granted hn hp hg
  refine ⟨t, hrun, ht, ?_⟩
  rw [ht.roster]
  exact Strategy.queue_staying hn n

/-- Some agents and then some more leave in order as all of them do at once. -/
theorem take_take {m n : Nat} (hs : strategy.InOrder) (hn : s.roster.agents.Nodup)
    (hm : (Call.take m strategy).Granted s)
    (hmore : (Call.take n strategy).Granted ((take m strategy).after s))
    (hall : (Call.take (m + n : Nat) strategy).Granted s) :
    ∃ picked more t u v, take m strategy s = .ok picked t ∧ take n strategy t = .ok more u ∧
      take (m + n : Nat) strategy s = .ok (picked ++ more) v ∧ u.roster = v.roster ∧
      ∀ q, u.disk.node? q = v.disk.node? q := by
  obtain ⟨t, ht, htaken, htqueue⟩ := take_inOrder hs hn hm
  rw [after_of_ok ht] at hmore
  obtain ⟨u, hu, hutaken, huqueue⟩ := take_inOrder hs (htaken.nodup hn) hmore
  obtain ⟨v, hv, hvtaken, hvqueue⟩ := take_inOrder hs hn hall
  rw [htqueue] at hu hutaken huqueue
  rw [List.take_add] at hv hvtaken
  have hpath : u.roster.path = v.roster.path := by
    rw [hutaken.path_eq, htaken.path_eq, hvtaken.path_eq]
  have hqueue : strategy.queue u.roster.agents = strategy.queue v.roster.agents := by
    rw [huqueue, hvqueue, List.drop_drop]
  have hagents := Strategy.queue_injective hqueue
  have hr : u.roster = v.roster :=
    calc u.roster = ⟨u.roster.path, u.roster.agents⟩ := rfl
      _ = ⟨v.roster.path, v.roster.agents⟩ := by rw [hpath, hagents]
  exact ⟨_, _, t, u, v, ht, hu, hv, hr, htaken.node?_eq hutaken hvtaken hr⟩

/-- Whom the oldest leave behind, the newest would have left before. -/
theorem take_oldest_newest {k : Nat} (hn : s.roster.agents.Nodup)
    (hk : k ≤ s.roster.agents.length)
    (hg : (Call.take k .oldestFirst).Granted s)
    (hg' : (Call.take (s.roster.agents.length - k : Nat) .newestFirst).Granted s) :
    ∃ older newer t u, take k .oldestFirst s = .ok older t ∧
      take (s.roster.agents.length - k : Nat) .newestFirst s = .ok newer u ∧
      t.roster.agents = newer.reverse := by
  obtain ⟨t, ht, _, htqueue⟩ := take_inOrder (.inl rfl) hn hg
  obtain ⟨u, hu, _, _⟩ := take_inOrder (.inr rfl) hn hg'
  refine ⟨_, _, t, u, ht, hu, ?_⟩
  have hstay : t.roster.agents = s.roster.agents.drop k := htqueue
  rw [hstay, Strategy.queue, List.take_reverse, List.reverse_reverse, Nat.sub_sub_self hk]

/-- Whatever positions are drawn, the agents there leave, and the others stay as they were. -/
theorem take_drawn {count : Nat} {draw : Draw} (hn : s.roster.agents.Nodup)
    (hg : (Call.take count (.random draw)).Granted s) :
    ∃ picked t, take count (.random draw) s = .ok picked t ∧
      picked = (draw.positions s.roster.agents.length (min count s.roster.agents.length)).filterMap
        (s.roster.agents[·]?) ∧
      picked.length = min count s.roster.agents.length ∧ picked.Nodup ∧
      t.roster.agents = s.roster.agents.filter (· ∉ picked) ∧
      (picked ++ t.roster.agents).Perm s.roster.agents := by
  have hpicked := draw.picked hn (Nat.min_le_right count s.roster.agents.length)
  obtain ⟨t, hrun, ht⟩ := take_granted hn rfl hg
  refine ⟨_, t, hrun, rfl, hpicked.length_eq, hpicked.nodup, by rw [ht.roster], ?_⟩
  rw [ht.roster]
  exact hpicked.perm hn

/-- Where there are no more than are to leave, all of them do. -/
theorem take_all {count : Nat} (hs : ∀ name, strategy ≠ .unknown name)
    (hn : s.roster.agents.Nodup) (hc : s.roster.agents.length ≤ count)
    (hg : (Call.take count strategy).Granted s) :
    ∃ picked t, take count strategy s = .ok picked t ∧ picked.Perm s.roster.agents ∧
      t.roster.agents = [] := by
  obtain ⟨picked, hp⟩ : ∃ picked, strategy.pick (min count s.roster.agents.length)
      s.roster.agents = .ok picked := by
    cases strategy with
    | oldestFirst | newestFirst | random draw => exact ⟨_, rfl⟩
    | unknown name => exact absurd rfl (hs name)
  have hpicked := Strategy.pick_spec hn (Nat.min_le_right ..) hp
  have hnone : s.roster.agents.filter (· ∉ picked) = [] := by
    refine List.eq_nil_of_length_eq_zero ?_
    rw [hpicked.length_kept hn, Nat.min_eq_right hc, Nat.sub_self]
  obtain ⟨t, hrun, ht⟩ := take_granted hn hp hg
  refine ⟨picked, t, hrun, ?_, by rw [ht.roster, hnone]⟩
  have hperm := hpicked.perm hn
  rwa [hnone, List.append_nil] at hperm

/-- Laws of taking agents, where what is to be written can be. -/
theorem take_laws (hn : s.roster.agents.Nodup) :
    (∀ (strategy : Strategy) (m n : Nat), strategy.InOrder → (Call.take m strategy).Granted s →
      (Call.take n strategy).Granted ((take m strategy).after s) →
      (Call.take (m + n : Nat) strategy).Granted s →
      ∃ picked more t u v, take m strategy s = .ok picked t ∧ take n strategy t = .ok more u ∧
        take (m + n : Nat) strategy s = .ok (picked ++ more) v ∧ u.roster = v.roster ∧
        ∀ q, u.disk.node? q = v.disk.node? q) ∧
    (∀ k, k ≤ s.roster.agents.length → (Call.take k .oldestFirst).Granted s →
      (Call.take (s.roster.agents.length - k : Nat) .newestFirst).Granted s →
      ∃ older newer t u, take k .oldestFirst s = .ok older t ∧
        take (s.roster.agents.length - k : Nat) .newestFirst s = .ok newer u ∧
        t.roster.agents = newer.reverse) ∧
    (∀ (draw : Draw) (count : Nat), (Call.take count (.random draw)).Granted s →
      ∃ picked t, take count (.random draw) s = .ok picked t ∧
        picked = (draw.positions s.roster.agents.length
          (min count s.roster.agents.length)).filterMap (s.roster.agents[·]?) ∧
        picked.length = min count s.roster.agents.length ∧ picked.Nodup ∧
        t.roster.agents = s.roster.agents.filter (· ∉ picked) ∧
        (picked ++ t.roster.agents).Perm s.roster.agents) ∧
    ∀ (strategy : Strategy) (count : Nat), (∀ name, strategy ≠ .unknown name) →
      s.roster.agents.length ≤ count → (Call.take count strategy).Granted s →
      ∃ picked t, take count strategy s = .ok picked t ∧ picked.Perm s.roster.agents ∧
        t.roster.agents = [] :=
  ⟨fun _ _ _ hs => take_take hs hn, fun _ hk => take_oldest_newest hn hk,
    fun _ _ => take_drawn hn, fun _ _ hs hc => take_all hs hn hc⟩

/-- Three agents on a disk that is not upset. -/
def threeToTake : Situation :=
  .bare ⟨.root, [], []⟩ ⟨"f", [⟨"a", "x"⟩, ⟨"b", "y"⟩, ⟨"c", "z"⟩]⟩

/-- The two newest agents leave one after the other as they do together. -/
theorem take_laws_threeToTake : ∃ picked more t u v,
    take 1 .newestFirst threeToTake = .ok picked t ∧ take 1 .newestFirst t = .ok more u ∧
    take 2 .newestFirst threeToTake = .ok (picked ++ more) v ∧ u.roster = v.roster ∧
    ∀ q, u.disk.node? q = v.disk.node? q := by
  refine (take_laws (s := threeToTake) (by decide)).1 .newestFirst 1 1 (.inr rfl) ?_ ?_ ?_
  · intro list hw
    cases hw with | take _ _ hp => cases hp; exact ⟨_, rfl⟩
  · intro list hw
    cases hw with | take _ _ hp => cases hp; exact ⟨_, rfl⟩
  · intro list hw
    cases hw with | take _ _ hp => cases hp; exact ⟨_, rfl⟩

end Roster

end AgentFleet
