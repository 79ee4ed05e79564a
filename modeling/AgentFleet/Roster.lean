import AgentFleet.Fault

namespace AgentFleet

/-- The list without later occurrences of what it holds already. -/
def distinct : List Agent → List Agent
  | [] => []
  | a :: r => a :: (distinct r).filter (· ≠ a)

theorem mem_distinct (l : List Agent) (a : Agent) : a ∈ distinct l ↔ a ∈ l := by
  induction l with
  | nil => simp [distinct]
  | cons b r ih =>
    by_cases h : a = b <;> simp [distinct, h, ih]

theorem nodup_distinct (l : List Agent) : (distinct l).Nodup := by
  induction l with
  | nil => simp [distinct]
  | cons b r ih => exact List.nodup_cons.mpr ⟨by simp, ih.filter _⟩

/-- The agents of a fleet, oldest first, and the path of the file that holds them. -/
structure Roster where
  path : Text
  agents : List Agent
  deriving DecidableEq, Repr

/-- A way to draw `count` of `total` positions, no position twice. -/
structure Draw where
  positions : (total count : Nat) → List Nat
  length_eq : ∀ {total count}, count ≤ total → (positions total count).length = count
  nodup : ∀ {total count}, count ≤ total → (positions total count).Nodup
  lt_total : ∀ {total count}, count ≤ total → ∀ p ∈ positions total count, p < total

/-- The draw that takes the first positions. -/
def Draw.firsts : Draw where
  positions _ count := List.range count
  length_eq _ := List.length_range
  nodup _ := List.nodup_range
  lt_total h _ hp := Nat.lt_of_lt_of_le (List.mem_range.mp hp) h

/-- How agents are picked. -/
inductive Strategy
  | oldestFirst
  | newestFirst
  | random (draw : Draw)
  | unknown (name : Text)

namespace Roster

/-- A roster never holds an agent twice. -/
def ofList (path : Text) (agents : List Agent) : Roster :=
  ⟨path, distinct agents⟩

def publicAddresses (r : Roster) : List Text :=
  r.agents.map (·.publicAddress)

def shown (r : Roster) : Text :=
  "Registry(path=" ++ Text.quoted r.path ++ ", agents=" ++ Text.ofNat r.agents.length ++ ")"

end Roster

/-- `count` agents in the order in which they are picked; `count` is at most their number. -/
def Strategy.pick (count : Nat) (agents : List Agent) : Strategy → Except Fault (List Agent)
  | .oldestFirst => .ok (agents.take count)
  | .newestFirst => .ok (agents.reverse.take count)
  | .random draw => .ok ((draw.positions agents.length count).filterMap (agents[·]?))
  | .unknown name => .error (.of (.misuse (.unknownStrategy name)))

end AgentFleet
