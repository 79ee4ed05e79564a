namespace AgentFleet

/-- No separator gives one piece. -/
def fields [DecidableEq α] (separator : α) : List α → List (List α)
  | [] => [[]]
  | a :: r =>
    if a = separator then [] :: fields separator r
    else match fields separator r with
      | f :: fs => (a :: f) :: fs
      | [] => [[a]]

theorem fields_ne_nil [DecidableEq α] (separator : α) (l : List α) : fields separator l ≠ [] := by
  cases l with
  | nil => simp [fields]
  | cons a r =>
    rw [fields]
    split
    · simp
    · split <;> simp

end AgentFleet
