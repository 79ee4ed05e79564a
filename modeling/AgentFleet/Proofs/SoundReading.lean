import AgentFleet.Proofs.Documents
import AgentFleet.Proofs.Outcome
import AgentFleet.Proofs.Texts

namespace AgentFleet.Json
open Text (Point)

theorem lt_of_mem_decimalRun {s : Text} {d : Nat} (h : d ∈ (decimalRun s).1) : d < 10 := by
  obtain ⟨p, hp, rfl⟩ := List.mem_map.mp h
  have hdecimal := List.mem_takeWhile_imp hp
  simp only [isDecimal, Bool.and_eq_true, decide_eq_true_eq] at hdecimal
  omega

theorem readWhole?_digits {s rest : Text} {ds : List Nat} (h : readWhole? s = some (ds, rest)) :
    ds ≠ [] ∧ ∀ d ∈ ds, d < 10 := by
  unfold readWhole? at h
  split at h
  · cases h
    decide
  · split at h
    · cases h
    · rename_i hempty
      have hrun := Option.some.inj h
      constructor
      · intro hnil
        subst hnil
        exact hempty rest hrun
      · intro d hd
        apply lt_of_mem_decimalRun
        rw [hrun]
        exact hd

/-- A whole number that is read has as many digits as were read at most. -/
theorem readNumber_sound {s rest : Text} {x : Decimal.Number} (h : readNumber s = .ok (x, rest)) :
    (Value.number x).IsSound := by
  unfold readNumber at h
  split at h
  rename_i negative body _
  split at h
  · cases h
  · rename_i ds left hwhole
    obtain ⟨hne, hdigits⟩ := readWhole?_digits hwhole
    split at h
    · split at h
      · cases h
      · rename_i hlimit
        cases h
        have hlength := Text.length_toDigits_ofDigits hdigits hne
        have hsize :
            (if negative = true then -(Text.ofDigits ds : Int) else Text.ofDigits ds).natAbs =
              Text.ofDigits ds := by
          split <;> simp
        change (Text.ofNat _).length ≤ _
        rw [hsize, Text.ofNat, List.length_map]
        omega
    · cases h
      trivial
    · cases h
      trivial

namespace Value

/-- Sound, and with no more within one another than there is room for. -/
structure Fits (room : Nat) (v : Value) : Prop where
  sound : v.Throughout IsSound
  depth_le : v.depth ≤ room

theorem fits_scalar {room : Nat} {v : Value} (hsound : v.IsSound) (hparts : v.parts = [v])
    (hdepth : v.depth = 0) : v.Fits room := by
  constructor
  · intro w hw
    rw [hparts, List.mem_singleton] at hw
    rwa [hw]
  · rw [hdepth]
    exact Nat.zero_le room

theorem fits_array {room : Nat} {items : List Value} (h : ∀ v ∈ items, v.Fits room) :
    (Value.array items).Fits (room + 1) :=
  ⟨throughout_array.mpr ⟨trivial, fun v hv => (h v hv).sound⟩,
    depth_array_le.mpr fun v hv => (h v hv).depth_le⟩

theorem fits_object {room : Nat} {members : List (Text × Value)} (hnames : (names members).Nodup)
    (h : ∀ m ∈ members, m.2.Fits room) : (Value.object members).Fits (room + 1) :=
  ⟨throughout_object.mpr ⟨hnames, fun m hm => (h m hm).sound⟩,
    depth_object_le.mpr fun m hm => (h m hm).depth_le⟩

end Value

theorem readScalar_fits {room : Nat} {s rest : Text} {v : Value}
    (h : readScalar s = .ok (v, rest)) : v.Fits room := by
  unfold readScalar at h
  split at h
  · rename_i read hnamed
    obtain ⟨⟨w, u⟩, hmem, hread⟩ := List.exists_of_findSome?_eq_some hnamed
    obtain ⟨left, -, hleft⟩ := Option.map_eq_some_iff.mp hread
    cases h
    cases hleft
    simp only [namedValues, List.mem_cons, Prod.mk.injEq, List.not_mem_nil, or_false] at hmem
    rcases hmem with ⟨-, rfl⟩ | ⟨-, rfl⟩ | ⟨-, rfl⟩ | ⟨-, rfl⟩ | ⟨-, rfl⟩ | ⟨-, rfl⟩
    all_goals exact Value.fits_scalar trivial rfl rfl
  · obtain ⟨⟨x, left⟩, hread, hx⟩ := except_map_eq_ok.mp h
    cases hx
    exact Value.fits_scalar (readNumber_sound hread) rfl rfl

/-- What each of the three readers promises, with so much fuel. -/
structure ReadsSoundly (fuel : Nat) : Prop where
  value : ∀ {room s v rest}, readValue fuel room s = .ok (v, rest) → v.Fits room
  items : ∀ {room s vs rest}, readItems fuel room s = .ok (vs, rest) → ∀ v ∈ vs, v.Fits room
  members : ∀ {room done s ms rest}, readMembers fuel room done s = .ok (ms, rest) →
    (names done).Nodup → (∀ m ∈ done, m.2.Fits room) →
    (names ms).Nodup ∧ ∀ m ∈ ms, m.2.Fits room

theorem ReadsSoundly.value_step {fuel : Nat} (ih : ReadsSoundly fuel) {room s v rest}
    (h : readValue (fuel + 1) room s = .ok (v, rest)) : v.Fits room := by
  unfold readValue at h
  split at h
  · obtain ⟨⟨t, left⟩, -, ht⟩ := except_map_eq_ok.mp h
    cases ht
    exact Value.fits_scalar trivial rfl rfl
  · cases h
  · cases h
  · split at h
    · cases h
      exact Value.fits_array fun _ h => nomatch h
    · obtain ⟨⟨vs, left⟩, hitems, hvs⟩ := except_map_eq_ok.mp h
      cases hvs
      exact Value.fits_array (ih.items hitems)
  · split at h
    · cases h
      exact Value.fits_object List.nodup_nil fun _ h => nomatch h
    · obtain ⟨⟨ms, left⟩, hmembers, hms⟩ := except_map_eq_ok.mp h
      cases hms
      obtain ⟨hnames, hfits⟩ := ih.members hmembers List.nodup_nil fun _ h => nomatch h
      exact Value.fits_object hnames hfits
  · exact readScalar_fits h

theorem ReadsSoundly.items_step {fuel : Nat} (ih : ReadsSoundly fuel) {room s vs rest}
    (h : readItems (fuel + 1) room s = .ok (vs, rest)) : ∀ v ∈ vs, v.Fits room := by
  unfold readItems at h
  obtain ⟨⟨v, left⟩, hvalue, h⟩ := except_bind_eq_ok.mp h
  have hv := ih.value hvalue
  dsimp only at h
  split at h
  · cases h
    exact List.forall_mem_singleton.mpr hv
  · obtain ⟨⟨ws, left⟩, hitems, h⟩ := except_bind_eq_ok.mp h
    cases h
    exact List.forall_mem_cons.mpr ⟨hv, ih.items hitems⟩
  · cases h

theorem ReadsSoundly.members_step {fuel : Nat} (ih : ReadsSoundly fuel) {room done s ms rest}
    (h : readMembers (fuel + 1) room done s = .ok (ms, rest)) (hnames : (names done).Nodup)
    (hdone : ∀ m ∈ done, m.2.Fits room) : (names ms).Nodup ∧ ∀ m ∈ ms, m.2.Fits room := by
  unfold readMembers at h
  split at h
  · obtain ⟨⟨name, left⟩, -, h⟩ := except_bind_eq_ok.mp h
    dsimp only at h
    split at h
    · obtain ⟨⟨v, left⟩, hvalue, h⟩ := except_bind_eq_ok.mp h
      have hnames' : (names (setEntry done name v)).Nodup := nodup_setEntry hnames
      have hdone' : ∀ m ∈ setEntry done name v, m.2.Fits room :=
        forall_setEntry hdone (ih.value hvalue)
      dsimp only at h
      split at h
      · cases h
        exact ⟨hnames', hdone'⟩
      · exact ih.members h hnames' hdone'
      · cases h
    · cases h
  · cases h

theorem readsSoundly (fuel : Nat) : ReadsSoundly fuel := by
  induction fuel with
  | zero =>
    constructor
    · intro _ _ _ _ h
      cases h
    · intro _ _ _ _ h
      cases h
    · intro _ _ _ _ _ h
      cases h
  | succ k ih => exact ⟨ih.value_step, ih.items_step, ih.members_step⟩

/-- A document that is read is sound, and not too deep. -/
theorem readDocument_fits {s : Text} {v : Value} (h : readDocument s = .ok v) :
    v.Fits depthLimit := by
  unfold readDocument at h
  dsimp only at h
  split at h
  · cases h
  · obtain ⟨⟨w, left⟩, hvalue, h⟩ := except_bind_eq_ok.mp h
    dsimp only at h
    split at h
    · cases h
      exact (readsSoundly _).value hvalue
    · cases h

end AgentFleet.Json
