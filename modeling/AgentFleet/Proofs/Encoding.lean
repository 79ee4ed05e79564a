import AgentFleet.CommandLine.Value
import AgentFleet.Message
import AgentFleet.Proofs.ReadingBack
import AgentFleet.Proofs.SoundReading

namespace AgentFleet
open Json
open Json.Value (IsSound IsExact)

namespace Message

variable {m n : Message}

/-- What a message is made of, in the order in which it is written. -/
def members (m : Message) : List (Text × Value) :=
  [("payload", m.payload), ("type", .text m.type)]

theorem nodup_members (m : Message) : (names m.members.reverse).Nodup := by
  simp [names, members]
  decide

theorem byName_members (m : Message) : byName m.members.reverse = m.members := by
  rw [byName_eq_of_perm m.members.reverse_perm m.nodup_members]
  apply List.mergeSort_of_pairwise
  simp [members]
  decide

theorem value_eq (m : Message) : m.value = .object m.members.reverse :=
  rfl

theorem toJson_eq (m : Message) :
    m.toJson = "\x7b" ++ Text.join ", " [printMember "payload" m.payload.print,
      printMember "type" (printText m.type)] ++ "\x7d" := by
  rw [toJson, value_eq, Value.print_object, byName_members]
  rfl

theorem canonical_value (m : Message) :
    m.value.canonical =
      .record [("payload", m.payload.canonical), ("type", .text m.type.paired)] := by
  rw [value_eq, Value.canonical_object, byName_members]
  rfl

theorem readsBack (hsound : m.payload.Throughout IsSound) (hexact : m.payload.Throughout IsExact) :
    m.value.ReadsBack := by
  have hread : ∀ e ∈ m.members.reverse, e.2.ReadsBack := by
    simp [members, Value.readsBack hsound hexact, Value.readsBack_text]
  have hfit : ∀ e ∈ m.members.reverse, e.1.Unsplit ∧ ¬e.2.IsReal := by
    have htype : ¬(Value.text m.type).IsReal := id
    simp [members, Text.unsplit_ofString, hexact.head.not_isReal, htype]
  exact Value.readsBack_object hread hfit m.nodup_members

theorem payload_eq_ok {text : Text} {v : Value} (h : CommandLine.payload text = .ok v) :
    readDocument text = .ok v := by
  unfold CommandLine.payload at h
  split at h <;> cases h
  assumption

theorem payload_toJson (hsound : m.payload.Throughout IsSound)
    (hexact : m.payload.Throughout IsExact) (hdepth : m.payload.depth < depthLimit) :
    CommandLine.payload m.toJson =
      .ok (.record [("payload", m.payload.canonical), ("type", .text m.type.paired)]) := by
  have hroom : m.value.depth ≤ depthLimit := by
    obtain ⟨k, hk⟩ : ∃ k, depthLimit = k + 1 := ⟨_, rfl⟩
    rw [hk] at hdepth ⊢
    apply Value.depth_object_le.mpr
    simp [Nat.le_of_lt_succ hdepth, Value.depth]
  unfold CommandLine.payload toJson
  rw [(readsBack hsound hexact).readDocument id hroom, canonical_value]

theorem toJson_eq_iff (hsound : m.payload.Throughout IsSound)
    (hexact : m.payload.Throughout IsExact) (hnSound : n.payload.Throughout IsSound)
    (hnExact : n.payload.Throughout IsExact) :
    m.toJson = n.toJson ↔ m.type.paired = n.type.paired ∧ m.payload.Same n.payload := by
  constructor
  · intro h
    have hcanonical := (readsBack hsound hexact).canonical_eq (readsBack hnSound hnExact) h
    rw [canonical_value, canonical_value] at hcanonical
    simp only [Value.record, List.map_cons, List.map_nil, Value.object.injEq, List.cons.injEq,
      Prod.mk.injEq, Value.text.injEq, true_and, and_true] at hcanonical
    obtain ⟨hpayload, htype⟩ := hcanonical
    exact ⟨htype, Value.same_of_canonical_eq hexact hnExact hpayload⟩
  · intro ⟨htype, hpayload⟩
    have htext : printText m.type = printText n.type := by
      rw [printText, ← flatMap_paired, htype, flatMap_paired, printText]
    have hprint := (Value.print_eq_iff hsound hexact hnSound hnExact).mpr hpayload
    rw [toJson_eq, toJson_eq, hprint, htext]

theorem visible_toJson (hexact : m.payload.Throughout IsExact) : m.toJson.Visible := by
  have hmembers : ∀ t ∈ [printMember "payload" m.payload.print,
      printMember "type" (printText m.type)], t.Visible := by
    simp [Value.visible_printMember, Value.visible_print hexact, visible_printText]
  rw [toJson_eq, Text.visible_append, Text.visible_append]
  exact ⟨⟨by decide, Text.visible_join (by decide) hmembers⟩, by decide⟩

/-- A message is written in printable characters, and read back as its payload, up to the order of
members, and its type, in which halves that make a pair are put together; if it has none, the type
comes back as it was. Two messages are written alike only if they are so read back. Therefore a
document that was read, is sent, and is read again is written as it was the first time. -/
theorem toJson_faithful (m : Message) (hsound : m.payload.Throughout IsSound)
    (hexact : m.payload.Throughout IsExact) :
    m.toJson.Visible ∧
    (m.payload.depth < depthLimit → ∃ v, v.Same m.payload ∧
      CommandLine.payload m.toJson =
        .ok (.record [("payload", v), ("type", .text m.type.paired)])) ∧
    (m.type.Unsplit → m.type.paired = m.type) ∧
    (∀ n : Message, n.payload.Throughout IsSound → n.payload.Throughout IsExact →
      (m.toJson = n.toJson ↔ m.type.paired = n.type.paired ∧ m.payload.Same n.payload)) ∧
    ∀ (text : Text) (v : Value), CommandLine.payload text = .ok v → v.Throughout IsExact →
      v.depth < depthLimit → ∃ w,
        CommandLine.payload (Message.mk m.type v).toJson =
          .ok (.record [("payload", w), ("type", .text m.type.paired)]) ∧
        (Message.mk m.type w).toJson = (Message.mk m.type v).toJson := by
  refine ⟨visible_toJson hexact, ?_, Text.paired_eq_self, fun n => toJson_eq_iff hsound hexact, ?_⟩
  · intro hdepth
    exact ⟨_, (Value.same_canonical hexact).symm, payload_toJson hsound hexact hdepth⟩
  · intro text v hread hexact hdepth
    have hsound : v.Throughout IsSound := (readDocument_fits (payload_eq_ok hread)).sound
    refine ⟨_, payload_toJson (m := ⟨m.type, v⟩) hsound hexact hdepth, ?_⟩
    have hprint := ((Value.same_canonical hexact).sound_print hsound).2
    rw [toJson_eq, toJson_eq, ← hprint]

/-- Members out of order, empty values, a long number, escapes of every kind and a lone half. -/
def assorted : Message where
  type := Text.ofString "halt \t😀" ++ [.half (.last 0x7FF)]
  payload := .object [
    ("z", .array [.null, .bool true, .object [], .text "\x7f\"\\ é😀"]),
    ("a", .whole (-123456789012345678901234567890)),
    ("", .object [("b", .array []), ("a", .text [.half (.last 0x7FF), .char 'x'])])]

theorem toJson_faithful_assorted :
    assorted.payload.Throughout IsSound ∧ assorted.payload.Throughout IsExact ∧
      assorted.toJson.Visible ∧
      ∃ v, v.Same assorted.payload ∧ CommandLine.payload assorted.toJson =
        .ok (.record [("payload", v), ("type", .text assorted.type)]) := by
  have hsound : assorted.payload.Throughout IsSound := by decide +kernel
  have hexact : assorted.payload.Throughout IsExact := by decide +kernel
  obtain ⟨hvisible, hread, htype, -⟩ := toJson_faithful assorted hsound hexact
  obtain ⟨v, hsame, hv⟩ := hread (by decide)
  rw [htype (by decide)] at hv
  exact ⟨hsound, hexact, hvisible, v, hsame, hv⟩

end Message

end AgentFleet
