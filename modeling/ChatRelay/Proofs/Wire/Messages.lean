import ChatRelay.Proofs.Wire.Codec

/-!
# Which octets begin with a message

Octets begin with a message exactly if they are long enough for a header and for the payload that
the header states, and the payload is within its bound. The message is the only one with which they
begin, and what follows it is not looked at. Otherwise the failure tells which of the two lengths it
is.
-/

namespace ChatRelay.Message

variable {bytes : Bytes} {message : Message}

/-- The length that the header of an encoded message states, least significant octet first. -/
def stated (bytes : Bytes) : Nat := (bytes.getD 100 0).toNat + 256 * (bytes.getD 101 0).toNat

theorem toNatLittle_eq_stated (h : 102 ≤ bytes.length) :
    Bytes.toNatLittle ((bytes.drop 100).take 2) = stated bytes := by
  have hfield : (bytes.drop 100).take 2 = [bytes[100], bytes[101]] := by
    rw [List.drop_eq_getElem_cons (by omega), List.drop_eq_getElem_cons (by omega)]
    rfl
  have hlow : bytes[100]? = some bytes[100] := List.getElem?_eq_getElem (by omega)
  have hhigh : bytes[101]? = some bytes[101] := List.getElem?_eq_getElem (by omega)
  rw [hfield]
  simp only [stated, List.getD_eq_getElem?_getD, hlow, hhigh, Option.getD_some, Bytes.toNatLittle,
    Bytes.toNat, List.reverse_cons, List.reverse_nil, List.nil_append, List.cons_append,
    List.foldl_cons, List.foldl_nil]
  omega

/-- An encoded message states the whole length of its payload. -/
theorem stated_encode (message : Message) : stated message.encode = message.payload.length := by
  have hlength := message.length_encode
  have hencoded : message.encodedLength = 102 + message.payload.length := rfl
  have hsplit : message.encode = (message.outpoint.toBytes ++ message.signature.toList) ++
      (Bytes.ofNatLittle 2 message.payload.length ++ message.payload) := by
    simp only [encode, List.append_assoc]
  have hhead : (message.outpoint.toBytes ++ message.signature.toList).length = 100 := by
    rw [List.length_append, message.outpoint.length_toBytes, message.signature.length_toList]
    rfl
  have hlt : message.payload.length < 256 ^ 2 :=
    Nat.lt_of_le_of_lt message.length_payload_le (by decide)
  rw [← toNatLittle_eq_stated (by omega), hsplit, List.drop_left' hhead,
    List.take_left' (Bytes.length_ofNatLittle 2 _), Bytes.toNatLittle_ofNatLittle,
    Nat.mod_eq_of_lt hlt]

/-- Reading fails for want of a header, or for the length that the header states, or succeeds. -/
theorem decode_cases (bytes : Bytes) :
    bytes.length < 102 ∧ decode bytes = .error (.invalidHeader bytes.length) ∨
      102 ≤ bytes.length ∧ (65434 < stated bytes ∨ bytes.length - 102 < stated bytes) ∧
        decode bytes = .error (.tooLarge (stated bytes) (bytes.length - 102)) ∨
      102 ≤ bytes.length ∧ stated bytes ≤ 65434 ∧ stated bytes ≤ bytes.length - 102 ∧
        ∃ message, decode bytes = .ok message ∧ message.payload.length = stated bytes := by
  unfold decode headerLength maxPayloadLength
  dsimp only
  split
  next hheader => exact .inl ⟨hheader, rfl⟩
  next hheader =>
    rw [Nat.not_lt] at hheader
    rw [toNatLittle_eq_stated hheader]
    split
    next hlarge => exact .inr (.inl ⟨hheader, hlarge, rfl⟩)
    next hfits =>
      obtain ⟨hbound, havailable⟩ := not_or.mp hfits
      obtain ⟨outpoint, houtpoint⟩ : ∃ outpoint, Outpoint.ofBytes? (bytes.take 36) = some outpoint :=
        Outpoint.exists_ofBytes? (by rw [List.length_take, Outpoint.serializedLength]; omega)
      obtain ⟨signature, hsignature⟩ :
          ∃ signature, FixedBytes.ofList? 64 ((bytes.drop 36).take 64) = some signature :=
        FixedBytes.exists_ofList? (by rw [List.length_take, List.length_drop]; omega)
      have hpayload : ((bytes.drop 102).take (stated bytes)).length = stated bytes := by
        rw [List.length_take, List.length_drop]
        omega
      rw [houtpoint, hsignature]
      refine .inr (.inr ⟨hheader, Nat.not_lt.mp hbound, Nat.not_lt.mp havailable,
        ⟨outpoint, signature, _, ?_⟩, dif_pos _, hpayload⟩)
      rw [hpayload]
      exact Nat.not_lt.mp hbound

/-- The message with which octets begin is the one that is read. -/
theorem decode_eq_ok_iff : decode bytes = .ok message ↔ message.encode <+: bytes := by
  constructor
  · intro h
    rw [encode_of_decode h]
    exact List.take_prefix _ _
  · rintro ⟨rest, rfl⟩
    exact decode_encode_append message rest

theorem ofParts_eq_ok_iff {outpoint : Outpoint} {signature : FixedBytes 64} {payload : Bytes} :
    ofParts outpoint signature payload = .ok message ↔
      message.outpoint = outpoint ∧ message.signature = signature ∧ message.payload = payload := by
  unfold ofParts
  constructor
  · intro h
    split at h
    · obtain rfl := Except.ok.inj h
      exact ⟨rfl, rfl, rfl⟩
    · cases h
  · rintro ⟨rfl, rfl, rfl⟩
    exact dif_pos message.length_payload_le

/-- Encoding and reading are inverse between the messages that can be made and the octets that begin
with one: whatever follows an encoded message it is read back, and what is read is what the octets
begin with. Reading fails exactly for want of a header, or of the payload that the header states, or
if that is over the bound. -/
theorem decode_encode_inverse :
    (∀ outpoint signature payload message, ofParts outpoint signature payload = .ok message →
      stated message.encode = payload.length ∧
      ∀ rest, decode (message.encode ++ rest) = .ok message) ∧
    ∀ bytes,
      (∀ length, decode bytes = .error (.invalidHeader length) ↔
        bytes.length < 102 ∧ length = bytes.length) ∧
      (∀ declared available, decode bytes = .error (.tooLarge declared available) ↔
        102 ≤ bytes.length ∧ (65434 < stated bytes ∨ bytes.length - 102 < stated bytes) ∧
          declared = stated bytes ∧ available = bytes.length - 102) ∧
      (102 ≤ bytes.length → stated bytes ≤ 65434 → stated bytes ≤ bytes.length - 102 →
        ∃ message, decode bytes = .ok message ∧
          ofParts message.outpoint message.signature message.payload = .ok message ∧
          message.encodedLength = 102 + stated bytes ∧
          message.encode = bytes.take message.encodedLength) ∧
      ∀ message, decode bytes = .ok message ↔ message.encode <+: bytes := by
  refine ⟨fun outpoint signature payload message h => ?_, fun bytes => ⟨fun length => ?_,
    fun declared available => ?_, fun hheader hbound havailable => ?_, fun message => decode_eq_ok_iff⟩⟩
  · obtain ⟨-, -, rfl⟩ := ofParts_eq_ok_iff.mp h
    exact ⟨stated_encode message, decode_encode_append message⟩
  · rcases decode_cases bytes with
      ⟨hheader, h⟩ | ⟨hheader, -, h⟩ | ⟨hheader, -, -, message, h, -⟩ <;>
      simp [h, hheader, eq_comm, Nat.not_lt.mpr]
  · rcases decode_cases bytes with
      ⟨hheader, h⟩ | ⟨hheader, hlarge, h⟩ | ⟨hheader, hbound, havailable, message, h, -⟩
    · simp [h, Nat.not_le.mpr hheader]
    · simp [h, hheader, hlarge, eq_comm]
    · simp [h, Nat.not_lt.mpr hbound, Nat.not_lt.mpr havailable]
  · rcases decode_cases bytes with
      ⟨hshort, -⟩ | ⟨-, hlarge, -⟩ | ⟨-, -, -, message, h, hpayload⟩
    · omega
    · omega
    · exact ⟨message, h, ofParts_eq_ok_iff.mpr ⟨rfl, rfl, rfl⟩, congrArg (102 + ·) hpayload,
        encode_of_decode h⟩

/-- A message of two octets. -/
def remark : Message :=
  ⟨⟨FixedBytes.replicate 32 7, 1⟩, FixedBytes.replicate 64 9, [104, 105], by decide⟩

theorem decode_encode_inverse_remark :
    ofParts remark.outpoint remark.signature [104, 105] = .ok remark ∧
      decode (remark.encode ++ [1]) = .ok remark ∧
      stated (remark.encode ++ [1]) ≤ (remark.encode ++ [1]).length - 102 ∧
      ∃ message, decode (remark.encode ++ [1]) = .ok message ∧
        message.encode = (remark.encode ++ [1]).take message.encodedLength := by
  have hmade : ofParts remark.outpoint remark.signature [104, 105] = .ok remark := rfl
  have havailable : stated (remark.encode ++ [1]) ≤ (remark.encode ++ [1]).length - 102 := by decide
  obtain ⟨message, hread, -, -, hencode⟩ :=
    (decode_encode_inverse.2 (remark.encode ++ [1])).2.2.1 (by decide) (by decide) havailable
  exact ⟨hmade, (decode_encode_inverse.1 _ _ _ _ hmade).2 [1], havailable, message, hread, hencode⟩

end ChatRelay.Message
