import ChatRelay.Message
import ChatRelay.Proofs.Octets
import ChatRelay.Wire.Frame

/-!
# Reading back messages and frames

A message is read from its encoded form whatever follows it, and what is read is what the octets
begin with. A frame that is written is read back with what follows it left over.
-/

namespace ChatRelay

/-! ## Messages -/

namespace Message

variable {message : Message} {bytes : Bytes}

@[simp] theorem length_encode (message : Message) :
    message.encode.length = message.encodedLength := by
  simp [encode, encodedLength, headerLength, Outpoint.serializedLength,
    message.signature.length_toList]
  omega

theorem decode_encode_append (message : Message) (rest : Bytes) :
    decode (message.encode ++ rest) = .ok message := by
  have hlt : message.payload.length < 256 ^ 2 :=
    Nat.lt_of_le_of_lt message.length_payload_le (by decide)
  have hsignature := message.signature.length_toList
  have houtpoint : message.outpoint.toBytes.length = 36 := message.outpoint.length_toBytes
  have hfield : (Bytes.ofNatLittle 2 message.payload.length).length = 2 :=
    Bytes.length_ofNatLittle 2 _
  generalize hbytes : message.encode ++ rest = bytes
  have hsplit : bytes = message.outpoint.toBytes ++ (message.signature.toList ++
      (Bytes.ofNatLittle 2 message.payload.length ++ (message.payload ++ rest))) := by
    rw [← hbytes, encode]
    simp only [List.append_assoc]
  have hlength : bytes.length = 102 + message.payload.length + rest.length := by
    simp only [hsplit, List.length_append, houtpoint, hsignature, hfield]
    omega
  have htake : bytes.take 36 = message.outpoint.toBytes := by
    rw [hsplit, List.take_left' houtpoint]
  have hdrop : bytes.drop 36 = message.signature.toList ++
      (Bytes.ofNatLittle 2 message.payload.length ++ (message.payload ++ rest)) := by
    rw [hsplit, List.drop_left' houtpoint]
  have hdrop' : bytes.drop 100 =
      Bytes.ofNatLittle 2 message.payload.length ++ (message.payload ++ rest) := by
    rw [show 100 = 36 + 64 from rfl, ← List.drop_drop, hdrop, List.drop_left' hsignature]
  have hpayload : bytes.drop 102 = message.payload ++ rest := by
    rw [show 102 = 100 + 2 from rfl, ← List.drop_drop, hdrop', List.drop_left' hfield]
  have hdeclared : Bytes.toNatLittle ((bytes.drop 100).take 2) = message.payload.length := by
    rw [hdrop', List.take_left' hfield, Bytes.toNatLittle_ofNatLittle, Nat.mod_eq_of_lt hlt]
  unfold decode
  rw [if_neg (by rw [hlength, headerLength]; omega), hdeclared]
  dsimp only
  rw [if_neg (by
    rw [hlength, headerLength, maxPayloadLength]
    have := message.length_payload_le
    omega)]
  rw [htake, Outpoint.ofBytes?_toBytes, hdrop, List.take_left' hsignature,
    FixedBytes.ofList?_toList, headerLength, hpayload, List.take_left' rfl]
  exact dif_pos message.length_payload_le

theorem decode_encode (message : Message) : decode message.encode = .ok message := by
  have h := decode_encode_append message []
  rwa [List.append_nil] at h

/-- The octets that a message is read from begin with its encoded form. -/
theorem encode_of_decode (h : decode bytes = .ok message) :
    message.encode = bytes.take message.encodedLength := by
  unfold decode at h
  dsimp only at h
  split at h
  next => cases h
  next hheader =>
    split at h
    next => cases h
    next hdeclared =>
      split at h
      next outpoint signature houtpoint hsignature =>
        unfold ofParts at h
        split at h
        next hpayload =>
          obtain rfl := Except.ok.inj h
          have hlength : ((bytes.drop headerLength).take
              (Bytes.toNatLittle ((bytes.drop 100).take 2))).length =
              Bytes.toNatLittle ((bytes.drop 100).take 2) := by
            rw [List.length_take, List.length_drop]
            omega
          have hfield : ((bytes.drop 100).take 2).length = 2 := by
            rw [List.length_take, List.length_drop]
            rw [headerLength] at hheader
            omega
          have hwritten := Bytes.ofNatLittle_toNatLittle ((bytes.drop 100).take 2)
          rw [hfield] at hwritten
          rw [encode, encodedLength, hlength, hwritten, ← Outpoint.ofBytes?_eq_some.mp houtpoint,
            ← FixedBytes.ofList?_eq_some.mp hsignature,
            show ∀ n, headerLength + n = 36 + 64 + 2 + n from fun _ => rfl, List.take_add,
            List.take_add, List.take_add]
          rfl
        next => cases h
      next => cases h

end Message

/-! ## Frames -/

namespace Frame

variable {bound : Nat} {frame : Frame} {bytes : Bytes}

theorem readOutpoints_flatMap (outpoints read : List Outpoint) (rest : Bytes) :
    readOutpoints outpoints.length read (outpoints.flatMap Outpoint.toBytes ++ rest) =
      .complete (.inv (read.reverse ++ outpoints)) rest := by
  induction outpoints generalizing read with
  | nil => simp [readOutpoints]
  | cons outpoint outpoints ih =>
      have hlength : outpoint.toBytes.length = 36 := outpoint.length_toBytes
      rw [List.flatMap_cons, List.append_assoc, List.length_cons, readOutpoints,
        List.take_left' hlength, Outpoint.ofBytes?_toBytes, List.drop_left' hlength]
      dsimp only
      rw [ih, List.reverse_cons, List.append_assoc, List.singleton_append]

theorem readBody_append (body rest : Bytes) :
    readBody body.length (body ++ rest) = .complete (.data body) rest := by
  simp [readBody]

/-- A written frame is read back, unless it is a delivery over the bound or of nothing. -/
theorem read_serialize (h : frame.serialize = .ok bytes) (rest : Bytes)
    (hbody : ∀ body, frame = .data body → body ≠ [] ∧ body.length ≤ bound) :
    read bound (bytes ++ rest) = .complete frame rest := by
  cases frame with
  | inv outpoints =>
      simp only [serialize] at h
      split at h
      next hcount =>
        obtain rfl := Except.ok.inj h
        have hlt : outpoints.length < 256 ^ 2 := hcount
        obtain ⟨a, b, hfield⟩ : ∃ a b, Bytes.ofNatLittle 2 outpoints.length = [a, b] := by
          match Bytes.ofNatLittle 2 outpoints.length,
            Bytes.length_ofNatLittle 2 outpoints.length with
          | [a, b], _ => exact ⟨a, b, rfl⟩
        have hread : Bytes.toNatLittle [a, b] = outpoints.length := by
          rw [← hfield, Bytes.toNatLittle_ofNatLittle, Nat.mod_eq_of_lt hlt]
        simp only [hfield, List.cons_append, List.nil_append, read, kind, if_true, hread]
        exact readOutpoints_flatMap outpoints [] rest
      next => cases h
  | getData outpoint =>
      obtain rfl := Except.ok.inj h
      have hlength : outpoint.toBytes.length = 36 := outpoint.length_toBytes
      have hother : Kind.getData.tag ≠ Kind.inv.tag := by decide
      simp only [List.cons_append, read, kind, if_neg hother, if_true, List.take_left' hlength,
        Outpoint.ofBytes?_toBytes, List.drop_left' hlength]
  | data body =>
      simp only [serialize] at h
      split at h
      next hcount =>
        obtain rfl := Except.ok.inj h
        obtain ⟨hne, hbound⟩ := hbody body rfl
        have hlt : body.length < 256 ^ 4 := hcount
        obtain ⟨a, b, c, d, hfield⟩ :
            ∃ a b c d, Bytes.ofNatLittle 4 body.length = [a, b, c, d] := by
          match Bytes.ofNatLittle 4 body.length, Bytes.length_ofNatLittle 4 body.length with
          | [a, b, c, d], _ => exact ⟨a, b, c, d, rfl⟩
        have hread : Bytes.toNatLittle [a, b, c, d] = body.length := by
          rw [← hfield, Bytes.toNatLittle_ofNatLittle, Nat.mod_eq_of_lt hlt]
        have hfits : ¬ (body.length = 0 ∨ bound < body.length) := by
          rw [List.length_eq_zero_iff]
          exact not_or.mpr ⟨hne, Nat.not_lt.mpr hbound⟩
        have hinv : Kind.data.tag ≠ Kind.inv.tag := by decide
        have hgetData : Kind.data.tag ≠ Kind.getData.tag := by decide
        simp only [hfield, List.cons_append, List.nil_append, read, kind, if_neg hinv,
          if_neg hgetData, if_true, hread, if_neg hfits]
        exact readBody_append body rest
      next => cases h

/-- An outpoint that is there stays there when more arrives. -/
theorem ofBytes?_append {outpoint : Outpoint}
    (h : Outpoint.ofBytes? (bytes.take 36) = some outpoint) (more : Bytes) :
    Outpoint.ofBytes? ((bytes ++ more).take 36) = some outpoint ∧
      (bytes ++ more).drop 36 = bytes.drop 36 ++ more := by
  have hlength : (bytes.take 36).length = 36 := by
    rw [Outpoint.ofBytes?_eq_some.mp h]
    exact outpoint.length_toBytes
  rw [List.length_take] at hlength
  rw [List.take_append_of_le_length (by omega), List.drop_append_of_le_length (by omega)]
  exact ⟨h, rfl⟩

theorem readOutpoints_append {count : Nat} {read : List Outpoint} {rest : Bytes}
    (h : readOutpoints count read bytes = .complete frame rest) (more : Bytes) :
    readOutpoints count read (bytes ++ more) = .complete frame (rest ++ more) := by
  induction count generalizing read bytes with
  | zero =>
      obtain ⟨rfl, rfl⟩ := Progress.complete.inj h
      rfl
  | succ count ih =>
      unfold readOutpoints at h ⊢
      split at h
      next => cases h
      next outpoint houtpoint =>
        obtain ⟨hsame, hrest⟩ := ofBytes?_append houtpoint more
        rw [hsame, hrest]
        exact ih h

theorem readBody_mono {length : Nat} {rest : Bytes}
    (h : readBody length bytes = .complete frame rest) (more : Bytes) :
    readBody length (bytes ++ more) = .complete frame (rest ++ more) := by
  simp only [readBody, List.length_take] at h ⊢
  split at h
  next => cases h
  next hlength =>
    have hle : length ≤ bytes.length := by omega
    obtain ⟨rfl, rfl⟩ := Progress.complete.inj h
    rw [List.take_append_of_le_length hle, List.drop_append_of_le_length hle, if_neg]
    rw [List.length_append]
    omega

/-- A frame that is there stays there when more arrives. -/
theorem read_append {rest : Bytes} (h : read bound bytes = .complete frame rest) (more : Bytes) :
    read bound (bytes ++ more) = .complete frame (rest ++ more) := by
  cases bytes with
  | nil => cases h
  | cons tag bytes =>
      simp only [List.cons_append, read] at h ⊢
      split
      next htag =>
        rw [if_pos htag] at h
        match bytes, h with
        | _ :: _ :: _, h => exact readOutpoints_append h more
      next htag =>
        rw [if_neg htag] at h
        split
        next htag' =>
          rw [if_pos htag'] at h
          split at h
          next => cases h
          next outpoint houtpoint =>
            obtain ⟨hsame, hrest⟩ := ofBytes?_append houtpoint more
            obtain ⟨rfl, rfl⟩ := Progress.complete.inj h
            rw [hsame, hrest]
        next htag' =>
          rw [if_neg htag'] at h
          split
          next htag'' =>
            rw [if_pos htag''] at h
            match bytes, h with
            | _ :: _ :: _ :: _ :: _, h =>
                dsimp only [List.cons_append] at h ⊢
                split at h
                next => cases h
                next hfits =>
                  rw [if_neg hfits]
                  exact readBody_mono h more
          next htag'' =>
            rw [if_neg htag''] at h
            cases h

/-- The octets of a frame that can be written. -/
def octets (frame : Frame) : Bytes := frame.serialize.toOption.getD []

theorem octets_eq (h : frame.serialize = .ok bytes) : frame.octets = bytes := by
  rw [octets, h]
  rfl

/-- A frame takes up at least its tag. -/
theorem ne_nil_of_serialize (h : frame.serialize = .ok bytes) : bytes ≠ [] := by
  cases frame with
  | getData outpoint =>
      obtain rfl := Except.ok.inj h
      exact List.cons_ne_nil _ _
  | _ =>
      simp only [serialize] at h
      split at h
      · obtain rfl := Except.ok.inj h
        exact List.cons_ne_nil _ _
      · cases h

/-- Frames that are written one after the other are read back, if they can be written and none is a
delivery over the bound or of nothing. -/
theorem readAll_flatMap {frames : List Frame} (hframes : ∀ frame ∈ frames,
      (∃ bytes, frame.serialize = .ok bytes) ∧
        ∀ body, frame = .data body → body ≠ [] ∧ body.length ≤ bound) :
    readAll bound (frames.flatMap octets) = (frames, none) := by
  suffices hmany : ∀ fuel, (frames.flatMap octets).length < fuel →
      readMany bound fuel (frames.flatMap octets) = (frames, none) from hmany _ (Nat.lt_succ_self _)
  induction frames with
  | nil =>
      intro fuel hfuel
      obtain ⟨fuel, rfl⟩ := Nat.exists_eq_succ_of_ne_zero (Nat.ne_of_gt hfuel)
      rfl
  | cons frame frames ih =>
      intro fuel hfuel
      obtain ⟨⟨bytes, hbytes⟩, hbody⟩ := hframes frame List.mem_cons_self
      rw [List.flatMap_cons, octets_eq hbytes, List.length_append] at hfuel
      have hpos := List.length_pos_iff.mpr (ne_nil_of_serialize hbytes)
      obtain ⟨fuel, rfl⟩ := Nat.exists_eq_succ_of_ne_zero (Nat.ne_of_gt (by omega : 0 < fuel))
      rw [List.flatMap_cons, octets_eq hbytes, readMany, read_serialize hbytes _ hbody]
      dsimp only
      rw [ih (fun other hother => hframes other (List.mem_cons_of_mem _ hother)) fuel (by omega)]

end Frame

end ChatRelay
