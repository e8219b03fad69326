import ChatRelay.Admission
import ChatRelay.Proofs.Octets

/-!
# Who owns an output

The script of an output names its owner, and the signature of a message proves that the owner sent
it. Both are described here by the octets of script and payload, without the order in which they
are looked at; what is refused is described by the first check that fails. Every output is of one
of the two descriptions, and judging tells which.
-/

namespace ChatRelay

/-! ## Scripts -/

namespace ScriptKind

theorem classify_keyHashScript (hash : FixedBytes 20) :
    classify (keyHashScript hash) = .keyHash hash := by
  simp [classify, keyHashScript, hash.length_toList]

theorem classify_taprootScript (key : FixedBytes 32) :
    classify (taprootScript key) = .taproot key := by
  simp [classify, taprootScript, key.length_toList]

theorem eq_keyHashScript_of_classify {script : Bytes} {hash : FixedBytes 20}
    (h : classify script = .keyHash hash) : script = keyHashScript hash := by
  unfold classify at h
  split at h
  next hform =>
    obtain ⟨-, hhead, htail⟩ := hform
    split at h
    next hash' hhash =>
      obtain rfl := ScriptKind.keyHash.inj h
      have hdrop : (script.drop 3).drop 20 = [0x88, 0xac] := by rw [List.drop_drop, htail]
      rw [keyHashScript, ← FixedBytes.ofList?_eq_some.mp hhash, ← hhead, ← hdrop,
        List.append_assoc, List.take_append_drop, List.take_append_drop]
    next => cases h
  next =>
    split at h
    · split at h <;> cases h
    · cases h

theorem eq_taprootScript_of_classify {script : Bytes} {key : FixedBytes 32}
    (h : classify script = .taproot key) : script = taprootScript key := by
  unfold classify at h
  split at h
  next => split at h <;> cases h
  next =>
    split at h
    next hform =>
      split at h
      next key' hkey =>
        obtain rfl := ScriptKind.taproot.inj h
        rw [taprootScript, ← FixedBytes.ofList?_eq_some.mp hkey, ← hform.2,
          List.take_append_drop]
      next => cases h
    next => cases h

end ScriptKind

/-! ## Keys -/

namespace Curve.Point

theorem x_of_ofCoordinates? {x y : Nat} {point : Point} (h : ofCoordinates? x y = some point) :
    point.x = x := by
  unfold ofCoordinates? at h
  split at h
  · rw [← Option.some.inj h]
  · cases h

theorem x_of_lift? {x : Nat} {odd : Bool} {point : Point} (h : lift? x odd = some point) :
    point.x = x :=
  x_of_ofCoordinates? h

end Curve.Point

theorem XOnlyKey.toBytes_of_ofBytes? {bytes : Bytes} {key : XOnlyKey}
    (h : XOnlyKey.ofBytes? bytes = some key) : key.toBytes = bytes := by
  unfold ofBytes? ofNat? at h
  split at h
  next hlength =>
    split at h
    next => cases h
    next point hpoint =>
      split at h
      next heven =>
        rw [← Option.some.inj h, toBytes, Curve.Point.x_of_lift? hpoint, ← hlength,
          Bytes.ofNat_toNat]
      next => cases h
  next => cases h

/-- Fewer octets than a compressed key has are no key. -/
theorem OwnerKey.ofPayload?_eq (payload : Bytes) :
    ofPayload? payload = PublicKey.ofBytes? (payload.take 33) := by
  unfold ofPayload? compressedLength
  split
  next hshort =>
    cases payload with
    | nil => rfl
    | cons form coordinates =>
        rw [List.length_cons] at hshort
        rw [List.take_of_length_le (by simp; omega)]
        simp only [PublicKey.ofBytes?]
        rw [if_neg (by omega), if_neg (by omega)]
  next => rfl

/-! ## Judging -/

/-- The owner that a script names, of a form that binds it to one key, signed the message. -/
inductive OwnerSigned (message : Message) : Bytes → ScriptKind → OwnerKey → Prop
  | keyHash {hash : FixedBytes 20} {key : PublicKey}
      (hkey : PublicKey.ofBytes? (message.payload.take 33) = some key)
      (howner : hash160 key.compressed = hash ∨ hash160 key.uncompressed = hash)
      (hsigned : Ecdsa.verify key (payloadDigest message.payload) message.signature) :
      OwnerSigned message ([0x76, 0xa9, 0x14] ++ hash.toList ++ [0x88, 0xac]) (.keyHash hash)
        (.ecdsa key)
  | taproot {x : FixedBytes 32} {key : XOnlyKey} (hkey : XOnlyKey.ofBytes? x.toList = some key)
      (hsigned : Schnorr.verify key (payloadDigest message.payload) message.signature) :
      OwnerSigned message ([0x51, 0x20] ++ x.toList) (.taproot x) (.schnorr key)

/-- The first check that fails for an output, with the rejection it gives. -/
inductive Refuses (message : Message) : Option LedgerOutput → Rejection → Prop
  | absent : Refuses message none .outputNotFound
  | spent {script : Bytes} : Refuses message (some ⟨script, true⟩) .outputNotFound
  | unsupported {script : Bytes}
      (hkeyHash : ∀ hash : FixedBytes 20,
        script ≠ [0x76, 0xa9, 0x14] ++ hash.toList ++ [0x88, 0xac])
      (htaproot : ∀ x : FixedBytes 32, script ≠ [0x51, 0x20] ++ x.toList) :
      Refuses message (some ⟨script, false⟩) .scriptUnsupported
  | keyless {hash : FixedBytes 20}
      (hkey : PublicKey.ofBytes? (message.payload.take 33) = none) :
      Refuses message (some ⟨[0x76, 0xa9, 0x14] ++ hash.toList ++ [0x88, 0xac], false⟩)
        .missingOwnerKey
  | noPoint {x : FixedBytes 32} (hkey : XOnlyKey.ofBytes? x.toList = none) :
      Refuses message (some ⟨[0x51, 0x20] ++ x.toList, false⟩) .scriptUnsupported
  | mismatch {hash : FixedBytes 20} {key : PublicKey}
      (hkey : PublicKey.ofBytes? (message.payload.take 33) = some key)
      (hcompressed : hash160 key.compressed ≠ hash)
      (huncompressed : hash160 key.uncompressed ≠ hash) :
      Refuses message (some ⟨[0x76, 0xa9, 0x14] ++ hash.toList ++ [0x88, 0xac], false⟩)
        .ownerMismatch
  | unsignedKeyHash {hash : FixedBytes 20} {key : PublicKey}
      (hkey : PublicKey.ofBytes? (message.payload.take 33) = some key)
      (howner : hash160 key.compressed = hash ∨ hash160 key.uncompressed = hash)
      (hsigned : ¬ Ecdsa.verify key (payloadDigest message.payload) message.signature) :
      Refuses message (some ⟨[0x76, 0xa9, 0x14] ++ hash.toList ++ [0x88, 0xac], false⟩)
        .badSignature
  | unsignedTaproot {x : FixedBytes 32} {key : XOnlyKey}
      (hkey : XOnlyKey.ofBytes? x.toList = some key)
      (hsigned : ¬ Schnorr.verify key (payloadDigest message.payload) message.signature) :
      Refuses message (some ⟨[0x51, 0x20] ++ x.toList, false⟩) .badSignature

namespace Admission

variable {message : Message} {output : Option LedgerOutput}

@[simp] theorem judge_none : judge message none none = .error .outputNotFound := rfl

@[simp] theorem judge_spent (script : Bytes) :
    judge message none (some ⟨script, true⟩) = .error .outputNotFound := rfl

/-- The checks on an unspent output, one after the other. -/
theorem judge_unspent (script : Bytes) :
    judge message none (some ⟨script, false⟩) =
      if ScriptKind.classify script = .unsupported then .error .scriptUnsupported
      else
        match resolveOwner (ScriptKind.classify script) message.payload with
        | .error rejection => .error rejection
        | .ok owner =>
          if owns (ScriptKind.classify script) owner then
            if owner.verify message.payload message.signature then
              .ok ⟨message.outpoint, ScriptKind.classify script, owner⟩
            else .error .badSignature
          else .error .ownerMismatch := by
  simp only [judge, bind, Except.bind, throw, throwThe, MonadExceptOf.throw, pure, Except.pure]
  by_cases hkind : ScriptKind.classify script = .unsupported
  · simp [hkind]
  · simp only [hkind, if_false, Bool.false_eq_true]
    cases resolveOwner (ScriptKind.classify script) message.payload with
    | error rejection => rfl
    | ok owner =>
        cases howns : owns (ScriptKind.classify script) owner <;>
          cases hsigned : owner.verify message.payload message.signature <;> simp [howns, hsigned]

theorem judge_keyHash (hash : FixedBytes 20) :
    judge message none (some ⟨ScriptKind.keyHashScript hash, false⟩) =
      match PublicKey.ofBytes? (message.payload.take 33) with
      | none => .error .missingOwnerKey
      | some key =>
        if hash160 key.compressed = hash ∨ hash160 key.uncompressed = hash then
          if Ecdsa.verify key (payloadDigest message.payload) message.signature then
            .ok ⟨message.outpoint, .keyHash hash, .ecdsa key⟩
          else .error .badSignature
        else .error .ownerMismatch := by
  rw [judge_unspent, ScriptKind.classify_keyHashScript, if_neg (by simp), resolveOwner,
    OwnerKey.ofPayload?_eq]
  cases PublicKey.ofBytes? (message.payload.take 33) with
  | none => rfl
  | some key =>
      simp only [owns, OwnerKey.verify, Bool.or_eq_true, beq_iff_eq]
      rfl

theorem judge_taproot (x : FixedBytes 32) :
    judge message none (some ⟨ScriptKind.taprootScript x, false⟩) =
      match XOnlyKey.ofBytes? x.toList with
      | none => .error .scriptUnsupported
      | some key =>
        if Schnorr.verify key (payloadDigest message.payload) message.signature then
          .ok ⟨message.outpoint, .taproot x, .schnorr key⟩
        else .error .badSignature := by
  rw [judge_unspent, ScriptKind.classify_taprootScript, if_neg (by simp), resolveOwner]
  cases hkey : XOnlyKey.ofBytes? x.toList with
  | none => rfl
  | some key =>
      simp only [owns, OwnerKey.verify, XOnlyKey.toBytes_of_ofBytes? hkey, beq_self_eq_true,
        if_true]
      rfl

theorem judge_unsupported {script : Bytes}
    (hkeyHash : ∀ hash, script ≠ ScriptKind.keyHashScript hash)
    (htaproot : ∀ x, script ≠ ScriptKind.taprootScript x) :
    judge message none (some ⟨script, false⟩) = .error .scriptUnsupported := by
  rw [judge_unspent, if_pos]
  cases hkind : ScriptKind.classify script with
  | keyHash hash => exact absurd (ScriptKind.eq_keyHashScript_of_classify hkind) (hkeyHash hash)
  | taproot x => exact absurd (ScriptKind.eq_taprootScript_of_classify hkind) (htaproot x)
  | unsupported => rfl

/-- An output is approved for the message or refused. -/
theorem judge_eq_ok_or_error (message : Message) (output : Option LedgerOutput) :
    (∃ script kind owner, output = some ⟨script, false⟩ ∧ OwnerSigned message script kind owner ∧
        judge message none output = .ok ⟨message.outpoint, kind, owner⟩) ∨
      ∃ rejection, Refuses message output rejection ∧
        judge message none output = .error rejection := by
  match output with
  | none => exact .inr ⟨_, .absent, rfl⟩
  | some ⟨script, true⟩ => exact .inr ⟨_, .spent, rfl⟩
  | some ⟨script, false⟩ =>
    by_cases hkeyHash : ∃ hash, script = ScriptKind.keyHashScript hash
    · obtain ⟨hash, rfl⟩ := hkeyHash
      rw [judge_keyHash]
      cases hkey : PublicKey.ofBytes? (message.payload.take 33) with
      | none => exact .inr ⟨_, .keyless hkey, rfl⟩
      | some key =>
          dsimp only
          split
          next howner =>
            split
            next hsigned => exact .inl ⟨_, _, _, rfl, .keyHash hkey howner hsigned, rfl⟩
            next hsigned => exact .inr ⟨_, .unsignedKeyHash hkey howner hsigned, rfl⟩
          next howner =>
            obtain ⟨hcompressed, huncompressed⟩ := not_or.mp howner
            exact .inr ⟨_, .mismatch hkey hcompressed huncompressed, rfl⟩
    · by_cases htaproot : ∃ x, script = ScriptKind.taprootScript x
      · obtain ⟨x, rfl⟩ := htaproot
        rw [judge_taproot]
        cases hkey : XOnlyKey.ofBytes? x.toList with
        | none => exact .inr ⟨_, .noPoint hkey, rfl⟩
        | some key =>
            dsimp only
            split
            next hsigned => exact .inl ⟨_, _, _, rfl, .taproot hkey hsigned, rfl⟩
            next hsigned => exact .inr ⟨_, .unsignedTaproot hkey hsigned, rfl⟩
      · rw [not_exists] at hkeyHash htaproot
        exact .inr ⟨_, .unsupported hkeyHash htaproot, judge_unsupported hkeyHash htaproot⟩

theorem judge_of_ownerSigned {script : Bytes} {kind : ScriptKind} {owner : OwnerKey}
    (h : OwnerSigned message script kind owner) :
    judge message none (some ⟨script, false⟩) = .ok ⟨message.outpoint, kind, owner⟩ := by
  cases h with
  | keyHash hkey howner hsigned =>
      refine (judge_keyHash _).trans ?_
      simp only [hkey, howner, hsigned, if_true]
  | taproot hkey hsigned =>
      refine (judge_taproot _).trans ?_
      simp only [hkey, hsigned, if_true]

theorem judge_of_refuses {rejection : Rejection} (h : Refuses message output rejection) :
    judge message none output = .error rejection := by
  cases h with
  | absent => rfl
  | spent => rfl
  | unsupported hkeyHash htaproot => exact judge_unsupported hkeyHash htaproot
  | keyless hkey =>
      refine (judge_keyHash _).trans ?_
      simp only [hkey]
  | noPoint hkey =>
      refine (judge_taproot _).trans ?_
      simp only [hkey]
  | mismatch hkey hcompressed huncompressed =>
      refine (judge_keyHash _).trans ?_
      simp only [hkey, hcompressed, huncompressed, or_self, if_false]
  | unsignedKeyHash hkey howner hsigned =>
      refine (judge_keyHash _).trans ?_
      simp only [hkey, howner, if_true, if_neg hsigned]
  | unsignedTaproot hkey hsigned =>
      refine (judge_taproot _).trans ?_
      simp only [hkey, if_neg hsigned]

/-- A message is approved exactly for an unspent output whose owner signed it. -/
theorem judge_eq_ok_iff {admission : Admission} :
    judge message none output = .ok admission ↔
      admission.outpoint = message.outpoint ∧ ∃ script, output = some ⟨script, false⟩ ∧
        OwnerSigned message script admission.script admission.owner := by
  constructor
  · intro h
    rcases judge_eq_ok_or_error message output with
      ⟨script, kind, owner, rfl, hsigned, hjudged⟩ | ⟨rejection, -, hjudged⟩
    · obtain rfl := Except.ok.inj (h.symm.trans hjudged)
      exact ⟨rfl, script, rfl, hsigned⟩
    · rw [hjudged] at h
      cases h
  · rintro ⟨houtpoint, script, rfl, hsigned⟩
    rw [judge_of_ownerSigned hsigned, ← houtpoint]

theorem judge_eq_error_iff {rejection : Rejection} :
    judge message none output = .error rejection ↔ Refuses message output rejection := by
  constructor
  · intro h
    rcases judge_eq_ok_or_error message output with
      ⟨script, kind, owner, rfl, -, hjudged⟩ | ⟨rejection', hrefuses, hjudged⟩
    · rw [hjudged] at h
      cases h
    · obtain rfl := Except.error.inj (h.symm.trans hjudged)
      exact hrefuses
  · exact judge_of_refuses

end Admission

end ChatRelay
