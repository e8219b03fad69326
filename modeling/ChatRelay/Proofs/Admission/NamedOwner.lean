import ChatRelay.Proofs.Admission.Verdict
import ChatRelay.Proofs.Curve.Keys

/-!
# Naming the owner

A message may be decided for a key that the caller names, or the owner's key may be found from
script and payload. The named key only takes the place of the one that would be found: in either
case it has to own the output and to have signed. So the key that is found may as well be named, and
a key that succeeds by its name is the one that would be found, unless the payload of an output that
pays to a hash does not begin with it.
-/

namespace ChatRelay

/-- A key owns the outputs with a script, which are of one of the two forms. -/
inductive OwnedBy : Bytes → ScriptKind → OwnerKey → Prop
  | keyHash {hash : FixedBytes 20} {key : PublicKey}
      (howner : hash160 key.compressed = hash ∨ hash160 key.uncompressed = hash) :
      OwnedBy ([0x76, 0xa9, 0x14] ++ hash.toList ++ [0x88, 0xac]) (.keyHash hash) (.ecdsa key)
  | taproot {x : FixedBytes 32} {key : XOnlyKey} (hkey : key.toBytes = x.toList) :
      OwnedBy ([0x51, 0x20] ++ x.toList) (.taproot x) (.schnorr key)

/-- Whether the owner of an output can be told to be this one: the script says so, or the payload
begins with the key. -/
def Identifies (payload : Bytes) : ScriptKind → OwnerKey → Prop
  | .taproot _, _ => True
  | .keyHash _, owner => (PublicKey.ofBytes? (payload.take 33)).map .ecdsa = some owner
  | .unsupported, _ => False

theorem identifies_iff {payload script : Bytes} {kind : ScriptKind} {owner : OwnerKey}
    (howned : OwnedBy script kind owner) : Identifies payload kind owner ↔
      (∃ x, kind = .taproot x) ∨ ∃ hash key, kind = .keyHash hash ∧
        PublicKey.ofBytes? (payload.take 33) = some key ∧ owner = .ecdsa key := by
  cases howned with
  | keyHash howner => simp [Identifies]
  | taproot hkey => simp [Identifies]

/-- The owner signed the message if they own the output, can be told, and have signed. -/
theorem ownerSigned_iff {message : Message} {script : Bytes} {kind : ScriptKind}
    {owner : OwnerKey} : OwnerSigned message script kind owner ↔
      OwnedBy script kind owner ∧ Identifies message.payload kind owner ∧
        owner.verify message.payload message.signature := by
  constructor
  · intro h
    cases h with
    | keyHash hkey howner hsigned =>
        exact ⟨.keyHash howner, by simp [Identifies, hkey], hsigned⟩
    | taproot hkey hsigned =>
        exact ⟨.taproot (XOnlyKey.toBytes_of_ofBytes? hkey), trivial, hsigned⟩
  · rintro ⟨howned, hidentifies, hsigned⟩
    cases howned with
    | keyHash howner =>
        exact .keyHash (by simpa [Identifies] using hidentifies) howner hsigned
    | taproot hkey => exact .taproot (hkey ▸ XOnlyKey.ofBytes?_toBytes _) hsigned

/-- Ownership as it is checked. -/
theorem ownedBy_iff {script : Bytes} {kind : ScriptKind} {owner : OwnerKey} :
    OwnedBy script kind owner ↔
      ScriptKind.classify script = kind ∧ Admission.owns kind owner := by
  constructor
  · intro h
    cases h with
    | keyHash howner =>
        exact ⟨ScriptKind.classify_keyHashScript _, by simpa [Admission.owns] using howner⟩
    | taproot hkey =>
        exact ⟨ScriptKind.classify_taprootScript _, by simpa [Admission.owns] using hkey⟩
  · rintro ⟨hkind, howns⟩
    cases kind with
    | unsupported => cases howns
    | keyHash hash =>
        obtain rfl := ScriptKind.eq_keyHashScript_of_classify hkind
        cases owner with
        | ecdsa key => exact .keyHash (by simpa [Admission.owns] using howns)
        | schnorr key => cases howns
    | taproot x =>
        obtain rfl := ScriptKind.eq_taprootScript_of_classify hkind
        cases owner with
        | ecdsa key => cases howns
        | schnorr key => exact .taproot (by simpa [Admission.owns] using howns)

namespace Admission

variable {message : Message} {claimed other : Option OwnerKey} {output : Option LedgerOutput}
  {admission : Admission} {key : OwnerKey}

/-- The checks on an unspent output for a named key, one after the other. -/
theorem judge_unspent_named (script : Bytes) (key : OwnerKey) :
    judge message (some key) (some ⟨script, false⟩) =
      if ScriptKind.classify script = .unsupported then .error .scriptUnsupported
      else if owns (ScriptKind.classify script) key then
        if key.verify message.payload message.signature then
          .ok ⟨message.outpoint, ScriptKind.classify script, key⟩
        else .error .badSignature
      else .error .ownerMismatch := by
  simp only [judge, bind, Except.bind, throw, throwThe, MonadExceptOf.throw, pure, Except.pure]
  by_cases hkind : ScriptKind.classify script = .unsupported
  · simp [hkind]
  · simp only [hkind, if_false, Bool.false_eq_true]
    cases owns (ScriptKind.classify script) key <;>
      cases key.verify message.payload message.signature <;> rfl

/-- For a named key a message is approved exactly if that key owns the unspent output and signed. -/
theorem judge_named_eq_ok_iff : judge message (some key) output = .ok admission ↔
    admission.outpoint = message.outpoint ∧ admission.owner = key ∧
      key.verify message.payload message.signature ∧
      ∃ script, output = some ⟨script, false⟩ ∧ OwnedBy script admission.script key := by
  constructor
  · intro h
    match output with
    | none => cases h
    | some ⟨script, true⟩ => cases h
    | some ⟨script, false⟩ =>
      rw [judge_unspent_named] at h
      split at h
      · cases h
      split at h
      next howns =>
        split at h
        next hsigned =>
          obtain rfl := Except.ok.inj h
          exact ⟨rfl, rfl, hsigned, script, rfl, ownedBy_iff.mpr ⟨rfl, howns⟩⟩
        next => cases h
      next => cases h
  · rintro ⟨houtpoint, rfl, hsigned, script, rfl, howned⟩
    obtain ⟨hkind, howns⟩ := ownedBy_iff.mp howned
    have hsupported : admission.script ≠ .unsupported := by
      intro h
      rw [h] at howns
      cases howns
    rw [judge_unspent_named, hkind, if_neg hsupported, if_pos howns, if_pos hsigned, ← houtpoint]

/-- Whoever is found to be the owner may be named, and a named key that is approved is found to be
the owner exactly if the owner can be told. -/
theorem judge_none_eq_ok_iff : judge message none output = .ok admission ↔
    judge message (some admission.owner) output = .ok admission ∧
      Identifies message.payload admission.script admission.owner := by
  rw [judge_eq_ok_iff, judge_named_eq_ok_iff]
  constructor
  · rintro ⟨houtpoint, script, hshown, hsigned⟩
    obtain ⟨howned, hidentifies, hverifies⟩ := ownerSigned_iff.mp hsigned
    exact ⟨⟨houtpoint, rfl, hverifies, script, hshown, howned⟩, hidentifies⟩
  · rintro ⟨⟨houtpoint, -, hverifies, script, hshown, howned⟩, hidentifies⟩
    exact ⟨houtpoint, script, hshown, ownerSigned_iff.mpr ⟨howned, hidentifies, hverifies⟩⟩

/-! ## Decisions -/

/-- What becomes of a message once it has been judged. -/
def record (message : Message) :
    Except Rejection Admission → Routine Request.Answer (Except Rejection Admission)
  | .error rejection => return .error rejection
  | .ok admission => do
    match ← askStore (.add message.outpoint) with
    | .ok () => return .ok admission
    | .error (.alreadyPresent _) => return .error .alreadySeen
    | .error cause => return .error (.storeUnavailable cause)

variable {σ : Type} {serve : (request : Request) → σ → request.Answer × σ} {world : σ}

/-- What the ledger shows a decision, which has first asked the store. -/
def shown (serve : (request : Request) → σ → request.Answer × σ) (message : Message) (world : σ) :
    LedgerCall.Answer (.output message.outpoint) :=
  (serve (.ledger (.output message.outpoint))
    (serve (.store (.has message.outpoint)) world).2).1

/-- The named key enters a decision only through the judgement. -/
theorem decide_run (serve : (request : Request) → σ → request.Answer × σ) (message : Message)
    (claimed : Option OwnerKey) (world : σ) :
    let asked := serve (.store (.has message.outpoint)) world
    let looked := serve (.ledger (.output message.outpoint)) asked.2
    (decide message claimed).run serve world =
      match asked.1 with
      | .error cause => (.error (.storeUnavailable cause), asked.2)
      | .ok true => (.error .alreadySeen, asked.2)
      | .ok false =>
        match looked.1 with
        | .error cause => (.error (.ledgerUnavailable cause), looked.2)
        | .ok output => (record message (judge message claimed output)).run serve looked.2 := by
  simp only [decide, askStore, Routine.run_seq, Routine.run_ask, Routine.run_done]
  generalize serve (.store (.has message.outpoint)) world = asked
  obtain ⟨answer, after⟩ := asked
  rcases answer with cause | known
  · rfl
  cases known with
  | true => rfl
  | false =>
      simp only [askLedger, Routine.run_seq, Routine.run_ask, Routine.run_done]
      generalize serve (.ledger (.output message.outpoint)) after = looked
      obtain ⟨answer, after⟩ := looked
      rcases answer with cause | output
      · rfl
      · dsimp only
        cases judge message claimed output <;> rfl

/-- An approved message is admitted once its outpoint has been recorded. -/
theorem record_run_ok (hadded : (serve (.store (.add message.outpoint)) world).1 = .ok ()) :
    (record message (.ok admission)).run serve world =
      (.ok admission, (serve (.store (.add message.outpoint)) world).2) := by
  rw [record, askStore, Routine.run_seq, Routine.run_ask, Routine.run_done]
  dsimp only
  rw [hadded]
  rfl

theorem judged_of_record_run {judged : Except Rejection Admission}
    (h : ((record message judged).run serve world).1 = .ok admission) : judged = .ok admission := by
  cases judged with
  | error rejection => cases h
  | ok approved =>
      rw [record, askStore, Routine.run_seq, Routine.run_ask, Routine.run_done] at h
      dsimp only at h
      split at h
      · exact h
      · cases h
      · cases h

theorem decideAlone_fst (serve : (request : Request) → σ → request.Answer × σ) (message : Message)
    (claimed : Option OwnerKey) (slots : Slots) (world : σ) :
    (decideAlone serve message claimed slots world).1 =
      ((decide message claimed).run serve world).1 := rfl

/-- A message is admitted only if what the ledger shows is approved. -/
theorem judge_of_decideAlone {slots : Slots}
    (h : (decideAlone serve message claimed slots world).1 = .ok admission) :
    ∃ output, shown serve message world = .ok output ∧
      judge message claimed output = .ok admission := by
  rw [decideAlone_fst, decide_run] at h
  split at h
  · cases h
  · cases h
  split at h
  · cases h
  next output hshown => exact ⟨output, hshown, judged_of_record_run h⟩

/-- A decision depends on the named key only as far as the judgement does. -/
theorem decide_run_congr (h : ∀ output, shown serve message world = .ok output →
      judge message claimed output = judge message other output) :
    (decide message claimed).run serve world = (decide message other).run serve world := by
  rw [decide_run, decide_run]
  cases (serve (.store (.has message.outpoint)) world).1 with
  | error cause => rfl
  | ok known =>
      cases known with
      | true => rfl
      | false =>
          dsimp only
          split
          · rfl
          next output hshown => rw [h output hshown]

theorem decideAlone_congr {slots : Slots} (h : ∀ output, shown serve message world = .ok output →
      judge message claimed output = judge message other output) :
    decideAlone serve message claimed slots world =
      decideAlone serve message other slots world := by
  rw [decideAlone, decideAlone, decide_run_congr h]

/-- Deciding a message for a key that the caller names and finding the owner's key agree. Whoever is
found to be the owner may be named, with the same result and the same left behind. Whoever succeeds
by their name owns the unspent output that the ledger shows, in one of the two forms, and signed;
and they are found as well, with the same result and the same left behind, exactly if the output is
a Taproot output or the payload begins with their key. -/
theorem decideAlone_agree (serve : (request : Request) → σ → request.Answer × σ)
    (message : Message) (slots : Slots) (world : σ) :
    let found := decideAlone serve message none slots world
    let named := fun key => decideAlone serve message (some key) slots world
    (∀ admission, found.1 = .ok admission → named admission.owner = found) ∧
      ∀ key admission, (named key).1 = .ok admission →
        admission.outpoint = message.outpoint ∧ admission.owner = key ∧
          key.verify message.payload message.signature ∧
          (∃ script, shown serve message world = .ok (some ⟨script, false⟩) ∧
            OwnedBy script admission.script key) ∧
          (found = named key ↔ (∃ x, admission.script = .taproot x) ∨
            ∃ hash owner, admission.script = .keyHash hash ∧
              PublicKey.ofBytes? (message.payload.take 33) = some owner ∧ key = .ecdsa owner) := by
  intro found named
  refine ⟨fun admission hfound => ?_, fun key admission hnamed => ?_⟩
  · obtain ⟨output, hshown, hjudged⟩ := judge_of_decideAlone hfound
    refine decideAlone_congr fun output' hshown' => ?_
    obtain rfl := Except.ok.inj (hshown.symm.trans hshown')
    rw [hjudged, (judge_none_eq_ok_iff.mp hjudged).1]
  · obtain ⟨output, hshown, hjudged⟩ := judge_of_decideAlone hnamed
    obtain ⟨houtpoint, rfl, hsigned, script, rfl, howned⟩ := judge_named_eq_ok_iff.mp hjudged
    refine ⟨houtpoint, rfl, hsigned, ⟨script, hshown, howned⟩, ?_⟩
    rw [← identifies_iff howned]
    constructor
    · intro hsame
      have hfound : found.1 = .ok admission := hsame ▸ hnamed
      obtain ⟨output, hshown', hjudged'⟩ := judge_of_decideAlone hfound
      exact (judge_none_eq_ok_iff.mp hjudged').2
    · intro hidentifies
      refine decideAlone_congr fun output hshown' => ?_
      obtain rfl := Except.ok.inj (hshown.symm.trans hshown')
      rw [hjudged, judge_none_eq_ok_iff.mpr ⟨hjudged, hidentifies⟩]

/-- The sample message may be decided for the key that is found to be its owner's. -/
theorem decideAlone_agree_sample :
    let serve := MemoryStore.backend.serve sampleChain
    let empty : MemoryStore.backend.State := ⟨MemoryStore.empty, MemoryStore.sound_empty⟩
    let found := decideAlone serve sampleMessage none .empty empty
    found.1 = .ok sampleAdmission ∧
      decideAlone serve sampleMessage (some sampleAdmission.owner) .empty empty = found ∧
      ∃ script, shown serve sampleMessage empty = .ok (some ⟨script, false⟩) ∧
        OwnedBy script sampleAdmission.script sampleAdmission.owner := by
  intro serve empty found
  have hseen : serve (.store (.has sampleMessage.outpoint)) empty = (.ok false, empty) := rfl
  have hlooked : serve (.ledger (.output sampleMessage.outpoint)) empty =
      (.ok (some ⟨sampleScript, false⟩), empty) := by
    have hanswer : sampleChain.answer (.output sampleMessage.outpoint) =
        .ok (some ⟨sampleScript, false⟩) := by decide +kernel
    exact congrArg (·, empty) hanswer
  have hfound : found.1 = .ok sampleAdmission := by
    have hrun := decide_run serve sampleMessage none empty
    rw [hseen] at hrun
    dsimp only at hrun
    rw [hlooked] at hrun
    dsimp only at hrun
    rw [judge_of_ownerSigned sampleMessage_signed, record_run_ok rfl] at hrun
    rw [decideAlone_fst, hrun]
    rfl
  obtain ⟨hnamed, hfinds⟩ := decideAlone_agree serve sampleMessage .empty empty
  have hsame := hnamed sampleAdmission hfound
  obtain ⟨-, -, -, howned, -⟩ := hfinds sampleAdmission.owner sampleAdmission (hsame ▸ hfound)
  exact ⟨hfound, hsame, howned⟩

end Admission

end ChatRelay
