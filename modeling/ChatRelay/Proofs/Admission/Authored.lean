import ChatRelay.Admission.Slots
import ChatRelay.CommandLine.Client
import ChatRelay.Proofs.Admission.Ownership
import ChatRelay.Proofs.Backends.Memory
import ChatRelay.Proofs.Curve.Signatures
import ChatRelay.Proofs.Hexadecimal
import ChatRelay.Proofs.Service
import ChatRelay.Proofs.Wire.Messages

/-!
# What an author makes is admitted

An author makes a message for an outpoint under one of two schemes, and a node reads it, finds the
owner of the output and checks the signature. The two fit together: whatever message is made is read
back from what the author is shown, and is admitted for every output that pays to the author's key.
That signatures are accepted is a matter of the curve; all that is left to chance is that signing
finds a nonce.
-/

namespace ChatRelay

open Routine (Runs)

/-! ## Authors as owners -/

namespace SecretKey

/-- The owner whose key is the secret one's under a scheme. -/
def owner (secret : SecretKey) : Scheme → OwnerKey
  | .keyHash => .ecdsa secret.publicKey
  | .taproot => .schnorr secret.xOnlyKey

/-- A script pays to the key under a scheme. Where it pays to a hash, that may be of either form of
the key. -/
inductive Paid (secret : SecretKey) : Scheme → Bytes → ScriptKind → Prop
  | compressed : Paid secret .keyHash (OwnerKey.keyHashScript secret.publicKey)
      (.keyHash (hash160 secret.publicKey.compressed))
  | uncompressed : Paid secret .keyHash
      (ScriptKind.keyHashScript (hash160 secret.publicKey.uncompressed))
      (.keyHash (hash160 secret.publicKey.uncompressed))
  | taproot : Paid secret .taproot (OwnerKey.taprootScript secret.xOnlyKey)
      (.taproot (FixedBytes.ofNat 32 secret.xOnlyKey.point.x))

/-- The signature that is made for a body under a scheme is accepted. -/
def Accepted (secret : SecretKey) (scheme : Scheme) (body : Bytes) : Prop :=
  (secret.owner scheme).verify (secret.signBody scheme body).1 (secret.signBody scheme body).2

/-- Signing a digest under a scheme finds a nonce. That is so exactly if the scheme accepts its own
signature of the digest, and it fails with negligible probability. -/
def Draws (secret : SecretKey) : Scheme → FixedBytes 32 → Prop
  | .keyHash, digest => Ecdsa.Drawn secret digest
  | .taproot, digest => Schnorr.Drawn secret digest

/-- A body's signature is accepted exactly if a nonce was found for the digest of what is signed. -/
theorem accepted_iff (secret : SecretKey) (scheme : Scheme) (body : Bytes) :
    secret.Accepted scheme body ↔
      secret.Draws scheme (payloadDigest (secret.signBody scheme body).1) := by
  cases scheme with
  | keyHash =>
      rw [Accepted, signBody, owner, OwnerKey.verify, signEcdsa, Ecdsa.verify_sign_iff, Draws]
  | taproot =>
      rw [Accepted, signBody, owner, OwnerKey.verify, signSchnorr, Schnorr.verify_sign_iff, Draws]

/-- The number of octets that a scheme puts before the body. -/
def prefixLength : Scheme → Nat
  | .keyHash => 33
  | .taproot => 0

theorem length_signBody (secret : SecretKey) (scheme : Scheme) (body : Bytes) :
    (secret.signBody scheme body).1.length = prefixLength scheme + body.length := by
  cases scheme with
  | keyHash => exact (List.length_append).trans (by rw [PublicKey.length_compressed]; rfl)
  | taproot => exact (Nat.zero_add _).symm

/-- A signed body is the owner's for every script that pays to the key. -/
theorem ownerSigned {secret : SecretKey} {scheme : Scheme} {body script : Bytes} {kind : ScriptKind}
    {message : Message} (haccepted : secret.Accepted scheme body)
    (hpaid : secret.Paid scheme script kind)
    (hpayload : message.payload = (secret.signBody scheme body).1)
    (hsignature : message.signature = (secret.signBody scheme body).2) :
    OwnerSigned message script kind (secret.owner scheme) := by
  unfold Accepted at haccepted
  rw [← hpayload, ← hsignature] at haccepted
  have hkey : scheme = .keyHash →
      PublicKey.ofBytes? (message.payload.take 33) = some secret.publicKey := by
    rintro rfl
    have htake : message.payload.take 33 = secret.publicKey.compressed := by
      rw [hpayload]
      exact List.take_left' secret.publicKey.length_compressed
    rw [htake, PublicKey.ofBytes?_compressed]
  cases hpaid with
  | compressed => exact .keyHash (hkey rfl) (.inl rfl) haccepted
  | uncompressed => exact .keyHash (hkey rfl) (.inr rfl) haccepted
  | taproot => exact .taproot secret.xOnlyKey.ofBytes?_toBytes haccepted

end SecretKey

/-! ## Making a message -/

namespace Authoring

variable {a : Authoring} {outpoint : Outpoint} {secret : SecretKey} {message : Message}

def body (a : Authoring) : Bytes := Bytes.ofText a.text

/-- With an outpoint and a secret key, only the length of the payload can stand in the way. -/
theorem compose_eq (houtpoint : Outpoint.parse a.outpoint = .ok outpoint)
    (hsecret : a.secretKey = .ok secret) :
    a.compose = (Message.ofParts outpoint (secret.signBody a.scheme a.body).2
      (secret.signBody a.scheme a.body).1).mapError .message := by
  unfold compose
  rw [houtpoint, hsecret]
  rfl

/-- A message is made of the outpoint that is named and of a body that is signed by the key that is
given. -/
theorem compose_eq_ok_iff : a.compose = .ok message ↔
    ∃ secret, Outpoint.parse a.outpoint = .ok message.outpoint ∧ a.secretKey = .ok secret ∧
      message.payload = (secret.signBody a.scheme a.body).1 ∧
      message.signature = (secret.signBody a.scheme a.body).2 := by
  constructor
  · intro h
    cases houtpoint : Outpoint.parse a.outpoint with
    | error cause =>
        rw [compose, houtpoint] at h
        cases h
    | ok outpoint =>
        cases hsecret : a.secretKey with
        | error cause =>
            rw [compose, houtpoint, hsecret] at h
            cases h
        | ok secret =>
            rw [compose_eq houtpoint hsecret] at h
            cases hparts : Message.ofParts outpoint (secret.signBody a.scheme a.body).2
                (secret.signBody a.scheme a.body).1 with
            | error cause =>
                rw [hparts] at h
                cases h
            | ok made =>
                rw [hparts] at h
                obtain rfl := Except.ok.inj h
                obtain ⟨rfl, hsignature, hpayload⟩ := Message.ofParts_eq_ok_iff.mp hparts
                exact ⟨secret, rfl, rfl, hpayload, hsignature⟩
  · rintro ⟨secret, houtpoint, hsecret, hpayload, hsignature⟩
    rw [compose_eq houtpoint hsecret, Message.ofParts_eq_ok_iff.mpr ⟨rfl, hsignature, hpayload⟩]
    rfl

/-- With an outpoint and a secret key, a message is made exactly if the payload is within its
bound. -/
theorem exists_compose_iff (houtpoint : Outpoint.parse a.outpoint = .ok outpoint)
    (hsecret : a.secretKey = .ok secret) :
    (∃ message, a.compose = .ok message) ↔
      SecretKey.prefixLength a.scheme + a.body.length ≤ 65434 := by
  rw [← secret.length_signBody]
  constructor
  · rintro ⟨message, h⟩
    obtain ⟨secret', -, hsecret', hpayload, -⟩ := compose_eq_ok_iff.mp h
    obtain rfl := Except.ok.inj (hsecret.symm.trans hsecret')
    rw [← hpayload]
    exact message.length_payload_le
  · intro hfits
    exact ⟨⟨outpoint, _, _, hfits⟩, compose_eq_ok_iff.mpr ⟨secret, houtpoint, hsecret, rfl, rfl⟩⟩

/-- The message is read back from the digits that are shown to the author. -/
theorem decode_signReport (message : Message) : ∃ digits octets,
    (CommandLine.ClientCommand.signReport message).field? "hex" = some (.string digits) ∧
      Hex.decode digits = .ok octets ∧ Message.decode octets = .ok message :=
  ⟨_, _, rfl, Hex.decode_encode _, Message.decode_encode message⟩

end Authoring

/-! ## Admitting a message -/

/-- A ledger that shows an outpoint as unspent with a script. What else it answers is left open. -/
def ShowsUnspent (o : Outpoint) (script : Bytes) : (call : LedgerCall) → call.Answer → Prop
  | .output other, answer => other = o → answer = .ok (some ⟨script, false⟩)
  | _, _ => True

/-- Requests are served by a store that never fails and by a ledger that shows an outpoint as
unspent with a script. -/
def Affirms {σ : Type} (o : Outpoint) (script : Bytes) (view : σ → Holdings)
    (serve : (request : Request) → σ → request.Answer × σ) : Prop :=
  ∀ request s, Holdings.Serves (fun _ => False) (ShowsUnspent o script) request (view s)
    (serve request s).1 (view (serve request s).2)

namespace Admission

variable {message : Message} {script : Bytes} {kind : ScriptKind} {owner : OwnerKey}

/-- A decision about a new outpoint, shown as unspent with a script whose owner signed, admits. -/
theorem runs_decide_admits (hsigned : OwnerSigned message script kind owner) {held after : Holdings}
    (hnew : ¬ held.recorded message.outpoint) {result : Except Rejection Admission}
    (hrun : Runs (Holdings.Serves (fun _ => False) (ShowsUnspent message.outpoint script))
      (decide message none) held result after) :
    result = .ok ⟨message.outpoint, kind, owner⟩ ∧ after = held.enter message.outpoint none := by
  obtain ⟨answer, middle, hserved, hknown⟩ := Routine.runs_ask_bind.mp hrun
  obtain ⟨rfl, rfl⟩ := hserved.resolve_right fun h => h.1
  rw [Bool.eq_false_iff.mpr hnew] at hknown
  obtain ⟨answer, middle, ⟨hshown, rfl⟩, hjudged⟩ := Routine.runs_ask_bind.mp hknown
  obtain rfl := hshown rfl
  simp only [judge_of_ownerSigned hsigned] at hjudged
  obtain ⟨answer, last, hserved, hadded⟩ := Routine.runs_ask_bind.mp hjudged
  have hperforms := Holdings.performs_add.mp (hserved.resolve_right fun h => h.1)
  rw [if_neg hnew] at hperforms
  obtain ⟨rfl, rfl⟩ := hperforms
  obtain ⟨rfl, rfl⟩ := Routine.runs_pure.mp hadded
  exact ⟨rfl, rfl⟩

theorem decideAlone_admits {σ : Type} {view : σ → Holdings}
    {serve : (request : Request) → σ → request.Answer × σ}
    (hserve : Affirms message.outpoint script view serve)
    (hsigned : OwnerSigned message script kind owner) {world : σ}
    (hnew : ¬ (view world).recorded message.outpoint) (slots : Slots) :
    let decided := decideAlone serve message none slots world
    decided.1 = .ok ⟨message.outpoint, kind, owner⟩ ∧
      view decided.2.2 = (view world).enter message.outpoint none := by
  apply runs_decide_admits hsigned hnew
  exact Routine.runs_run view hserve (decide message none) world

end Admission

/-- Whoever names an outpoint and gives a secret key makes a message exactly if the text and what
the scheme puts before it are within the bound on payloads. Every message that is made is read back
from the report, and if signing has found a nonce, it is admitted for every output that pays to the
key, with the key as owner, by every store that does not record the outpoint. -/
theorem Authoring.composed_admitted (a : Authoring) :
    (∀ outpoint secret, Outpoint.parse a.outpoint = .ok outpoint → a.secretKey = .ok secret →
      ((∃ message, a.compose = .ok message) ↔
        SecretKey.prefixLength a.scheme + a.body.length ≤ 65434)) ∧
    ∀ message, a.compose = .ok message → ∃ secret,
      Outpoint.parse a.outpoint = .ok message.outpoint ∧ a.secretKey = .ok secret ∧
      (∃ report digits octets,
        (CommandLine.ClientCommand.sign a).perform = .done (.ok report) ∧
        report.field? "hex" = some (.string digits) ∧ Hex.decode digits = .ok octets ∧
        Message.decode octets = .ok message) ∧
      (secret.Draws a.scheme (payloadDigest message.payload) →
        ∀ (script : Bytes) (kind : ScriptKind) (σ : Type) (view : σ → Holdings)
          (serve : (request : Request) → σ → request.Answer × σ) (slots : Slots) (world : σ),
        secret.Paid a.scheme script kind → Affirms message.outpoint script view serve →
        ¬ (view world).recorded message.outpoint →
          let decided := Admission.decideAlone serve message none slots world
          decided.1 = .ok ⟨message.outpoint, kind, secret.owner a.scheme⟩ ∧
            view decided.2.2 = (view world).enter message.outpoint none) := by
  refine ⟨fun outpoint secret houtpoint hsecret => exists_compose_iff houtpoint hsecret,
    fun message hcompose => ?_⟩
  obtain ⟨secret, houtpoint, hsecret, hpayload, hsignature⟩ := compose_eq_ok_iff.mp hcompose
  obtain ⟨digits, octets, hdigits, hoctets, hdecode⟩ := decode_signReport message
  refine ⟨secret, houtpoint, hsecret, ⟨_, digits, octets, ?_, hdigits, hoctets, hdecode⟩, ?_⟩
  · rw [CommandLine.ClientCommand.perform, hcompose]
    rfl
  · intro hdraws script kind σ view serve slots world hpaid hserve hnew
    have haccepted : secret.Accepted a.scheme a.body :=
      (secret.accepted_iff a.scheme a.body).mpr (hpayload ▸ hdraws)
    have hsigned := SecretKey.ownerSigned haccepted hpaid hpayload hsignature
    exact Admission.decideAlone_admits hserve hsigned hnew slots

/-- A greeting, signed with the least secret key. -/
def greeting (scheme : Scheme) : Authoring where
  outpoint := "0707070707070707070707070707070707070707070707070707070707070707:1"
  secret := "0000000000000000000000000000000000000000000000000000000000000001"
  scheme := scheme
  text := "gm"

def leastSecret : SecretKey := ⟨1, by decide, by decide⟩

/-- A script that pays to the least secret key. Where it pays to a hash, that is of the full
form. -/
def leastScript : Scheme → Bytes
  | .keyHash => ScriptKind.keyHashScript (hash160 leastSecret.publicKey.uncompressed)
  | .taproot => OwnerKey.taprootScript leastSecret.xOnlyKey

def leastKind : Scheme → ScriptKind
  | .keyHash => .keyHash (hash160 leastSecret.publicKey.uncompressed)
  | .taproot => .taproot (FixedBytes.ofNat 32 leastSecret.xOnlyKey.point.x)

theorem leastSecret_paid (scheme : Scheme) :
    leastSecret.Paid scheme (leastScript scheme) (leastKind scheme) := by
  cases scheme with
  | keyHash => exact .uncompressed
  | taproot => exact .taproot

/-- A ledger that shows every outpoint as unspent with the script. -/
def generousLedger (scheme : Scheme) : (call : LedgerCall) → call.Answer
  | .output _ => .ok (some ⟨leastScript scheme, false⟩)
  | .height => .error .shape
  | .blockHash _ => .error .shape
  | .block _ => .error .shape

theorem generousLedger_affirms (o : Outpoint) (scheme : Scheme) :
    Affirms o (leastScript scheme) MemoryStore.backend.holdings
      (MemoryStore.backend.serveWith (generousLedger scheme)) := by
  apply OutpointStore.serveWith_served
  intro call
  cases call with
  | output other => exact fun _ => rfl
  | _ => trivial

theorem greeting_secretKey (scheme : Scheme) : (greeting scheme).secretKey = .ok leastSecret := by
  cases scheme <;> decide +kernel

theorem greeting_draws (scheme : Scheme) : leastSecret.Draws scheme
    (payloadDigest (leastSecret.signBody scheme (greeting scheme).body).1) := by
  cases scheme with
  | keyHash =>
      change Ecdsa.Drawn _ (payloadDigest (leastSecret.publicKey.compressed ++ Bytes.ofText "gm"))
      decide +kernel
  | taproot =>
      change Schnorr.Drawn _ (payloadDigest (Bytes.ofText "gm"))
      decide +kernel

/-- Under both schemes the greeting is made and, by the empty store, admitted. -/
theorem Authoring.composed_admitted_greeting :
    let admits (scheme : Scheme) : Prop :=
      ∃ message, Outpoint.parse (greeting scheme).outpoint = .ok message.outpoint ∧
        (greeting scheme).secretKey = .ok leastSecret ∧
        (greeting scheme).compose = .ok message ∧
        leastSecret.Draws scheme (payloadDigest message.payload) ∧
        (Admission.decideAlone (MemoryStore.backend.serveWith (generousLedger scheme)) message none
            .empty ⟨MemoryStore.empty, MemoryStore.sound_empty⟩).1 =
          .ok ⟨message.outpoint, leastKind scheme, leastSecret.owner scheme⟩
    admits .keyHash ∧ admits .taproot := by
  intro admits
  have houtpoint : Outpoint.parse (greeting .keyHash).outpoint =
      .ok ⟨FixedBytes.replicate 32 7, 1⟩ := by
    decide +kernel
  have hadmits : ∀ scheme, admits scheme := by
    intro scheme
    have hfits : SecretKey.prefixLength scheme + (greeting scheme).body.length ≤ 65434 := by
      cases scheme <;> decide +kernel
    obtain ⟨hmade, hadmitted⟩ := Authoring.composed_admitted (greeting scheme)
    obtain ⟨message, hmessage⟩ :=
      (hmade _ leastSecret houtpoint (greeting_secretKey scheme)).mpr hfits
    have hdraws : leastSecret.Draws scheme (payloadDigest message.payload) := by
      obtain ⟨secret, -, hsecret, hpayload, -⟩ := compose_eq_ok_iff.mp hmessage
      obtain rfl := Except.ok.inj ((greeting_secretKey scheme).symm.trans hsecret)
      exact hpayload ▸ greeting_draws scheme
    obtain ⟨secret, hnamed, hsecret, -, hadmitted⟩ := hadmitted message hmessage
    obtain rfl := Except.ok.inj ((greeting_secretKey scheme).symm.trans hsecret)
    have hnew : ¬ (MemoryStore.backend.holdings
        ⟨MemoryStore.empty, MemoryStore.sound_empty⟩).recorded message.outpoint := nofun
    exact ⟨message, hnamed, hsecret, hmessage, hdraws,
      (hadmitted hdraws _ _ _ _ _ .empty _ (leastSecret_paid scheme)
        (generousLedger_affirms _ scheme) hnew).1⟩
  exact ⟨hadmits .keyHash, hadmits .taproot⟩

end ChatRelay
