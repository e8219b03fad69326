import ChatRelay.Curve.Ecdsa
import ChatRelay.Curve.Schnorr
import ChatRelay.Bytes.Hex
import ChatRelay.Script

/-!
# Owner keys

The key that owns an output proves it by signing a payload: a full key by ECDSA for outputs that pay
to a key's hash, a key known by its abscissa by a Schnorr signature for Taproot outputs. A key hash
does not reveal the key, so payloads for such outputs begin with the compressed key.
-/

namespace ChatRelay

/-- The key of an output's owner, with the scheme it signs by. -/
inductive OwnerKey where
  | ecdsa (key : PublicKey)
  | schnorr (key : XOnlyKey)
  deriving DecidableEq, Repr

/-- The two ways to prove ownership. -/
inductive Scheme where
  | keyHash
  | taproot
  deriving DecidableEq, Repr

namespace OwnerKey

/-- Whether a signature over a payload is the owner's. -/
def verify (owner : OwnerKey) (payload : Bytes) (signature : FixedBytes 64) : Bool :=
  match owner with
  | .ecdsa key => Ecdsa.verify key (payloadDigest payload) signature
  | .schnorr key => Schnorr.verify key (payloadDigest payload) signature

/-- The text of an owner's key. -/
def display : OwnerKey → String
  | .ecdsa key => "ecdsa:" ++ Hex.encode key.compressed
  | .schnorr key => "schnorr:" ++ Hex.encode key.toBytes

/-- The key's compressed form has this length. -/
def compressedLength : Nat := 33

/-- The payload for an output that pays to the key's hash: the compressed key and the body. -/
def keyedPayload (key : PublicKey) (body : Bytes) : Bytes := key.compressed ++ body

/-- The compressed key that begins a payload. -/
def ofPayload? (payload : Bytes) : Option PublicKey :=
  if payload.length < compressedLength then none
  else PublicKey.ofBytes? (payload.take compressedLength)

/-- The script that pays to the hash of the key's compressed form. -/
def keyHashScript (key : PublicKey) : Bytes := ScriptKind.keyHashScript (hash160 key.compressed)

/-- The script of the Taproot output whose output key is the given one. -/
def taprootScript (key : XOnlyKey) : Bytes :=
  ScriptKind.taprootScript (FixedBytes.ofNat 32 key.point.x)

end OwnerKey

namespace SecretKey

/-- The ECDSA signature over a payload. -/
def signEcdsa (secret : SecretKey) (payload : Bytes) : FixedBytes 64 :=
  Ecdsa.sign secret (payloadDigest payload)

/-- The Schnorr signature over a payload. -/
def signSchnorr (secret : SecretKey) (payload : Bytes) : FixedBytes 64 :=
  Schnorr.sign secret (payloadDigest payload)

/-- The payload that carries `body` under a scheme, and its signature. -/
def signBody (secret : SecretKey) (scheme : Scheme) (body : Bytes) : Bytes × FixedBytes 64 :=
  match scheme with
  | .keyHash =>
    let payload := OwnerKey.keyedPayload secret.publicKey body
    (payload, secret.signEcdsa payload)
  | .taproot => (body, secret.signSchnorr body)

/-- What is said of octets that are no secret key. -/
def malformedMessage : String := "malformed or out-of-range secret key"

end SecretKey

/-- What is said of octets that are no public key. -/
def PublicKey.malformedMessage : String := "malformed public key"

end ChatRelay
