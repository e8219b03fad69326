import ChatRelay.Digest.Sha256
import ChatRelay.Digest.Ripemd160

/-!
# Derived digests

The hash that addresses commit to, the keyed hash, and the tagged hash under which chat payloads are
signed. A payload is never signed bare: the tag keeps its signatures apart from every other use of
the key.
-/

namespace ChatRelay

/-- RIPEMD-160 of SHA-256: what a pay-to-pubkey-hash output commits to. -/
def hash160 (message : Bytes) : FixedBytes 20 := ripemd160 (sha256 message).toList

/-- SHA-256 of the tag's digest twice and the message. -/
def taggedHash (tag message : Bytes) : FixedBytes 32 :=
  let prefixDigest := (sha256 tag).toList
  sha256 (prefixDigest ++ prefixDigest ++ message)

/-- HMAC with SHA-256. A key longer than a block of 64 octets is replaced by its digest. -/
def hmacSha256 (key message : Bytes) : FixedBytes 32 :=
  let key := if key.length > 64 then (sha256 key).toList else key
  let key := key ++ List.replicate (64 - key.length) 0
  let inner := sha256 (key.map (· ^^^ 0x36) ++ message)
  sha256 (key.map (· ^^^ 0x5c) ++ inner.toList)

/-- The tag of signed chat payloads. -/
def payloadTag : Bytes := Bytes.ofText "BIP0322-signed-message"

/-- The digest that the signature of a payload commits to. -/
def payloadDigest (payload : Bytes) : FixedBytes 32 := taggedHash payloadTag payload

end ChatRelay
