import ChatRelay.Outpoint
import Mathlib.Algebra.Group.Nat.Even
import Mathlib.Data.List.Induction

/-!
# Reading back what is written in octets

A number written in octets is read back up to the range that they span, octets are what the
number that they write is written in, and an outpoint is read back from its serialized form, so
that different outpoints have different serialized forms.
-/

namespace ChatRelay

theorem Bytes.toNat_ofNat (n x : Nat) : (Bytes.ofNat n x).toNat = x % 256 ^ n := by
  induction n generalizing x with
  | zero => simp [Bytes.ofNat, Bytes.toNat, Nat.mod_one]
  | succ n ih =>
      have hlast : (UInt8.ofNat (x % 256)).toNat = x % 256 := by simp
      have hfold : (Bytes.ofNat (n + 1) x).toNat =
          (Bytes.ofNat n (x / 256)).toNat * 256 + (UInt8.ofNat (x % 256)).toNat := by
        simp [Bytes.ofNat, Bytes.toNat]
      rw [hfold, ih, hlast, Nat.pow_succ', Nat.mod_mul]
      omega

theorem Bytes.toNatLittle_ofNatLittle (n x : Nat) :
    (Bytes.ofNatLittle n x).toNatLittle = x % 256 ^ n := by
  simp [Bytes.ofNatLittle, Bytes.toNatLittle, Bytes.toNat_ofNat]

theorem Bytes.toNat_concat (bytes : Bytes) (b : UInt8) :
    Bytes.toNat (bytes ++ [b]) = Bytes.toNat bytes * 256 + b.toNat := by
  simp [Bytes.toNat]

theorem Bytes.ofNat_toNat (bytes : Bytes) :
    Bytes.ofNat bytes.length (Bytes.toNat bytes) = bytes := by
  induction bytes using List.reverseRecOn with
  | nil => rfl
  | append_singleton bytes b ih =>
      have hlt := b.toNat_lt
      have hdiv : (Bytes.toNat bytes * 256 + b.toNat) / 256 = Bytes.toNat bytes := by omega
      have hmod : (Bytes.toNat bytes * 256 + b.toNat) % 256 = b.toNat := by omega
      rw [List.length_append, List.length_singleton, Bytes.toNat_concat, Bytes.ofNat, hdiv, hmod,
        ih, UInt8.ofNat_toNat]

theorem Bytes.toNat_lt (bytes : Bytes) : Bytes.toNat bytes < 256 ^ bytes.length := by
  have hread := Bytes.toNat_ofNat bytes.length (Bytes.toNat bytes)
  rw [Bytes.ofNat_toNat] at hread
  rw [hread]
  exact Nat.mod_lt _ (Nat.pow_pos (by decide))

theorem Bytes.toNatLittle_lt {n : Nat} {bytes : Bytes} (h : bytes.length = n) :
    Bytes.toNatLittle bytes < 256 ^ n := by
  have hlt := Bytes.toNat_lt bytes.reverse
  rwa [List.length_reverse, h] at hlt

theorem Bytes.ofNatLittle_toNatLittle (bytes : Bytes) :
    Bytes.ofNatLittle bytes.length (Bytes.toNatLittle bytes) = bytes := by
  have hback := Bytes.ofNat_toNat bytes.reverse
  rw [List.length_reverse] at hback
  rw [Bytes.ofNatLittle, Bytes.toNatLittle, hback, List.reverse_reverse]

theorem FixedBytes.ofList?_eq_some {n : Nat} {bytes : Bytes} {fixed : FixedBytes n} :
    FixedBytes.ofList? n bytes = some fixed ↔ bytes = fixed.toList := by
  unfold ofList?
  constructor
  · intro h
    split at h
    · rw [← Option.some.inj h]
    · cases h
  · rintro rfl
    rw [dif_pos fixed.length_toList]

theorem FixedBytes.exists_ofList? {n : Nat} {bytes : Bytes} (h : bytes.length = n) :
    ∃ fixed, FixedBytes.ofList? n bytes = some fixed :=
  ⟨⟨bytes, h⟩, dif_pos h⟩

@[simp] theorem FixedBytes.ofList?_toList {n : Nat} (bytes : FixedBytes n) :
    FixedBytes.ofList? n bytes.toList = some bytes :=
  FixedBytes.ofList?_eq_some.mpr rfl

namespace Outpoint

@[simp] theorem ofBytes?_toBytes (outpoint : Outpoint) :
    ofBytes? outpoint.toBytes = some outpoint := by
  have htake : outpoint.toBytes.take 32 = outpoint.txid.toList := by
    simp [toBytes, outpoint.txid.length_toList]
  have hdrop : outpoint.toBytes.drop 32 = Bytes.ofNatLittle 4 outpoint.index.toNat := by
    simp [toBytes, outpoint.txid.length_toList]
  have hindex : UInt32.ofNat (outpoint.index.toNat % 256 ^ 4) = outpoint.index := by
    have hlt : outpoint.index.toNat < 256 ^ 4 := outpoint.index.toNat_lt
    rw [Nat.mod_eq_of_lt hlt, UInt32.ofNat_toNat]
  rw [ofBytes?, if_pos outpoint.length_toBytes, htake, hdrop, Bytes.toNatLittle_ofNatLittle,
    hindex, FixedBytes.ofList?_toList]
  rfl

/-- Octets that are read as an outpoint are its serialized form. -/
theorem ofBytes?_eq_some {bytes : Bytes} {outpoint : Outpoint} :
    ofBytes? bytes = some outpoint ↔ bytes = outpoint.toBytes := by
  constructor
  · intro h
    unfold ofBytes? at h
    split at h
    next hlength =>
      obtain ⟨txid, htxid, rfl⟩ := Option.map_eq_some_iff.mp h
      have hdrop : (bytes.drop 32).length = 4 := by rw [List.length_drop, hlength, serializedLength]
      have hlt : Bytes.toNatLittle (bytes.drop 32) < 2 ^ 32 := by
        have hbound := Bytes.toNat_lt (bytes.drop 32).reverse
        rwa [List.length_reverse, hdrop] at hbound
      have hindex := Bytes.ofNatLittle_toNatLittle (bytes.drop 32)
      rw [hdrop] at hindex
      rw [toBytes, UInt32.toNat_ofNat_of_lt' hlt, hindex, ← FixedBytes.ofList?_eq_some.mp htxid,
        List.take_append_drop]
    next => cases h
  · rintro rfl
    exact ofBytes?_toBytes outpoint

/-- Every byte string of the right length is an outpoint. -/
theorem exists_ofBytes? {bytes : Bytes} (h : bytes.length = serializedLength) :
    ∃ outpoint, ofBytes? bytes = some outpoint := by
  obtain ⟨txid, htxid⟩ : ∃ txid, FixedBytes.ofList? 32 (bytes.take 32) = some txid :=
    FixedBytes.exists_ofList? (by rw [List.length_take, h]; rfl)
  rw [ofBytes?, if_pos h, htxid]
  exact ⟨_, rfl⟩

theorem toBytes_injective : Function.Injective toBytes := by
  intro a b h
  have hread := congrArg ofBytes? h
  simpa using hread

@[simp] theorem toBytes_inj {a b : Outpoint} : a.toBytes = b.toBytes ↔ a = b :=
  toBytes_injective.eq_iff

end Outpoint

end ChatRelay
