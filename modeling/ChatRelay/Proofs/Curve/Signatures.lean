import ChatRelay.Curve.Ecdsa
import ChatRelay.Curve.Schnorr
import ChatRelay.Proofs.Curve.Order

/-!
# What is signed is accepted

Signing draws a nonce from a digest, and whenever it finds one, the signature that it makes is
accepted for the public key, by either scheme. It is refused if no nonce was found, for then it is
zero.
-/

namespace ChatRelay

/-! ## Two numbers in one signature -/

theorem Bytes.toNat_take_ofNat {r : Nat} (hr : r < 2 ^ 256) (s : Nat) :
    Bytes.toNat ((Bytes.ofNat 32 r ++ Bytes.ofNat 32 s).take 32) = r := by
  rw [List.take_left' (Bytes.length_ofNat 32 r), Bytes.toNat_ofNat]
  exact Nat.mod_eq_of_lt hr

theorem Bytes.toNat_drop_ofNat (r : Nat) {s : Nat} (hs : s < 2 ^ 256) :
    Bytes.toNat ((Bytes.ofNat 32 r ++ Bytes.ofNat 32 s).drop 32) = s := by
  rw [List.drop_left' (Bytes.length_ofNat 32 r), Bytes.toNat_ofNat]
  exact Nat.mod_eq_of_lt hs

namespace Curve

/-- A sum of multiples of the generator and of a point that is one itself. -/
theorem stands_combination {u v scalar : Nat} {point : Point} (hu : u ≤ order) (hv : v ≤ order)
    (hpoint : scalar • base = point.element) :
    ((Triple.smul u (.ofPoint generator)).add (Triple.smul v (.ofPoint point))).Stands
      ((u + v * scalar) • base) := by
  have hlt : order < 2 ^ 256 := by decide
  have hfirst : (Triple.smul u (.ofPoint generator)).Stands (u • base) :=
    (Triple.stands_ofPoint generator).smul (Nat.lt_of_le_of_lt hu hlt)
  have hsecond : (Triple.smul v (.ofPoint point)).Stands (v • point.element) :=
    (Triple.stands_ofPoint point).smul (Nat.lt_of_le_of_lt hv hlt)
  rw [add_nsmul, mul_nsmul', hpoint]
  exact hfirst.add hsecond

end Curve

/-! ## ECDSA -/

namespace Ecdsa

open Curve

variable {secret : SecretKey} {digest nonce attempts : Nat} {g : Generator} {signature : Nat × Nat}

/-- The two scalars of a signature with a nonce. Their second is determined up to its sign. -/
structure Signs (secret : SecretKey) (digest : Nat) (signature : Nat × Nat) (nonce : Nat)
    (point : Point) : Prop where
  nonce_lt : nonce < order
  point_eq : nonce • base = point.element
  first : signature.1 = point.x % order
  first_ne : signature.1 ≠ 0
  second_ne : signature.2 ≠ 0
  second_le : signature.2 ≤ order / 2
  relation : (signature.2 * nonce : ZMod order) = digest + signature.1 * secret.scalar ∨
    (signature.2 * nonce : ZMod order) = -(digest + signature.1 * secret.scalar)

theorem signs_of_signWith? (hpos : 0 < nonce) (hlt : nonce < order)
    (h : signWith? secret digest nonce = some signature) :
    ∃ point, Signs secret digest signature nonce point := by
  obtain ⟨point, hpoint, helement⟩ := exists_smulGenerator? hpos hlt
  rw [signWith?, hpoint] at h
  dsimp only at h
  have hnonce : (nonce : ZMod order) ≠ 0 := by
    rw [Ne, cast_eq_zero_iff hlt]
    omega
  have hinverse : (inverseMod order nonce : ZMod order) = (nonce : ZMod order)⁻¹ :=
    cast_inverseMod (by decide) hnonce
  set s := inverseMod order nonce * ((digest + point.x % order * secret.scalar) % order) % order
    with hs
  have hslt : s < order := Nat.mod_lt _ (by decide)
  have hproduct : (s * nonce : ZMod order) =
      digest + (point.x % order : Nat) * secret.scalar := by
    rw [hs]
    simp only [ZMod.natCast_mod, Nat.cast_mul, Nat.cast_add, hinverse]
    field_simp
  split at h
  · cases h
  next hne =>
    rw [not_or] at hne
    obtain rfl := Option.some.inj h
    refine ⟨point, hlt, helement, rfl, hne.1, ?_, ?_, ?_⟩
    · dsimp only
      split <;> omega
    · dsimp only
      split <;> omega
    · dsimp only
      split
      · right
        rw [Nat.cast_sub hslt.le, ZMod.natCast_self, zero_sub, neg_mul, hproduct]
      · exact .inl hproduct

theorem signs_of_search (h : search secret digest attempts g = some signature) :
    ∃ nonce point, Signs secret digest signature nonce point := by
  induction attempts generalizing g with
  | zero => cases h
  | succ attempts ih =>
      rw [search] at h
      obtain ⟨candidate, later⟩ := g.next
      dsimp only at h
      split at h
      next found hfound =>
        obtain rfl := Option.some.inj h
        split at hfound
        next hnonce => exact ⟨_, signs_of_signWith? hnonce.1 hnonce.2 hfound⟩
        next => cases hfound
      next => exact ih h

/-- A nonce is found for a digest. -/
def Drawn (secret : SecretKey) (digest : FixedBytes 32) : Prop := (scalars? secret digest).isSome

instance (secret : SecretKey) (digest : FixedBytes 32) : Decidable (Drawn secret digest) :=
  inferInstanceAs (Decidable (_ = true))

theorem verify_of_signs {digest : FixedBytes 32} {point : Point}
    (h : Signs secret digest.toNat signature nonce point) :
    verify secret.publicKey digest (encode signature) := by
  obtain ⟨r, s⟩ := signature
  obtain ⟨hnonce, hpoint, hr, hr0, hs0, hs, hrelation⟩ := h
  dsimp only at hr hr0 hs0 hs hrelation
  have hrlt : r < order := hr ▸ Nat.mod_lt _ (by decide)
  have hslt : s < order := Nat.lt_of_le_of_lt hs (by decide)
  have horder : order < 2 ^ 256 := by decide
  have hscast : (s : ZMod order) ≠ 0 := by rwa [Ne, cast_eq_zero_iff hslt]
  have hinverse : (inverseMod order s : ZMod order) = (s : ZMod order)⁻¹ :=
    cast_inverseMod horder hscast
  rw [verify, encode, Bytes.toNat_take_ofNat (hrlt.trans horder),
    Bytes.toNat_drop_ofNat _ (hslt.trans horder), if_neg (by omega)]
  dsimp only
  set u := digest.toNat % order * inverseMod order s % order with hu
  set v := r * inverseMod order s % order with hv
  have hsum := stands_combination (u := u) (v := v) (Nat.mod_lt _ (by decide)).le
    (Nat.mod_lt _ (by decide)).le secret.publicKey_spec
  have hscalar : ((u + v * secret.scalar : Nat) : ZMod order) =
      (digest.toNat + r * secret.scalar) * (s : ZMod order)⁻¹ := by
    rw [hu, hv]
    simp only [Nat.cast_add, Nat.cast_mul, ZMod.natCast_mod, hinverse]
    ring
  have hsame : ∃ other : Point, (u + v * secret.scalar) • base = other.element ∧
      other.x = point.x := by
    rcases hrelation with hplus | hminus
    · refine ⟨point, ?_, rfl⟩
      rw [← hpoint, nsmul_base_eq_iff, hscalar, ← hplus]
      field_simp
    · obtain ⟨opposite, hopposite, hx, -⟩ := point.exists_neg
      refine ⟨opposite, ?_, hx⟩
      rw [hopposite, ← hpoint, nsmul_base_eq_neg_iff, hscalar, eq_neg_iff_add_eq_zero]
      field_simp
      rw [hminus]
      ring
  obtain ⟨other, hother, hx⟩ := hsame
  rw [hother] at hsum
  rw [hsum.toPoint?_eq_some, hr, ← hx]
  exact beq_self_eq_true _

theorem verify_zeros (key : PublicKey) (digest : FixedBytes 32) :
    ¬ verify key digest (encode (0, 0)) := by
  rw [verify, encode, Bytes.toNat_take_ofNat (by decide), if_pos (.inl rfl)]
  exact Bool.false_ne_true

/-- A signature is accepted exactly if a nonce was found for it. -/
theorem verify_sign_iff (secret : SecretKey) (digest : FixedBytes 32) :
    verify secret.publicKey digest (sign secret digest) ↔ Drawn secret digest := by
  rw [Drawn, sign]
  cases hfound : scalars? secret digest with
  | none => simpa using verify_zeros secret.publicKey digest
  | some signature =>
      obtain ⟨nonce, point, hsigns⟩ := signs_of_search hfound
      simpa using verify_of_signs hsigns

end Ecdsa

/-! ## Schnorr signatures -/

namespace Schnorr

open Curve

/-- The nonce that is drawn for a digest is not zero. -/
def Drawn (secret : SecretKey) (digest : FixedBytes 32) : Prop :=
  nonce secret.evenScalar secret.xOnlyKey digest ≠ 0

instance (secret : SecretKey) (digest : FixedBytes 32) : Decidable (Drawn secret digest) :=
  inferInstanceAs (Decidable (_ ≠ 0))

/-- The scalar answers the challenge for the point that it is made with. -/
theorem verify_of_answers {key : XOnlyKey} {digest : FixedBytes 32} {made : FixedBytes 64}
    {scalar k : Nat} {even : Point} (hkey : scalar • base = key.point.element)
    (hk : k • base = even.element) (heven : even.y % 2 = 0)
    (hmade : made.toList = Bytes.ofNat 32 even.x ++ Bytes.ofNat 32
      ((k + challenge (Bytes.ofNat 32 even.x) key digest * scalar) % order)) :
    verify key digest made := by
  have horder : order < 2 ^ 256 := by decide
  have hfield : fieldOrder < 2 ^ 256 := by decide
  have hlast : ∀ a, a % order < order := fun a => Nat.mod_lt a (by decide)
  have hx := Bytes.toNat_take_ofNat (even.x_lt.trans hfield)
    ((k + challenge (Bytes.ofNat 32 even.x) key digest * scalar) % order)
  have hnot : ¬ (fieldOrder ≤ even.x ∨
      order ≤ (k + challenge (Bytes.ofNat 32 even.x) key digest * scalar) % order) := by
    have := even.x_lt
    have := hlast (k + challenge (Bytes.ofNat 32 even.x) key digest * scalar)
    omega
  rw [verify, hmade, hx, Bytes.toNat_drop_ofNat _ ((hlast _).trans horder), if_neg hnot,
    List.take_left' (Bytes.length_ofNat 32 even.x)]
  dsimp only
  set e := challenge (Bytes.ofNat 32 even.x) key digest with he
  have helt : e < order := hlast _
  have hsum := stands_combination (u := (k + e * scalar) % order) (v := order - e)
    (hlast _).le (Nat.sub_le _ _) hkey
  have hscalar : ((k + e * scalar) % order + (order - e) * scalar) • base = k • base := by
    rw [nsmul_base_eq_iff]
    simp only [Nat.cast_add, Nat.cast_mul, ZMod.natCast_mod, Nat.cast_sub helt.le,
      ZMod.natCast_self]
    ring
  rw [hscalar, hk] at hsum
  rw [hsum.toPoint?_eq_some]
  simp [heven]

/-- Zeros are no signature, as no point has the abscissa zero. -/
theorem verify_zeros (key : XOnlyKey) (digest : FixedBytes 32) :
    ¬ verify key digest (FixedBytes.replicate 64 0) := by
  have hzero : Bytes.toNat ((FixedBytes.replicate 64 0).toList.take 32) = 0 := by decide
  rw [verify]
  dsimp only
  split
  · exact Bool.false_ne_true
  · split
    · exact Bool.false_ne_true
    next point hpoint => simp [hzero, point.x_ne_zero]

theorem sign_eq_zeros {secret : SecretKey} {digest : FixedBytes 32}
    (h : nonce secret.evenScalar secret.xOnlyKey digest = 0) :
    sign secret digest = FixedBytes.replicate 64 0 := by
  have hneutral : smulGenerator? 0 = none := by decide +kernel
  have hnone : smulGenerator? (nonce secret.evenScalar secret.xOnlyKey digest) = none := by
    rw [h, hneutral]
  rw [sign, hnone]

theorem verify_sign {secret : SecretKey} {digest : FixedBytes 32} (h : Drawn secret digest) :
    verify secret.xOnlyKey digest (sign secret digest) := by
  have hlt : nonce secret.evenScalar secret.xOnlyKey digest < order := Nat.mod_lt _ (by decide)
  obtain ⟨point, hpoint, helement⟩ := exists_smulGenerator? (Nat.pos_of_ne_zero h) hlt
  obtain ⟨even, hk, hx, heven⟩ := exists_even hlt helement
  apply verify_of_answers secret.xOnlyKey_spec hk heven
  rw [sign, hpoint, hx]
  rfl

/-- A signature is accepted exactly if its nonce is not zero. -/
theorem verify_sign_iff (secret : SecretKey) (digest : FixedBytes 32) :
    verify secret.xOnlyKey digest (sign secret digest) ↔ Drawn secret digest := by
  refine ⟨fun haccepted hzero => ?_, verify_sign⟩
  rw [sign_eq_zeros hzero] at haccepted
  exact verify_zeros _ _ haccepted

end Schnorr

end ChatRelay
