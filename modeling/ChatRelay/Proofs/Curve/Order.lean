import ChatRelay.Proofs.Curve.Group

/-!
# The multiples of the generator

The generator has the prime order that is stated for it. So its multiples depend on the scalar
modulo the order only, and none but the multiples of the order is neutral. A secret key is a scalar
that leads to its public key, and to the key that is known by its abscissa after a change of sign.
-/

namespace ChatRelay

namespace Curve

/-! ## The order -/

theorem prime_57 : Nat.Prime 107361793816595537 := by
  apply prime_of_large_factors 2 {85831, 4681609}
  · decide
  · decide
  · simp only [Finset.forall_mem_insert, Finset.mem_singleton, forall_eq]
    norm_num
  all_goals decide +kernel

theorem prime_68 : Nat.Prime 174723607534414371449 := by
  apply prime_of_large_factors 2 {120233, 44706919}
  · decide
  · decide
  · simp only [Finset.forall_mem_insert, Finset.mem_singleton, forall_eq]
    norm_num
  all_goals decide +kernel

theorem order_prime : order.Prime := by
  apply prime_of_large_factors 2 {107361793816595537, 174723607534414371449, 631}
  · decide
  · decide
  · simp only [Finset.forall_mem_insert, Finset.mem_singleton, forall_eq]
    exact ⟨prime_57, prime_68, by norm_num⟩
  all_goals decide +kernel

instance fact_order_prime : Fact order.Prime := ⟨order_prime⟩

/-- The generator in the group. -/
def base : Group := generator.element

variable {k j : Nat} {point : Point}

theorem order_nsmul_base : order • base = 0 := by
  have hstands := (Triple.stands_ofPoint generator).smul (k := order) (by decide)
  have hneutral : (Triple.smul order (.ofPoint generator)).z = 0 := by decide +kernel
  generalize Triple.smul order (.ofPoint generator) = t at hstands hneutral
  generalize hP : order • generator.element = P at hstands
  cases hstands with
  | neutral hz => exact hP
  | finite h hz => exact absurd hneutral (Triple.ne_zero_of_cast hz)

theorem addOrderOf_base : addOrderOf base = order :=
  addOrderOf_eq_prime order_nsmul_base generator.element_ne_zero

/-- Multiples are the same if the scalars are, modulo the order. -/
theorem nsmul_base_eq_iff : k • base = j • base ↔ (k : ZMod order) = (j : ZMod order) := by
  rw [nsmul_eq_nsmul_iff_modEq, addOrderOf_base, ZMod.natCast_eq_natCast_iff]

theorem nsmul_base_eq_zero_iff : k • base = 0 ↔ (k : ZMod order) = 0 := by
  have hzero := nsmul_base_eq_iff (k := k) (j := 0)
  rwa [zero_nsmul, Nat.cast_zero] at hzero

theorem nsmul_base_eq_neg_iff :
    k • base = -(j • base) ↔ (k : ZMod order) = -(j : ZMod order) := by
  rw [eq_neg_iff_add_eq_zero, eq_neg_iff_add_eq_zero, ← add_nsmul, nsmul_base_eq_zero_iff,
    Nat.cast_add]

/-- A scalar below the order is computed to the multiple of the generator. -/
theorem smulGenerator?_eq_some_iff (hk : k < order) :
    smulGenerator? k = some point ↔ k • base = point.element := by
  have hstands : (Triple.smul k (.ofPoint generator)).Stands (k • base) :=
    (Triple.stands_ofPoint generator).smul (Nat.lt_trans hk (by decide))
  constructor
  · intro h
    by_cases hzero : k • base = 0
    · rw [hzero] at hstands
      rw [smulGenerator?, hstands.toPoint?_eq_none] at h
      cases h
    · obtain ⟨other, hother⟩ := Point.exists_element hzero
      rw [← hother] at hstands
      rw [smulGenerator?, hstands.toPoint?_eq_some] at h
      rw [← hother, Option.some.inj h]
  · intro h
    rw [h] at hstands
    exact hstands.toPoint?_eq_some

theorem exists_smulGenerator? (hpos : 0 < k) (hk : k < order) :
    ∃ point, smulGenerator? k = some point ∧ k • base = point.element := by
  have hne : k • base ≠ 0 := by
    rw [Ne, nsmul_base_eq_zero_iff, cast_eq_zero_iff hk]
    omega
  obtain ⟨point, hpoint⟩ := Point.exists_element hne
  exact ⟨point, (smulGenerator?_eq_some_iff hk).mpr hpoint.symm, hpoint.symm⟩

/-- The scalar, or its opposite if the ordinate of its point is odd. -/
def evened (k : Nat) (point : Point) : Nat := if point.y % 2 = 0 then k else order - k

/-- Of a point and its opposite one has an even ordinate. -/
theorem exists_even (hk : k < order) (h : k • base = point.element) :
    ∃ even : Point, evened k point • base = even.element ∧ even.x = point.x ∧ even.y % 2 = 0 := by
  unfold evened
  split
  next heven => exact ⟨point, h, rfl, heven⟩
  next hodd =>
    obtain ⟨opposite, hopposite, hx, heven⟩ := point.exists_neg
    refine ⟨opposite, ?_, hx, heven (by omega)⟩
    rw [hopposite, ← h, nsmul_base_eq_neg_iff, Nat.cast_sub hk.le, ZMod.natCast_self, zero_sub]

/-- No point has the abscissa zero. -/
theorem Point.x_ne_zero (point : Point) : point.x ≠ 0 := by
  intro hx
  have hcurve := point.onCurve
  rw [hx] at hcurve
  obtain ⟨-, hroot⟩ := powMod_square point.y_lt
  -- then seven would have the root that is computed for it
  have hordinate : point.y = powMod fieldOrder (cubic 0) ((fieldOrder + 1) / 4) ∨
      point.y = fieldOrder - powMod fieldOrder (cubic 0) ((fieldOrder + 1) / 4) := by
    rw [← hcurve]
    omega
  rcases hordinate with hy | hy
  all_goals
    rw [hy] at hcurve
    revert hcurve
    decide +kernel

end Curve

namespace SecretKey

open Curve

variable (secret : SecretKey)

theorem publicKey_spec : secret.scalar • base = secret.publicKey.element := by
  obtain ⟨point, hpoint, helement⟩ := exists_smulGenerator? secret.pos secret.lt
  rw [publicKey, hpoint, helement]
  rfl

theorem evenScalar_eq : secret.evenScalar = evened secret.scalar secret.publicKey := rfl

theorem xOnlyKey_spec : secret.evenScalar • base = secret.xOnlyKey.point.element := by
  obtain ⟨point, helement, hx, heven⟩ := exists_even secret.lt secret.publicKey_spec
  rw [evenScalar_eq, helement, xOnlyKey, ← hx, XOnlyKey.ofNat?_x ⟨point, heven⟩]
  rfl

end SecretKey

end ChatRelay
