import ChatRelay.Proofs.Curve.Keys
import Mathlib.AlgebraicGeometry.EllipticCurve.Affine.Point
import Mathlib.Tactic.FieldSimp
import Mathlib.Tactic.LinearCombination

/-!
# The group of the curve

The points of the curve and the neutral one are a group, whose sums are those of chords and
tangents. A triple stands for the point that it gives when it is divided by powers of its last
coordinate, and for the neutral one if that is zero. What is computed on triples stands for the sum,
the double and the multiple in the group, also where a point is added to itself or to its opposite.
-/

namespace ChatRelay.Curve

open WeierstrassCurve.Affine (equation_iff equation_iff_nonsingular_of_Δ_ne_zero nonsingular_add
  slope_of_X_ne slope_of_Y_ne)

instance fact_fieldOrder_prime : Fact fieldOrder.Prime := ⟨fieldOrder_prime⟩

/-- The curve over its coordinate field. -/
def curve : WeierstrassCurve.Affine (ZMod fieldOrder) := ⟨0, 0, 0, 0, 7⟩

/-- The points of the curve and the neutral one. -/
abbrev Group := curve.Point

/-! ## Numbers as coordinates -/

theorem cast_eq_iff {m a b : Nat} (ha : a < m) (hb : b < m) :
    (a : ZMod m) = (b : ZMod m) ↔ a = b := by
  rw [ZMod.natCast_eq_natCast_iff', Nat.mod_eq_of_lt ha, Nat.mod_eq_of_lt hb]

theorem cast_eq_zero_iff {m a : Nat} (ha : a < m) : (a : ZMod m) = 0 ↔ a = 0 := by
  rw [← Nat.cast_zero, cast_eq_iff ha (Nat.zero_lt_of_lt ha)]

theorem two_ne_zero : (2 : ZMod fieldOrder) ≠ 0 := by
  intro hzero
  have hcast : ((2 : Nat) : ZMod fieldOrder) = 0 := by exact_mod_cast hzero
  exact absurd ((cast_eq_zero_iff (by decide)).mp hcast) (by decide)

theorem cast_cubic (x : Nat) : (cubic x : ZMod fieldOrder) = x ^ 3 + 7 := by
  rw [cubic, ZMod.natCast_mod]
  push_cast
  rw [ZMod.natCast_mod]
  push_cast
  ring

theorem mod_le (a : Nat) : a % fieldOrder ≤ fieldOrder := (Nat.mod_lt a (by decide)).le

theorem subMod_le (a b : Nat) : subMod fieldOrder a b ≤ fieldOrder := mod_le _

theorem cast_subMod {m a b : Nat} (hb : b ≤ m) : (subMod m a b : ZMod m) = a - b := by
  rw [subMod, ZMod.natCast_mod, Nat.cast_add, Nat.cast_sub hb, ZMod.natCast_self]
  ring

/-- The power that is taken for an inverse modulo a prime is one. -/
theorem cast_inverseMod {m x : Nat} [Fact m.Prime] (hm : m < 2 ^ 256)
    (hx : (x : ZMod m) ≠ 0) : (inverseMod m x : ZMod m) = (x : ZMod m)⁻¹ := by
  have htwo : 2 ≤ m := (Fact.out : m.Prime).two_le
  have hpower : (x : ZMod m) ^ (m - 2) * x = 1 := by
    rw [← pow_succ, show m - 2 + 1 = m - 1 by omega, ZMod.pow_card_sub_one_eq_one hx]
  rw [inverseMod, cast_powMod (dvd_refl m) (by omega) (by omega)]
  exact eq_inv_of_mul_eq_one_left hpower

/-! ## Chords and tangents -/

section

variable {x y x₁ y₁ x₂ y₂ slope : ZMod fieldOrder}

theorem nonsingular_iff : curve.Nonsingular x y ↔ y ^ 2 = x ^ 3 + 7 := by
  have hdiscriminant : curve.Δ ≠ 0 := by
    have hvalue : curve.Δ = -((21168 : Nat) : ZMod fieldOrder) := by
      simp only [WeierstrassCurve.Δ, WeierstrassCurve.b₂, WeierstrassCurve.b₄,
        WeierstrassCurve.b₆, WeierstrassCurve.b₈, curve]
      push_cast
      ring
    rw [hvalue, neg_ne_zero, Ne, cast_eq_zero_iff (by decide)]
    decide
  rw [← equation_iff_nonsingular_of_Δ_ne_zero hdiscriminant, equation_iff]
  simp [curve]

theorem curve_negY : curve.negY x y = -y := by simp [WeierstrassCurve.Affine.negY, curve]

theorem curve_addX : curve.addX x₁ x₂ slope = slope ^ 2 - x₁ - x₂ := by
  simp [WeierstrassCurve.Affine.addX, curve]

theorem curve_addY : curve.addY x₁ x₂ y₁ slope =
    slope * (x₁ - (slope ^ 2 - x₁ - x₂)) - y₁ := by
  rw [WeierstrassCurve.Affine.addY, curve_negY, WeierstrassCurve.Affine.negAddY, curve_addX]
  ring

theorem neg_some (h : curve.Nonsingular x y) :
    ∃ h', (-.some x y h : Group) = .some x (-y) h' := by
  have h' : curve.Nonsingular x (-y) := by rwa [nonsingular_iff, neg_sq, ← nonsingular_iff]
  refine ⟨h', ?_⟩
  rw [WeierstrassCurve.Affine.Point.neg_some]
  simp only [curve_negY]

/-- A sum of points that are not opposite, by the slope of the line through them. -/
theorem some_add_some (h₁ : curve.Nonsingular x₁ y₁) (h₂ : curve.Nonsingular x₂ y₂)
    (hne : ¬ (x₁ = x₂ ∧ y₁ = -y₂)) (hslope : curve.slope x₁ x₂ y₁ y₂ = slope) :
    ∃ h, (.some x₁ y₁ h₁ + .some x₂ y₂ h₂ : Group) =
      .some (slope ^ 2 - x₁ - x₂) (slope * (x₁ - (slope ^ 2 - x₁ - x₂)) - y₁) h := by
  rw [← curve_negY (x := x₂)] at hne
  have h := nonsingular_add h₁ h₂ hne
  rw [hslope, curve_addX, curve_addY] at h
  refine ⟨h, ?_⟩
  rw [WeierstrassCurve.Affine.Point.add_some hne]
  simp only [hslope, curve_addX, curve_addY]

theorem some_add_self (h : curve.Nonsingular x y) (hy : y ≠ 0) :
    let slope := 3 * x ^ 2 / (2 * y)
    ∃ h', (.some x y h + .some x y h : Group) =
      .some (slope ^ 2 - x - x) (slope * (x - (slope ^ 2 - x - x)) - y) h' := by
  have hne : y ≠ -y := by
    intro heq
    have htwice : 2 * y = 0 := by linear_combination heq
    exact mul_ne_zero two_ne_zero hy htwice
  apply some_add_some h h fun heq => hne heq.2
  rw [slope_of_Y_ne rfl (by rwa [curve_negY]), curve_negY]
  simp [curve, two_mul]

theorem some_add_of_ne (h₁ : curve.Nonsingular x₁ y₁) (h₂ : curve.Nonsingular x₂ y₂)
    (hne : x₁ ≠ x₂) :
    let slope := (y₁ - y₂) / (x₁ - x₂)
    ∃ h, (.some x₁ y₁ h₁ + .some x₂ y₂ h₂ : Group) =
      .some (slope ^ 2 - x₁ - x₂) (slope * (x₁ - (slope ^ 2 - x₁ - x₂)) - y₁) h :=
  some_add_some h₁ h₂ (fun heq => hne heq.1) (slope_of_X_ne hne)

theorem some_add_opposite (h₁ : curve.Nonsingular x y₁) (h₂ : curve.Nonsingular x y₂)
    (hopposite : y₁ = -y₂) : (.some x y₁ h₁ + .some x y₂ h₂ : Group) = 0 :=
  WeierstrassCurve.Affine.Point.add_of_Y_eq rfl (by rwa [curve_negY])

/-- Points with the same abscissa are the same or opposite. -/
theorem eq_or_eq_neg (h₁ : curve.Nonsingular x y₁) (h₂ : curve.Nonsingular x y₂) :
    y₁ = y₂ ∨ y₁ = -y₂ :=
  sq_eq_sq_iff_eq_or_eq_neg.mp ((nonsingular_iff.mp h₁).trans (nonsingular_iff.mp h₂).symm)

end

/-! ## Points as elements -/

namespace Point

theorem nonsingular (point : Point) :
    curve.Nonsingular (point.x : ZMod fieldOrder) (point.y : ZMod fieldOrder) := by
  have hcast : ((point.y * point.y % fieldOrder : Nat) : ZMod fieldOrder) = cubic point.x :=
    congrArg Nat.cast point.onCurve
  rw [ZMod.natCast_mod, cast_cubic, Nat.cast_mul] at hcast
  rw [nonsingular_iff, sq, hcast]

/-- The element of the group that a point is. -/
def element (point : Point) : Group := .some point.x point.y point.nonsingular

theorem element_ne_zero (point : Point) : point.element ≠ 0 :=
  WeierstrassCurve.Affine.Point.some_ne_zero _

/-- Every element but the neutral one is a point. -/
theorem exists_element {P : Group} (hP : P ≠ 0) : ∃ point : Point, point.element = P := by
  cases P with
  | zero => exact absurd rfl hP
  | some x y h =>
      have hcurve : y.val * y.val % fieldOrder = cubic x.val := by
        have hlt : cubic x.val < fieldOrder := Nat.mod_lt _ (by decide)
        rw [← cast_eq_iff (Nat.mod_lt _ (by decide)) hlt, ZMod.natCast_mod, cast_cubic,
          Nat.cast_mul, ZMod.natCast_zmod_val, ZMod.natCast_zmod_val, ← sq, nonsingular_iff.mp h]
      refine ⟨⟨x.val, y.val, x.val_lt, y.val_lt, hcurve⟩, ?_⟩
      simp only [element, ZMod.natCast_zmod_val]

/-- The opposite of a point has its abscissa, and an ordinate of the other parity unless both are
zero. -/
theorem exists_neg (point : Point) : ∃ opposite : Point, opposite.element = -point.element ∧
    opposite.x = point.x ∧ (point.y % 2 = 1 → opposite.y % 2 = 0) := by
  obtain ⟨opposite, hopposite⟩ := exists_element (neg_ne_zero.mpr point.element_ne_zero)
  obtain ⟨h', hneg⟩ := neg_some point.nonsingular
  have hboth := hopposite.trans hneg
  rw [element, WeierstrassCurve.Affine.Point.some.injEq] at hboth
  obtain ⟨hx, hy⟩ := hboth
  refine ⟨opposite, hopposite, (cast_eq_iff opposite.x_lt point.x_lt).mp hx, fun hodd => ?_⟩
  have hsum : ((opposite.y + point.y : Nat) : ZMod fieldOrder) = 0 := by
    rw [Nat.cast_add, hy, neg_add_cancel]
  obtain ⟨k, hk⟩ := (ZMod.natCast_eq_zero_iff _ _).mp hsum
  have hlt := opposite.y_lt
  have hlt' := point.y_lt
  have hfew : k < 2 := by
    by_contra hmany
    have hle : fieldOrder * 2 ≤ fieldOrder * k := Nat.mul_le_mul_left _ (by omega)
    omega
  have horder : fieldOrder % 2 = 1 := by decide
  interval_cases k <;> omega

end Point

/-! ## Triples -/

namespace Triple

variable {t s : Triple} {P Q : Group} {point : Point} {k : Nat}

/-- A triple stands for an element of the group. -/
inductive Stands (t : Triple) : Group → Prop
  | neutral (hz : t.z = 0) : Stands t 0
  | finite {x y : ZMod fieldOrder} (h : curve.Nonsingular x y)
      (hz : (t.z : ZMod fieldOrder) ≠ 0) (hx : (t.x : ZMod fieldOrder) = x * t.z ^ 2)
      (hy : (t.y : ZMod fieldOrder) = y * t.z ^ 3) : Stands t (.some x y h)

theorem stands_neutral : neutral.Stands 0 := .neutral rfl

theorem stands_ofPoint (point : Point) : (ofPoint point).Stands point.element :=
  .finite point.nonsingular (by simp [ofPoint]) (by simp [ofPoint]) (by simp [ofPoint])

theorem cast_double (t : Triple) :
    (t.double.z : ZMod fieldOrder) = 2 * t.y * t.z ∧
    (t.double.x : ZMod fieldOrder) = 9 * t.x ^ 4 - 8 * t.x * t.y ^ 2 ∧
    (t.double.y : ZMod fieldOrder) =
      3 * t.x ^ 2 * (12 * t.x * t.y ^ 2 - 9 * t.x ^ 4) - 8 * t.y ^ 4 := by
  simp only [double, cast_subMod (mod_le _), cast_subMod (subMod_le _ _), ZMod.natCast_mod,
    Nat.cast_mul]
  push_cast
  refine ⟨?_, ?_, ?_⟩ <;> ring

theorem Stands.double (h : t.Stands P) : t.double.Stands (P + P) := by
  obtain ⟨hz', hx', hy'⟩ := t.cast_double
  cases h with
  | neutral hz =>
      rw [add_zero]
      apply neutral
      simp [Triple.double, hz]
  | @finite x y h hz hx hy =>
      by_cases hzero : y = 0
      · rw [some_add_opposite h h (by rw [hzero, neg_zero])]
        apply neutral
        rw [hy, hzero, zero_mul, mul_zero, zero_mul] at hz'
        exact (cast_eq_zero_iff (Nat.mod_lt _ (by decide))).mp hz'
      · have htwo := two_ne_zero
        obtain ⟨h', hsum⟩ := some_add_self h hzero
        rw [hsum]
        apply finite
        · rw [hz', hy]
          simp [htwo, hzero, hz]
        · rw [hx', hz', hx, hy]
          field_simp
          ring
        · rw [hy', hz', hx, hy]
          field_simp
          ring

section

variable {x₁ y₁ x₂ y₂ : ZMod fieldOrder}

theorem mod_eq_mod_iff {a b : Nat} :
    a % fieldOrder = b % fieldOrder ↔ (a : ZMod fieldOrder) = (b : ZMod fieldOrder) :=
  (ZMod.natCast_eq_natCast_iff' a b fieldOrder).symm

/-- Abscissas are compared without dividing. -/
theorem abscissas_eq_iff (hz₁ : (t.z : ZMod fieldOrder) ≠ 0) (hz₂ : (s.z : ZMod fieldOrder) ≠ 0)
    (hx₁ : (t.x : ZMod fieldOrder) = x₁ * t.z ^ 2) (hx₂ : (s.x : ZMod fieldOrder) = x₂ * s.z ^ 2) :
    t.x * (s.z * s.z % fieldOrder) % fieldOrder = s.x * (t.z * t.z % fieldOrder) % fieldOrder ↔
      x₁ = x₂ := by
  simp only [mod_eq_mod_iff, Nat.cast_mul, ZMod.natCast_mod, hx₁, hx₂]
  constructor
  · intro h
    apply mul_left_cancel₀ (mul_ne_zero (pow_ne_zero 2 hz₁) (pow_ne_zero 2 hz₂))
    linear_combination h
  · rintro rfl
    ring

theorem ordinates_eq_iff (hz₁ : (t.z : ZMod fieldOrder) ≠ 0) (hz₂ : (s.z : ZMod fieldOrder) ≠ 0)
    (hy₁ : (t.y : ZMod fieldOrder) = y₁ * t.z ^ 3) (hy₂ : (s.y : ZMod fieldOrder) = y₂ * s.z ^ 3) :
    t.y * (s.z * s.z % fieldOrder * s.z % fieldOrder) % fieldOrder =
        s.y * (t.z * t.z % fieldOrder * t.z % fieldOrder) % fieldOrder ↔ y₁ = y₂ := by
  simp only [mod_eq_mod_iff, Nat.cast_mul, ZMod.natCast_mod, hy₁, hy₂]
  constructor
  · intro h
    apply mul_left_cancel₀ (mul_ne_zero (pow_ne_zero 3 hz₁) (pow_ne_zero 3 hz₂))
    linear_combination h
  · rintro rfl
    ring

end

theorem ne_zero_of_cast {n : Nat} (h : (n : ZMod fieldOrder) ≠ 0) : n ≠ 0 := by
  rintro rfl
  exact h Nat.cast_zero

/-- The sum of triples with different abscissas `u` and `v` and ordinates `a` and `b`, all over a
common denominator. -/
theorem cast_add (ht : t.z ≠ 0) (hs : s.z ≠ 0)
    (hne : t.x * (s.z * s.z % fieldOrder) % fieldOrder ≠
      s.x * (t.z * t.z % fieldOrder) % fieldOrder) :
    let u : ZMod fieldOrder := t.x * s.z ^ 2
    let v : ZMod fieldOrder := s.x * t.z ^ 2
    let a : ZMod fieldOrder := t.y * s.z ^ 3
    let b : ZMod fieldOrder := s.y * t.z ^ 3
    ((t.add s).z : ZMod fieldOrder) = t.z * s.z * (v - u) ∧
    ((t.add s).x : ZMod fieldOrder) = (b - a) ^ 2 - (v - u) ^ 3 - 2 * u * (v - u) ^ 2 ∧
    ((t.add s).y : ZMod fieldOrder) =
      (b - a) * (3 * u * (v - u) ^ 2 + (v - u) ^ 3 - (b - a) ^ 2) - a * (v - u) ^ 3 := by
  simp only [add, if_neg ht, if_neg hs, if_neg hne, cast_subMod (mod_le _),
    cast_subMod (subMod_le _ _), ZMod.natCast_mod, Nat.cast_mul]
  push_cast
  refine ⟨?_, ?_, ?_⟩ <;> ring

theorem Stands.add (ht : t.Stands P) (hs : s.Stands Q) : (t.add s).Stands (P + Q) := by
  have hsecond := hs
  cases ht with
  | neutral hz =>
      rw [zero_add, Triple.add, if_pos hz]
      exact hs
  | @finite x₁ y₁ h₁ hz₁ hx₁ hy₁ =>
      have hfirst : t.Stands (.some x₁ y₁ h₁) := .finite h₁ hz₁ hx₁ hy₁
      have ht := ne_zero_of_cast hz₁
      cases hs with
      | neutral hz =>
          rw [add_zero, Triple.add, if_neg ht, if_pos hz]
          exact hfirst
      | @finite x₂ y₂ h₂ hz₂ hx₂ hy₂ =>
          have hs := ne_zero_of_cast hz₂
          have habscissas := abscissas_eq_iff hz₁ hz₂ hx₁ hx₂
          by_cases hx : x₁ = x₂
          · have hordinates := ordinates_eq_iff hz₁ hz₂ hy₁ hy₂
            simp only [Triple.add, if_neg ht, if_neg hs, if_pos (habscissas.mpr hx), hordinates]
            subst hx
            split
            next hy =>
              subst hy
              exact hfirst.double
            next hy =>
              rw [some_add_opposite h₁ h₂ ((eq_or_eq_neg h₁ h₂).resolve_left hy)]
              exact stands_neutral
          · obtain ⟨hz', hx', hy'⟩ := cast_add ht hs (mt habscissas.mp hx)
            obtain ⟨h', hsum⟩ := some_add_of_ne h₁ h₂ hx
            have hdiff : x₁ - x₂ ≠ 0 := sub_ne_zero.mpr hx
            have hdenominator : ((t.add s).z : ZMod fieldOrder) =
                -(t.z ^ 3 * s.z ^ 3 * (x₁ - x₂)) := by
              rw [hz', hx₁, hx₂]
              ring
            rw [hsum]
            apply finite
            · rw [hdenominator]
              simp [hz₁, hz₂, hdiff]
            · rw [hx', hdenominator, hx₁, hx₂, hy₁, hy₂]
              field_simp
              ring
            · rw [hy', hdenominator, hx₁, hx₂, hy₁, hy₂]
              field_simp
              ring

/-- Consuming the bits of a number doubles for each and adds for each that is set. -/
theorem stands_foldl_bits (h : t.Stands P) (n : Nat) {acc : Triple} (hacc : acc.Stands Q) :
    ((bits n k).foldl
      (fun acc bit =>
        let acc := acc.double
        if bit then acc.add t else acc) acc).Stands (2 ^ n • Q + (k % 2 ^ n) • P) := by
  induction n generalizing acc Q with
  | zero => simpa [bits, Nat.mod_one] using hacc
  | succ n ih =>
      rw [bits, List.foldl_cons]
      have hpower : 2 ^ (n + 1) • Q = 2 ^ n • (Q + Q) := by
        rw [pow_succ, mul_nsmul', two_nsmul]
      have hmod : k % 2 ^ (n + 1) = k % 2 ^ n + 2 ^ n * (k.testBit n).toNat := by
        rw [Nat.mod_pow_succ, Nat.toNat_testBit]
      cases hbit : k.testBit n with
      | false =>
          rw [hbit, Bool.toNat_false, Nat.mul_zero, Nat.add_zero] at hmod
          rw [hpower, hmod]
          exact ih hacc.double
      | true =>
          rw [hbit, Bool.toNat_true, Nat.mul_one] at hmod
          have hsum : 2 ^ (n + 1) • Q + (k % 2 ^ (n + 1)) • P =
              2 ^ n • (Q + Q + P) + (k % 2 ^ n) • P := by
            rw [hpower, hmod, add_nsmul, nsmul_add (Q + Q) P, add_assoc,
              add_comm ((k % 2 ^ n) • P)]
          rw [hsum]
          exact ih (hacc.double.add h)

theorem Stands.smul (h : t.Stands P) (hk : k < 2 ^ 256) : (smul k t).Stands (k • P) := by
  have hfold := stands_foldl_bits h 256 (k := k) stands_neutral
  rwa [nsmul_zero, zero_add, Nat.mod_eq_of_lt hk] at hfold

/-- A triple that stands for a point gives that point. -/
theorem Stands.toPoint?_eq_some (h : t.Stands point.element) : t.toPoint? = some point := by
  generalize hP : point.element = P at h
  cases h with
  | neutral hz => exact absurd hP point.element_ne_zero
  | @finite x y h hz hx hy =>
      rw [Point.element, WeierstrassCurve.Affine.Point.some.injEq] at hP
      obtain ⟨rfl, rfl⟩ := hP
      have hinverse : (inverseMod fieldOrder t.z : ZMod fieldOrder) = (t.z : ZMod fieldOrder)⁻¹ :=
        cast_inverseMod (by decide) hz
      have habscissa : t.x * (inverseMod fieldOrder t.z * inverseMod fieldOrder t.z % fieldOrder) %
          fieldOrder = point.x := by
        rw [← cast_eq_iff (Nat.mod_lt _ (by decide)) point.x_lt]
        simp only [ZMod.natCast_mod, Nat.cast_mul, hinverse, hx]
        field_simp
      have hordinate : t.y * (inverseMod fieldOrder t.z * inverseMod fieldOrder t.z % fieldOrder *
          inverseMod fieldOrder t.z % fieldOrder) % fieldOrder = point.y := by
        rw [← cast_eq_iff (Nat.mod_lt _ (by decide)) point.y_lt]
        simp only [ZMod.natCast_mod, Nat.cast_mul, hinverse, hy]
        field_simp
      rw [toPoint?, if_neg (ne_zero_of_cast hz)]
      simp only [habscissa, hordinate]
      exact point.ofCoordinates?_self

theorem Stands.toPoint?_eq_none (h : t.Stands 0) : t.toPoint? = none := by
  generalize hP : (0 : Group) = P at h
  cases h with
  | neutral hz => rw [toPoint?, if_pos hz]
  | finite h => exact absurd hP.symm (WeierstrassCurve.Affine.Point.some_ne_zero h)

end Triple

end ChatRelay.Curve
