import ChatRelay.Curve
import Mathlib.FieldTheory.Finite.Basic
import Mathlib.NumberTheory.LucasPrimality
import Mathlib.Tactic.NormNum.Prime

/-!
# The coordinate field

Powers are computed by squaring and multiplying. The order of the coordinate field is prime, which
is shown by a chain of numbers: each but the last has the next one as a factor of its predecessor
that exceeds its own square root. As the order leaves remainder three when divided by four, a square
has one of its roots as a power.
-/

namespace ChatRelay.Curve

/-! ## Powers -/

section

variable {m x e : Nat}

/-- Consuming the bits of an exponent squares for each and multiplies for each that is set. -/
theorem foldl_bits_modEq (n acc : Nat) :
    (bits n e).foldl
      (fun acc bit =>
        let acc := acc * acc % m
        if bit then acc * x % m else acc) acc ≡ acc ^ 2 ^ n * x ^ (e % 2 ^ n) [MOD m] := by
  induction n generalizing acc with
  | zero => simpa [bits, Nat.mod_one] using Nat.ModEq.refl acc
  | succ n ih =>
      rw [bits, List.foldl_cons]
      apply (ih _).trans
      have hsquare : acc * acc % m ≡ acc ^ 2 [MOD m] := by
        rw [sq]
        exact Nat.mod_modEq _ _
      have hacc : acc ^ 2 ^ (n + 1) = (acc ^ 2) ^ 2 ^ n := by
        rw [← pow_mul, pow_succ']
      have hexponent : e % 2 ^ (n + 1) = e % 2 ^ n + 2 ^ n * (e.testBit n).toNat := by
        rw [Nat.mod_pow_succ, Nat.toNat_testBit]
      cases hbit : e.testBit n with
      | false =>
          rw [hbit, Bool.toNat_false, Nat.mul_zero, Nat.add_zero] at hexponent
          rw [hacc, hexponent]
          exact (hsquare.pow _).mul_right _
      | true =>
          rw [hbit, Bool.toNat_true, Nat.mul_one] at hexponent
          rw [hacc, hexponent, Nat.add_comm, pow_add, ← mul_assoc, ← mul_pow]
          apply Nat.ModEq.mul_right
          apply Nat.ModEq.pow
          exact (Nat.mod_modEq _ _).trans (hsquare.mul_right x)

theorem foldl_bits_lt (n : Nat) {acc : Nat} (hm : 0 < m) (hacc : acc < m) :
    (bits n e).foldl
      (fun acc bit =>
        let acc := acc * acc % m
        if bit then acc * x % m else acc) acc < m := by
  induction n generalizing acc with
  | zero => exact hacc
  | succ n ih =>
      rw [bits, List.foldl_cons]
      apply ih
      dsimp only
      split
      · exact Nat.mod_lt _ hm
      · exact Nat.mod_lt _ hm

theorem foldl_bits_eq (n : Nat) (hm : 1 < m) :
    (bits n e).foldl
      (fun acc bit =>
        let acc := acc * acc % m
        if bit then acc * x % m else acc) 1 = x ^ (e % 2 ^ n) % m := by
  have hmod := foldl_bits_modEq (m := m) (x := x) (e := e) n 1
  rw [one_pow, one_mul] at hmod
  rw [← Nat.mod_eq_of_lt (foldl_bits_lt n (Nat.lt_trans Nat.one_pos hm) hm)]
  exact hmod

theorem powMod_eq (hm : 1 < m) (he : e < 2 ^ 256) : powMod m x e = x ^ e % m := by
  unfold powMod
  rw [foldl_bits_eq 256 hm, Nat.mod_eq_of_lt he]

/-- A power modulo a number is the power modulo its factors. -/
theorem cast_powMod {r : Nat} (hdvd : r ∣ m) (hm : 1 < m) (he : e < 2 ^ 256) :
    (powMod m x e : ZMod r) = (x : ZMod r) ^ e := by
  rw [powMod_eq hm he, ← Nat.cast_pow]
  apply (ZMod.natCast_eq_natCast_iff _ _ _).mpr
  exact (Nat.mod_modEq _ m).of_dvd hdvd

end

/-! ## Primality -/

/-- A prime factor of an exponent divides the order of whatever has that power but not the lesser
one equal to one. -/
theorem dvd_orderOf {G : Type*} [Monoid G] {g : G} {q e : Nat} (hq : q.Prime) (hdvd : q ∣ e)
    (hone : g ^ e = 1) (hne : g ^ (e / q) ≠ 1) : q ∣ orderOf g := by
  by_contra hnot
  have hcoprime : Nat.Coprime (orderOf g) q := (hq.coprime_iff_not_dvd.mpr hnot).symm
  have hall : orderOf g ∣ q * (e / q) := by
    rw [Nat.mul_div_cancel' hdvd]
    exact orderOf_dvd_of_pow_eq_one hone
  exact hne (orderOf_dvd_iff_pow_eq_one.mp (hcoprime.dvd_of_dvd_mul_left hall))

/-- A number is prime if different prime factors of its predecessor together exceed its square root,
and modulo each of its own factors some number has an order that all of them divide. -/
theorem prime_of_large_factors {n : Nat} (a : Nat) (factors : Finset Nat) (hn : 1 < n)
    (hlt : n < 2 ^ 256) (hprime : ∀ q ∈ factors, q.Prime) (hdvd : ∀ q ∈ factors, q ∣ n - 1)
    (hlarge : n < ((∏ q ∈ factors, q) + 1) ^ 2) (hone : powMod n a (n - 1) = 1)
    (hcoprime : ∀ q ∈ factors, Nat.gcd (powMod n a ((n - 1) / q) - 1) n = 1) : n.Prime := by
  by_contra hcomposite
  have hr : n.minFac.Prime := Nat.minFac_prime (Nat.ne_of_gt hn)
  have hrn : n.minFac ∣ n := n.minFac_dvd
  have : Fact n.minFac.Prime := ⟨hr⟩
  have hpow : (a : ZMod n.minFac) ^ (n - 1) = 1 := by
    rw [← cast_powMod hrn hn (by omega), hone, Nat.cast_one]
  have hne : (a : ZMod n.minFac) ≠ 0 := by
    intro hzero
    rw [hzero, zero_pow (by omega)] at hpow
    exact zero_ne_one hpow
  have hfactor : ∀ q ∈ factors, q ∣ n.minFac - 1 := by
    intro q hq
    refine (dvd_orderOf (hprime q hq) (hdvd q hq) hpow fun hless => ?_).trans
      (ZMod.orderOf_dvd_card_sub_one hne)
    have hle : (n - 1) / q ≤ n - 1 := Nat.div_le_self _ _
    have hmod : powMod n a ((n - 1) / q) ≡ 1 [MOD n.minFac] := by
      apply (ZMod.natCast_eq_natCast_iff _ _ _).mp
      rw [cast_powMod hrn hn (by omega), hless, Nat.cast_one]
    -- then the least prime factor divides two numbers without a common factor
    have hcommon : n.minFac ∣ powMod n a ((n - 1) / q) - 1 := by
      rcases Nat.eq_zero_or_pos (powMod n a ((n - 1) / q)) with hzero | hpos
      · rw [hzero]
        exact dvd_zero _
      · exact (Nat.modEq_iff_dvd' hpos).mp hmod.symm
    have hgcd := Nat.dvd_gcd hcommon hrn
    rw [hcoprime q hq] at hgcd
    exact hr.one_lt.ne' (Nat.dvd_one.mp hgcd)
  have hprod : ∏ q ∈ factors, q ∣ n.minFac - 1 :=
    Finset.prod_primes_dvd _ (fun q hq => (hprime q hq).prime) hfactor
  have hle : (∏ q ∈ factors, q) + 1 ≤ n.minFac := by
    have hone := hr.one_lt
    have hprodle := Nat.le_of_dvd (by omega) hprod
    omega
  have hsquare : n.minFac ^ 2 ≤ n := Nat.minFac_sq_le_self (by omega) hcomposite
  exact absurd (Nat.pow_le_pow_left hle 2) (by omega)

/-- A single factor of the predecessor that exceeds the square root is enough. -/
theorem prime_of_large_factor {n q : Nat} (a : Nat) (hn : 1 < n) (hlt : n < 2 ^ 256) (hq : q.Prime)
    (hdvd : q ∣ n - 1) (hlarge : n < (q + 1) ^ 2) (hone : powMod n a (n - 1) = 1)
    (hcoprime : Nat.gcd (powMod n a ((n - 1) / q) - 1) n = 1) : n.Prime := by
  apply prime_of_large_factors a {q} hn hlt
  all_goals simpa

theorem prime_128 : Nat.Prime 255515944373312847190720520512484175977 := by
  apply prime_of_large_factors 2 {107590001, 7240687, 96557}
  · decide
  · decide
  · simp only [Finset.forall_mem_insert, Finset.mem_singleton, forall_eq]
    norm_num
  · decide +kernel
  · decide +kernel
  · decide +kernel
  · decide +kernel

theorem prime_228 :
    Nat.Prime 205115282021455665897114700593932402728804164701536103180137503955397371 := by
  apply prime_of_large_factor 2 _ _ prime_128
  all_goals decide +kernel

theorem fieldOrder_prime : fieldOrder.Prime := by
  apply prime_of_large_factor 2 _ _ prime_228
  all_goals decide +kernel

/-! ## Square roots -/

/-- The power that is taken for a root of a square is the number squared or its opposite. -/
theorem powMod_square {y : Nat} (hy : y < fieldOrder) :
    let root := powMod fieldOrder (y * y % fieldOrder) ((fieldOrder + 1) / 4)
    root < fieldOrder ∧ (root = y ∨ root + y = fieldOrder) := by
  intro root
  have : Fact fieldOrder.Prime := ⟨fieldOrder_prime⟩
  have hroot : root < fieldOrder := foldl_bits_lt 256 (by decide) (by decide)
  have hcast : (root : ZMod fieldOrder) = (y * y) ^ ((fieldOrder + 1) / 4) := by
    rw [cast_powMod (dvd_refl _) (by decide) (by decide), ZMod.natCast_mod, Nat.cast_mul]
  have hsquare : (root : ZMod fieldOrder) ^ 2 = (y : ZMod fieldOrder) ^ 2 := by
    by_cases hzero : (y : ZMod fieldOrder) = 0
    · rw [hcast, hzero, zero_mul, zero_pow (by decide)]
    · calc (root : ZMod fieldOrder) ^ 2
          = (y : ZMod fieldOrder) ^ (fieldOrder - 1) * (y : ZMod fieldOrder) ^ 2 := by
            rw [hcast, ← sq, ← pow_mul, ← pow_mul, ← pow_add]
            congr 1
        _ = (y : ZMod fieldOrder) ^ 2 := by rw [ZMod.pow_card_sub_one_eq_one hzero, one_mul]
  refine ⟨hroot, ?_⟩
  rcases sq_eq_sq_iff_eq_or_eq_neg.mp hsquare with hsame | hopposite
  · left
    have hmod := (ZMod.natCast_eq_natCast_iff' _ _ _).mp hsame
    rwa [Nat.mod_eq_of_lt hroot, Nat.mod_eq_of_lt hy] at hmod
  · have hsum : ((root + y : Nat) : ZMod fieldOrder) = 0 := by
      rw [Nat.cast_add, hopposite, neg_add_cancel]
    have hdvd := (ZMod.natCast_eq_zero_iff _ _).mp hsum
    obtain ⟨k, hk⟩ := hdvd
    have hfew : k < 2 := by
      by_contra hmany
      have hle : fieldOrder * 2 ≤ fieldOrder * k := Nat.mul_le_mul_left _ (by omega)
      omega
    interval_cases k
    · left
      omega
    · right
      rw [hk, Nat.mul_one]

end ChatRelay.Curve
