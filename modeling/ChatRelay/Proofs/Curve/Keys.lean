import ChatRelay.Curve.Key
import ChatRelay.Proofs.Curve.Field
import ChatRelay.Proofs.Octets

/-!
# Reading back keys

A point is determined by its abscissa and the parity of its ordinate, for the two ordinates that an
abscissa may have add up to the odd order of the field. So a compressed key is read as the key that
it was written for, and so is the abscissa of a key with an even ordinate.
-/

namespace ChatRelay

namespace Curve.Point

theorem ofCoordinates?_self (point : Point) : ofCoordinates? point.x point.y = some point :=
  dif_pos ⟨point.x_lt, point.y_lt, point.onCurve⟩

/-- A point is found from its abscissa and the parity of its ordinate. -/
theorem lift?_self (point : Point) : lift? point.x (point.y % 2 == 1) = some point := by
  obtain ⟨-, hroot⟩ := powMod_square point.y_lt
  have hodd : fieldOrder % 2 = 1 := by decide
  unfold lift?
  rw [← point.onCurve]
  dsimp only
  generalize powMod fieldOrder (point.y * point.y % fieldOrder) ((fieldOrder + 1) / 4) = root
    at hroot ⊢
  rcases hroot with rfl | hopposite
  · rw [if_pos (beq_self_eq_true _)]
    exact point.ofCoordinates?_self
  · have hlt := point.y_lt
    -- the order is odd, so one of the two is odd and the other is even
    have hother : fieldOrder - root = point.y := by omega
    have hparity : ((root % 2 == 1) == (point.y % 2 == 1)) = false := by
      rcases Nat.mod_two_eq_zero_or_one point.y with heven | hodd'
      · have hroot : root % 2 = 1 := by omega
        rw [heven, hroot]
        rfl
      · have hroot : root % 2 = 0 := by omega
        rw [hodd', hroot]
        rfl
    rw [hparity, if_neg Bool.false_ne_true, hother]
    exact point.ofCoordinates?_self

theorem toNat_x (point : Point) : Bytes.toNat (Bytes.ofNat 32 point.x) = point.x := by
  rw [Bytes.toNat_ofNat, Nat.mod_eq_of_lt]
  exact Nat.lt_trans point.x_lt (by decide)

end Curve.Point

@[simp] theorem PublicKey.length_compressed (key : PublicKey) : key.compressed.length = 33 := by
  simp [compressed]

/-- A compressed key is read as the key. -/
@[simp] theorem PublicKey.ofBytes?_compressed (key : PublicKey) :
    ofBytes? key.compressed = some key := by
  have htake : (Bytes.ofNat 32 key.x).take 32 = Bytes.ofNat 32 key.x :=
    List.take_of_length_le (by simp)
  have hlift := Curve.Point.lift?_self key
  rcases Nat.mod_two_eq_zero_or_one key.y with heven | hodd
  · rw [heven] at hlift
    simpa [compressed, ofBytes?, heven, htake, key.toNat_x] using hlift
  · rw [hodd] at hlift
    simpa [compressed, ofBytes?, hodd, htake, key.toNat_x] using hlift

/-- The abscissa of a key with an even ordinate leads to the key. -/
theorem XOnlyKey.ofNat?_x (key : XOnlyKey) : ofNat? key.point.x = some key := by
  have hlift := key.point.lift?_self
  rw [key.even] at hlift
  simp only [show ((0 : Nat) == 1) = false from rfl] at hlift
  rw [ofNat?, hlift]
  exact dif_pos key.even

@[simp] theorem XOnlyKey.ofBytes?_toBytes (key : XOnlyKey) : ofBytes? key.toBytes = some key := by
  have hlength : key.toBytes.length = 32 := Bytes.length_ofNat 32 _
  rw [ofBytes?, if_pos hlength, toBytes, key.point.toNat_x, key.ofNat?_x]

end ChatRelay
