import ChatRelay.Proofs.Octets

/-!
# Reading hexadecimal text

Each octet is written in two digits that have the values of its halves, and a digit is a single
octet of the text. So the octets that a text is read as are the ones it was written for. What is
read besides are the same digits in upper case, and nothing else: beyond the first block a
character's octets are no digits.
-/

namespace ChatRelay

theorem Bytes.ofText_ofList (text : List Char) :
    Bytes.ofText (String.ofList text) = text.flatMap String.utf8EncodeChar := by
  simp [Bytes.ofText, String.ofList, List.utf8Encode]

/-- A text of characters of the first block has one octet for each. -/
theorem Bytes.ofText_ascii {text : List Char} (h : ∀ c ∈ text, c.toNat ≤ 127) :
    Bytes.ofText (String.ofList text) = text.map fun c => UInt8.ofNat c.toNat := by
  rw [Bytes.ofText_ofList]
  induction text with
  | nil => rfl
  | cons first rest ih =>
      obtain ⟨hfirst, hrest⟩ := List.forall_mem_cons.mp h
      have hsingle : String.utf8EncodeChar first = [UInt8.ofNat first.toNat] := if_pos hfirst
      rw [List.flatMap_cons, hsingle, ih hrest]
      rfl

namespace Hex

theorem digit_le {n : Nat} (h : n < 16) : (digit n).toNat ≤ 127 := by
  decide +revert

theorem value?_digit {n : Nat} (h : n < 16) : value? (UInt8.ofNat (digit n).toNat) = some n := by
  decide +revert

/-- The octets of the two digits for an octet. -/
def pair (b : UInt8) : Bytes :=
  [UInt8.ofNat (digit (b.toNat / 16)).toNat, UInt8.ofNat (digit (b.toNat % 16)).toNat]

theorem ofText_encode (bytes : Bytes) : Bytes.ofText (encode bytes) = bytes.flatMap pair := by
  unfold encode
  rw [Bytes.ofText_ascii]
  · rw [List.map_flatMap]
    rfl
  · intro c hc
    obtain ⟨b, -, hdigit⟩ := List.mem_flatMap.mp hc
    have hlt := b.toNat_lt
    rcases List.mem_cons.mp hdigit with rfl | hdigit
    · exact digit_le (by omega)
    · rw [List.mem_singleton.mp hdigit]
      exact digit_le (by omega)

theorem decodePairs_pair {position : Nat} {read : Bytes} (b : UInt8) (rest : Bytes) :
    decodePairs position read (pair b ++ rest) = decodePairs (position + 2) (b :: read) rest := by
  have hlt := b.toNat_lt
  have hjoin : UInt8.ofNat (16 * (b.toNat / 16) + b.toNat % 16) = b := by
    rw [Nat.div_add_mod, UInt8.ofNat_toNat]
  simp only [pair, List.cons_append, List.nil_append, decodePairs,
    value?_digit (show b.toNat / 16 < 16 by omega), value?_digit (show b.toNat % 16 < 16 by omega),
    hjoin]

theorem decodePairs_flatMap {position : Nat} {read : Bytes} (bytes : Bytes) :
    decodePairs position read (bytes.flatMap pair) = .ok (read.reverse ++ bytes) := by
  induction bytes generalizing position read with
  | nil =>
      rw [List.append_nil]
      rfl
  | cons first rest ih =>
      rw [List.flatMap_cons, decodePairs_pair, ih, List.reverse_cons, List.append_assoc]
      rfl

theorem length_flatMap_pair (bytes : Bytes) : (bytes.flatMap pair).length = 2 * bytes.length := by
  induction bytes with
  | nil => rfl
  | cons first rest ih =>
      rw [List.flatMap_cons, List.length_append, ih, List.length_cons]
      change 2 + 2 * rest.length = _
      omega

/-- What octets are written as is read as those octets. -/
@[simp] theorem decode_encode (bytes : Bytes) : decode (encode bytes) = .ok bytes := by
  have heven : ¬ (bytes.flatMap pair).length % 2 = 1 := by
    rw [length_flatMap_pair]
    omega
  simp only [decode, ofText_encode, heven, if_false]
  exact decodePairs_flatMap bytes

/-! ## Texts of digits -/

/-- The digits of either case. -/
def digits : List Char := "0123456789abcdefABCDEF".toList

/-- The value of a digit: its place among the lower-case ones. -/
def digitValue (c : Char) : Nat := "0123456789abcdef".toList.idxOf c.toLower

/-- The octets that pairs of digits write, the upper half of an octet first. -/
def octets : List Char → Bytes
  | [] | [_] => []
  | a :: b :: rest => UInt8.ofNat (16 * digitValue a + digitValue b) :: octets rest

/-- What holds of all digits is checked one by one. -/
theorem of_mem_digits {p : Char → Prop} [DecidablePred p] (hall : digits.all fun c => p c) {c : Char}
    (h : c ∈ digits) : p c := of_decide_eq_true (List.all_eq_true.mp hall c h)

theorem le_of_mem_digits {c : Char} (h : c ∈ digits) : c.toNat ≤ 127 :=
  of_mem_digits (p := fun c => c.toNat ≤ 127) (by decide) h

theorem value?_of_mem_digits {c : Char} (h : c ∈ digits) :
    value? (UInt8.ofNat c.toNat) = some (digitValue c) :=
  of_mem_digits (p := fun c => value? (UInt8.ofNat c.toNat) = some (digitValue c)) (by decide) h

theorem digitValue_lt {c : Char} (h : c ∈ digits) : digitValue c < 16 :=
  of_mem_digits (p := fun c => digitValue c < 16) (by decide) h

/-- A digit's value is written as the digit itself, in lower case. -/
theorem digit_digitValue {c : Char} (h : c ∈ digits) : digit (digitValue c) = c.toLower :=
  of_mem_digits (p := fun c => digit (digitValue c) = c.toLower) (by decide) h

theorem digit_mem {n : Nat} (h : n < 16) : digit n ∈ digits := by
  decide +revert

theorem digitValue_digit {n : Nat} (h : n < 16) : digitValue (digit n) = n := by
  decide +revert

/-- Only a digit's octet has a value. -/
theorem mem_digits_of_value? {c : Char} (hfirst : c.toNat ≤ 127)
    (h : (value? (UInt8.ofNat c.toNat)).isSome) : c ∈ digits := by
  have hall : ∀ n ≤ 127, (value? (UInt8.ofNat n)).isSome → Char.ofNat n ∈ digits := by
    decide +kernel
  have hmem := hall c.toNat hfirst h
  rwa [Char.ofNat_toNat] at hmem

/-- Beyond the first block each octet of a character has its highest bit set, and no value. -/
theorem value?_of_mem_utf8EncodeChar {c : Char} (hbeyond : 127 < c.toNat) {b : UInt8}
    (hb : b ∈ String.utf8EncodeChar c) : value? b = none := by
  have hhigh : 128 ≤ b.toNat := by
    unfold String.utf8EncodeChar at hb
    have hbeyond : ¬ c.val.toNat ≤ 127 := Nat.not_le_of_lt hbeyond
    dsimp only at hb
    rw [if_neg hbeyond] at hb
    split at hb
    · simp only [List.mem_cons, List.not_mem_nil, or_false] at hb
      rcases hb with rfl | rfl <;> rw [UInt8.toNat_ofNat'] <;> omega
    split at hb
    · simp only [List.mem_cons, List.not_mem_nil, or_false] at hb
      rcases hb with rfl | rfl | rfl <;> rw [UInt8.toNat_ofNat'] <;> omega
    · simp only [List.mem_cons, List.not_mem_nil, or_false] at hb
      rcases hb with rfl | rfl | rfl | rfl <;> rw [UInt8.toNat_ofNat'] <;> omega
  rw [value?, if_neg (by omega), if_neg (by omega), if_neg (by omega)]

/-- A text has only digits' octets exactly if it has only digits. -/
theorem forall_value?_ofText {text : List Char} :
    (∀ b ∈ Bytes.ofText (String.ofList text), (value? b).isSome) ↔ ∀ c ∈ text, c ∈ digits := by
  constructor
  · intro h c hc
    rw [Bytes.ofText_ofList] at h
    have hoctets (b : UInt8) (hb : b ∈ String.utf8EncodeChar c) : (value? b).isSome :=
      h b (List.mem_flatMap.mpr ⟨c, hc, hb⟩)
    by_cases hfirst : c.toNat ≤ 127
    · have hsingle : String.utf8EncodeChar c = [UInt8.ofNat c.toNat] := if_pos hfirst
      rw [hsingle] at hoctets
      exact mem_digits_of_value? hfirst (hoctets _ List.mem_cons_self)
    · obtain ⟨b, hb⟩ := List.exists_mem_of_ne_nil _ (String.utf8EncodeChar_ne_nil (c := c))
      have hsome := hoctets b hb
      rw [value?_of_mem_utf8EncodeChar (Nat.lt_of_not_le hfirst) hb] at hsome
      cases hsome
  · intro h b hb
    rw [Bytes.ofText_ascii fun c hc => le_of_mem_digits (h c hc)] at hb
    obtain ⟨c, hc, rfl⟩ := List.mem_map.mp hb
    rw [value?_of_mem_digits (h c hc)]
    rfl

theorem forall_value?_of_decodePairs {position : Nat} {read bytes result : Bytes}
    (h : decodePairs position read bytes = .ok result) : ∀ b ∈ bytes, (value? b).isSome := by
  fun_induction decodePairs position read bytes with
  | case1 => nofun
  | case2 => cases h
  | case3 => cases h
  | case4 => cases h
  | case5 position read a b rest x y ha hb ih =>
      simp only [List.forall_mem_cons, ha, hb, Option.isSome_some, true_and]
      exact ih h

theorem decodePairs_digits {position : Nat} {read : Bytes} {text : List Char}
    (heven : text.length % 2 = 0) (h : ∀ c ∈ text, c ∈ digits) :
    decodePairs position read (text.map fun c => UInt8.ofNat c.toNat) =
      .ok (read.reverse ++ octets text) := by
  fun_induction octets text generalizing position read with
  | case1 => simp [decodePairs]
  | case2 => cases heven
  | case3 a b rest ih =>
      simp only [List.forall_mem_cons] at h
      obtain ⟨ha, hb, hrest⟩ := h
      have heven : rest.length % 2 = 0 := by
        simp only [List.length_cons] at heven
        omega
      simp only [List.map_cons, decodePairs, value?_of_mem_digits ha, value?_of_mem_digits hb,
        ih heven hrest, List.reverse_cons, List.append_assoc, List.singleton_append]

@[simp] theorem length_octets (text : List Char) : (octets text).length = text.length / 2 := by
  fun_induction octets text with
  | case1 => rfl
  | case2 => exact (Nat.div_eq_of_lt (Nat.lt_succ_self 1)).symm
  | case3 a b rest ih =>
      simp only [List.length_cons, ih]
      omega

/-- What digits write is written in the same digits, in lower case. -/
theorem encode_octets {text : List Char} (heven : text.length % 2 = 0)
    (h : ∀ c ∈ text, c ∈ digits) :
    encode (octets text) = String.ofList (text.map Char.toLower) := by
  refine congrArg String.ofList ?_
  fun_induction octets text with
  | case1 => rfl
  | case2 => cases heven
  | case3 a b rest ih =>
      simp only [List.forall_mem_cons] at h
      obtain ⟨ha, hb, hrest⟩ := h
      have heven : rest.length % 2 = 0 := by
        simp only [List.length_cons] at heven
        omega
      have hlower := digitValue_lt hb
      have hupper := digitValue_lt ha
      have hoctet : (UInt8.ofNat (16 * digitValue a + digitValue b)).toNat =
          16 * digitValue a + digitValue b := by
        rw [UInt8.toNat_ofNat']
        omega
      rw [List.flatMap_cons, ih heven hrest, hoctet,
        show (16 * digitValue a + digitValue b) / 16 = digitValue a by omega,
        show (16 * digitValue a + digitValue b) % 16 = digitValue b by omega,
        digit_digitValue ha, digit_digitValue hb]
      rfl

theorem forall_mem_encode (bytes : Bytes) : ∀ c ∈ (encode bytes).toList, c ∈ digits := by
  intro c hc
  rw [encode, String.toList_ofList, List.mem_flatMap] at hc
  obtain ⟨b, -, hdigit⟩ := hc
  have hlt := b.toNat_lt
  rcases List.mem_cons.mp hdigit with rfl | hdigit
  · exact digit_mem (by omega)
  · rw [List.mem_singleton.mp hdigit]
    exact digit_mem (by omega)

/-- Octets are what the digits write that they are written in. -/
theorem octets_encode (bytes : Bytes) : octets (encode bytes).toList = bytes := by
  rw [encode, String.toList_ofList]
  induction bytes with
  | nil => rfl
  | cons b rest ih =>
      have hlt := b.toNat_lt
      rw [List.flatMap_cons, List.cons_append, List.cons_append, List.nil_append, octets, ih,
        digitValue_digit (by omega), digitValue_digit (by omega), Nat.div_add_mod,
        UInt8.ofNat_toNat]

theorem length_encode (bytes : Bytes) : (encode bytes).toList.length = 2 * bytes.length := by
  rw [encode, String.toList_ofList]
  induction bytes with
  | nil => rfl
  | cons b rest ih =>
      rw [List.flatMap_cons, List.length_append, ih, List.length_cons, List.length_cons,
        List.length_nil, List.length_cons]
      omega

theorem ofText_digits {text : String} (h : ∀ c ∈ text.toList, c ∈ digits) :
    Bytes.ofText text = text.toList.map fun c => UInt8.ofNat c.toNat := by
  rw [← Bytes.ofText_ascii fun c hc => le_of_mem_digits (h c hc), String.ofList_toList]

/-- Twice as many digits as octets are read as the octets they write. -/
theorem decodeFixed_digits {n : Nat} {text : String} (hlength : text.toList.length = 2 * n)
    (h : ∀ c ∈ text.toList, c ∈ digits) :
    ∃ fixed : FixedBytes n, decodeFixed n text = .ok fixed ∧
      fixed.toList = octets text.toList := by
  have hoctets : (octets text.toList).length = n := by
    rw [length_octets]
    omega
  have hpairs : decodePairs 0 [] (text.toList.map fun c => UInt8.ofNat c.toNat) =
      .ok (octets text.toList) := decodePairs_digits (by omega) h
  refine ⟨⟨octets text.toList, hoctets⟩, ?_, rfl⟩
  unfold decodeFixed
  dsimp only
  rw [ofText_digits h, List.length_map, if_neg (by omega), if_neg (by omega), hpairs]
  have hfixed : FixedBytes.ofList? n (octets text.toList) = some ⟨octets text.toList, hoctets⟩ :=
    dif_pos hoctets
  simp only [bind, Except.bind, hfixed]

theorem digits_of_decodeFixed {n : Nat} {text : String} {fixed : FixedBytes n}
    (h : decodeFixed n text = .ok fixed) :
    text.toList.length = 2 * n ∧ ∀ c ∈ text.toList, c ∈ digits := by
  unfold decodeFixed at h
  dsimp only at h
  split at h
  · cases h
  split at h
  · cases h
  next hodd hlength =>
    obtain ⟨bytes, hpairs⟩ : ∃ bytes, decodePairs 0 [] (Bytes.ofText text) = .ok bytes := by
      cases hpairs : decodePairs 0 [] (Bytes.ofText text) with
      | error cause =>
          rw [hpairs] at h
          cases h
      | ok bytes => exact ⟨bytes, rfl⟩
    have hdigits : ∀ c ∈ text.toList, c ∈ digits := by
      rw [← forall_value?_ofText, String.ofList_toList]
      exact forall_value?_of_decodePairs hpairs
    rw [ofText_digits hdigits, List.length_map] at hodd hlength
    exact ⟨by omega, hdigits⟩

/-- A text is read as `n` octets exactly if it has twice as many characters, all of them digits,
which write these octets. -/
theorem decodeFixed_eq_ok {n : Nat} {text : String} {fixed : FixedBytes n} :
    decodeFixed n text = .ok fixed ↔ text.toList.length = 2 * n ∧
      (∀ c ∈ text.toList, c ∈ digits) ∧ fixed.toList = octets text.toList := by
  constructor
  · intro h
    obtain ⟨hlength, hdigits⟩ := digits_of_decodeFixed h
    obtain ⟨read, hread, hoctets⟩ := decodeFixed_digits hlength hdigits
    obtain rfl := Except.ok.inj (hread.symm.trans h)
    exact ⟨hlength, hdigits, hoctets⟩
  · rintro ⟨hlength, hdigits, hoctets⟩
    obtain ⟨read, hread, hsame⟩ := decodeFixed_digits hlength hdigits
    rw [hread, FixedBytes.ext (hsame.trans hoctets.symm)]

end Hex

end ChatRelay
