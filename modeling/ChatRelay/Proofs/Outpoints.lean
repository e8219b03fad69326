import ChatRelay.Proofs.Hexadecimal

/-!
# Outpoints in text

The text of an outpoint is sixty-four digits for its identifier, a colon and a decimal numeral. What
is read as an outpoint is spelled like that, up to the case of the digits and to a plus sign and
zeros before the index. A fault of the numeral is reported before one of the identifier.
-/

namespace ChatRelay

/-! ## Numerals -/

namespace Numeral

/-- A numeral of a number: decimal digits that may begin with zeros, behind a plus sign or none. -/
def Writes (numeral : List Char) (n : Nat) : Prop :=
  ∃ digits, (numeral = digits ∨ numeral = '+' :: digits) ∧ digits ≠ [] ∧
    (∀ c ∈ digits, c.isDigit) ∧ n = Nat.ofDigitChars 10 digits 0

theorem digit?_of_isDigit {c : Char} (h : c.isDigit) : digit? c = some (c.toNat - '0'.toNat) :=
  if_pos (by simpa [Char.isDigit, Char.le_def] using h)

theorem digit?_of_not_isDigit {c : Char} (h : ¬ c.isDigit) : digit? c = none :=
  if_neg (by simpa [Char.isDigit, Char.le_def] using h)

theorem le_ofDigitChars (digits : List Char) (n : Nat) : n ≤ Nat.ofDigitChars 10 digits n := by
  induction digits generalizing n with
  | nil => simp
  | cons c rest ih =>
      rw [Nat.ofDigitChars_cons]
      exact Nat.le_trans (by omega) (ih _)

/-- Reading stops at the first character that is no digit, and where the number gets too large. -/
theorem readDigits_eq_ok {bound value n : Nat} {digits : List Char} (hvalue : value ≤ bound) :
    readDigits bound value digits = .ok n ↔
      (∀ c ∈ digits, c.isDigit) ∧ n = Nat.ofDigitChars 10 digits value ∧ n ≤ bound := by
  induction digits generalizing value with
  | nil =>
      simp only [readDigits, Except.ok.injEq, List.not_mem_nil, false_implies, implies_true,
        Nat.ofDigitChars_nil, true_and]
      omega
  | cons c rest ih =>
      rw [readDigits, List.forall_mem_cons, Nat.ofDigitChars_cons]
      by_cases hdigit : c.isDigit
      · simp only [digit?_of_isDigit hdigit, hdigit, true_and]
        split
        next hfits => exact ih hfits
        next hlarge =>
          refine ⟨nofun, fun ⟨_, hn, hle⟩ => ?_⟩
          have hgrows := le_ofDigitChars rest (10 * value + (c.toNat - '0'.toNat))
          omega
      · simp [digit?_of_not_isDigit hdigit, hdigit]

theorem writes_plus {digits : List Char} {n : Nat} : Writes ('+' :: digits) n ↔
    digits ≠ [] ∧ (∀ c ∈ digits, c.isDigit) ∧ n = Nat.ofDigitChars 10 digits 0 := by
  constructor
  · rintro ⟨whole, hsign | hsign, hne, hdigits, hn⟩
    · have hplus : ('+').isDigit := hdigits '+' (hsign ▸ List.mem_cons_self)
      exact absurd hplus (by decide)
    · obtain rfl := List.tail_eq_of_cons_eq hsign
      exact ⟨hne, hdigits, hn⟩
  · rintro ⟨hne, hdigits, hn⟩
    exact ⟨digits, .inr rfl, hne, hdigits, hn⟩

theorem writes_plain {digits : List Char} {n : Nat} (hplain : ∀ rest, digits ≠ '+' :: rest) :
    Writes digits n ↔
      digits ≠ [] ∧ (∀ c ∈ digits, c.isDigit) ∧ n = Nat.ofDigitChars 10 digits 0 := by
  constructor
  · rintro ⟨whole, rfl | hsign, hne, hdigits, hn⟩
    · exact ⟨hne, hdigits, hn⟩
    · exact absurd hsign (hplain whole)
  · rintro ⟨hne, hdigits, hn⟩
    exact ⟨digits, .inl rfl, hne, hdigits, hn⟩

/-- What is read are the numerals of the numbers up to the bound. -/
theorem read_eq_ok {bound n : Nat} {numeral : List Char} :
    read bound numeral = .ok n ↔ Writes numeral n ∧ n ≤ bound := by
  fun_cases read bound numeral with
  | case1 => simp [Writes]
  | case2 => simp [writes_plus]
  | case3 digits hne =>
      rw [readDigits_eq_ok (Nat.zero_le bound), writes_plus, and_assoc, and_assoc]
      exact (and_iff_right hne).symm
  | case4 _ hne _ hplain =>
      rw [readDigits_eq_ok (Nat.zero_le bound), writes_plain hplain, and_assoc, and_assoc]
      exact (and_iff_right hne).symm

theorem Writes.unique {numeral : List Char} {m n : Nat} (hm : Writes numeral m)
    (hn : Writes numeral n) : m = n := by
  have hread := read_eq_ok.mpr ⟨hm, Nat.le_max_left m n⟩
  exact Except.ok.inj (hread.symm.trans (read_eq_ok.mpr ⟨hn, Nat.le_max_right m n⟩))

/-- A number is read from how it is shown. -/
theorem writes_toString (n : Nat) : Writes (toString n).toList n := by
  rw [Nat.toString_eq_repr, Nat.toList_repr]
  refine ⟨Nat.toDigits 10 n, .inl rfl, Nat.toDigits_ne_nil, fun c hc => ?_, ?_⟩
  · exact Nat.isDigit_of_mem_toDigits (by decide) (by decide) hc
  · exact Nat.ofDigitChars_ten_toDigits.symm

/-- A numeral holds no colon. -/
theorem Writes.not_mem {numeral : List Char} {n : Nat} (h : Writes numeral n) : ':' ∉ numeral := by
  obtain ⟨digits, hsign, -, hdigits, -⟩ := h
  intro hmem
  have hcolon : ':' ∈ digits := by
    rcases hsign with rfl | rfl
    · exact hmem
    · exact (List.mem_cons.mp hmem).resolve_left (by decide)
  exact absurd (hdigits ':' hcolon) (by decide)

end Numeral

/-! ## Texts -/

namespace Outpoint

theorem splitAtLast_eq_none {separator : Char} {text : List Char} :
    splitAtLast separator text = none ↔ separator ∉ text := by
  induction text with
  | nil => simp [splitAtLast]
  | cons c rest ih =>
      rw [splitAtLast, List.mem_cons, not_or, ← ih, eq_comm (a := separator)]
      cases splitAtLast separator rest with
      | some parts => simp
      | none => by_cases hc : c = separator <;> simp [hc]

/-- A text is split where no separator is left behind. -/
theorem splitAtLast_eq_some {separator : Char} {text before behind : List Char} :
    splitAtLast separator text = some (before, behind) ↔
      text = before ++ separator :: behind ∧ separator ∉ behind := by
  induction text generalizing before with
  | nil => simp [splitAtLast]
  | cons c rest ih =>
      rw [splitAtLast]
      constructor
      · intro h
        split at h
        next first last hrest =>
          obtain ⟨rfl, rfl⟩ := Prod.mk.inj (Option.some.inj h)
          obtain ⟨rfl, hlast⟩ := ih.mp hrest
          exact ⟨rfl, hlast⟩
        next hrest =>
          split at h
          next hc =>
            obtain ⟨rfl, rfl⟩ := Prod.mk.inj (Option.some.inj h)
            exact ⟨congrArg (· :: rest) hc, splitAtLast_eq_none.mp hrest⟩
          next => cases h
      · rintro ⟨htext, hlast⟩
        cases before with
        | nil =>
            obtain ⟨rfl, rfl⟩ := List.cons.inj htext
            rw [splitAtLast_eq_none.mpr hlast]
            exact if_pos rfl
        | cons first before =>
            obtain ⟨rfl, hrest⟩ := List.cons.inj htext
            rw [ih.mpr ⟨hrest, hlast⟩]

theorem exists_split {separator : Char} {text : List Char} (h : separator ∈ text) :
    ∃ before behind, text = before ++ separator :: behind ∧ separator ∉ behind := by
  cases hsplit : splitAtLast separator text with
  | none => exact absurd h (splitAtLast_eq_none.mp hsplit)
  | some parts => exact ⟨parts.1, parts.2, splitAtLast_eq_some.mp hsplit⟩

/-- Whether the characters show an identifier. -/
def ShowsTxid (digits : List Char) : Prop := digits.length = 64 ∧ ∀ c ∈ digits, c ∈ Hex.digits

/-- Whether the characters are a numeral of an index. -/
def ShowsIndex (numeral : List Char) : Prop := ∃ n < UInt32.size, Numeral.Writes numeral n

/-- How the text of an outpoint is spelled: the digits write the identifier's octets, of which the
last one comes first. -/
structure Spelled (text : String) (o : Outpoint) (digits numeral : List Char) : Prop where
  parts : text.toList = digits ++ ':' :: numeral
  shown : ShowsTxid digits
  txid : o.txid.toList.reverse = Hex.octets digits
  index : Numeral.Writes numeral o.index.toNat

theorem ofDisplayTxid_eq_ok {txid : String} {index : UInt32} {o : Outpoint} :
    ofDisplayTxid txid index = .ok o ↔ ShowsTxid txid.toList ∧
      o.txid.toList.reverse = Hex.octets txid.toList ∧ o.index = index := by
  unfold ofDisplayTxid ShowsTxid
  constructor
  · intro h
    cases hread : Hex.decodeFixed 32 txid with
    | error cause =>
        rw [hread] at h
        cases h
    | ok shown =>
        rw [hread] at h
        obtain rfl := Except.ok.inj h
        obtain ⟨hlength, hdigits, hoctets⟩ := Hex.decodeFixed_eq_ok.mp hread
        exact ⟨⟨hlength, hdigits⟩, (List.reverse_reverse _).trans hoctets, rfl⟩
  · rintro ⟨⟨hlength, hdigits⟩, hoctets, rfl⟩
    have hread : Hex.decodeFixed 32 txid = .ok o.txid.reverse :=
      Hex.decodeFixed_eq_ok.mpr ⟨hlength, hdigits, hoctets⟩
    have hback : o.txid.reverse.reverse = o.txid := FixedBytes.ext (List.reverse_reverse _)
    rw [hread, Except.map, hback]

/-- The identifier and the index that an outpoint shows are those it is read from. -/
@[simp] theorem ofDisplayTxid_displayTxid (o : Outpoint) :
    ofDisplayTxid o.displayTxid o.index = .ok o := by
  refine ofDisplayTxid_eq_ok.mpr ⟨⟨?_, Hex.forall_mem_encode _⟩, (Hex.octets_encode _).symm, rfl⟩
  rw [displayTxid, Hex.length_encode, o.txid.reverse.length_toList]

/-- A shown identifier is read with any index. -/
theorem exists_ofDisplayTxid {txid : String} (h : ShowsTxid txid.toList) (index : UInt32) :
    ∃ o, ofDisplayTxid txid index = .ok o := by
  obtain ⟨shown, hread, -⟩ := Hex.decodeFixed_digits (n := 32) h.1 h.2
  exact ⟨⟨shown.reverse, index⟩, by rw [ofDisplayTxid, hread]; rfl⟩

section

variable {text : String} {o : Outpoint} {before digits numeral behind : List Char}

/-- A text with a colon is read from what stands before and behind the last one. -/
theorem parse_of_split (hparts : text.toList = before ++ ':' :: behind) (hlast : ':' ∉ behind) :
    parse text = match Numeral.read (UInt32.size - 1) behind with
      | .error cause => .error (.index cause)
      | .ok n => (ofDisplayTxid (String.ofList before) (UInt32.ofNat n)).mapError .txid := by
  have hsplit := splitAtLast_eq_some.mpr ⟨hparts, hlast⟩
  cases hread : Numeral.read (UInt32.size - 1) behind <;> simp only [parse, hsplit, hread]

theorem read_index_eq_ok {n : Nat} : Numeral.read (UInt32.size - 1) behind = .ok n ↔
    Numeral.Writes behind n ∧ n < UInt32.size := by
  rw [Numeral.read_eq_ok, Nat.le_sub_one_iff_lt (by decide)]

theorem read_index_eq_error :
    (∃ cause, Numeral.read (UInt32.size - 1) behind = .error cause) ↔ ¬ ShowsIndex behind := by
  cases hread : Numeral.read (UInt32.size - 1) behind with
  | ok n =>
      obtain ⟨hwrites, hlt⟩ := read_index_eq_ok.mp hread
      simpa using ⟨n, hlt, hwrites⟩
  | error cause =>
      refine iff_of_true ⟨cause, rfl⟩ fun ⟨n, hlt, hwrites⟩ => ?_
      cases hread.symm.trans (read_index_eq_ok.mpr ⟨hwrites, hlt⟩)

theorem Spelled.unique {o' : Outpoint} (h : Spelled text o digits numeral)
    (h' : Spelled text o' digits numeral) : o = o' := by
  have htxid : o.txid = o'.txid :=
    FixedBytes.ext (List.reverse_inj.mp (h.txid.trans h'.txid.symm))
  have hindex : o.index = o'.index := UInt32.toNat_inj.mp (h.index.unique h'.index)
  cases o
  cases o'
  exact Outpoint.mk.injEq .. ▸ ⟨htxid, hindex⟩

/-- What becomes of a text with a colon: the index is judged first, then the identifier. -/
theorem parse_cases (hparts : text.toList = before ++ ':' :: behind) (hlast : ':' ∉ behind) :
    (¬ ShowsIndex behind ∧ ∃ cause, parse text = .error (.index cause)) ∨
      (ShowsIndex behind ∧ ¬ ShowsTxid before ∧ ∃ cause, parse text = .error (.txid cause)) ∨
      ∃ o, parse text = .ok o ∧ Spelled text o before behind := by
  rw [parse_of_split hparts hlast]
  cases hread : Numeral.read (UInt32.size - 1) behind with
  | error cause => exact .inl ⟨read_index_eq_error.mp ⟨cause, hread⟩, cause, rfl⟩
  | ok n =>
      obtain ⟨hwrites, hlt⟩ := read_index_eq_ok.mp hread
      refine .inr ?_
      dsimp only
      cases hshown : ofDisplayTxid (String.ofList before) (UInt32.ofNat n) with
      | error cause =>
          refine .inl ⟨⟨n, hlt, hwrites⟩, fun h => ?_, cause, rfl⟩
          rw [← String.toList_ofList (l := before)] at h
          obtain ⟨o, ho⟩ := exists_ofDisplayTxid h (UInt32.ofNat n)
          cases hshown.symm.trans ho
      | ok o =>
          obtain ⟨hdigits, htxid, hindex⟩ := ofDisplayTxid_eq_ok.mp hshown
          rw [String.toList_ofList] at hdigits htxid
          refine .inr ⟨o, rfl, hparts, hdigits, htxid, ?_⟩
          rwa [hindex, UInt32.toNat_ofNat_of_lt' hlt]

theorem Spelled.showsIndex (h : Spelled text o digits numeral) : ShowsIndex numeral :=
  ⟨o.index.toNat, o.index.toNat_lt_size, h.index⟩

theorem Spelled.parse_eq (h : Spelled text o digits numeral) : parse text = .ok o := by
  rcases parse_cases h.parts h.index.not_mem with ⟨hindex, -⟩ | ⟨-, htxid, -⟩ | ⟨o', ho, h'⟩
  · exact absurd h.showsIndex hindex
  · exact absurd h.shown htxid
  · rw [ho, h.unique h']

theorem parse_eq_missingSeparator :
    parse text = .error .missingSeparator ↔ ':' ∉ text.toList := by
  constructor
  · intro h hcolon
    obtain ⟨before, behind, hparts, hlast⟩ := exists_split hcolon
    rcases parse_cases hparts hlast with ⟨-, cause, h'⟩ | ⟨-, -, cause, h'⟩ | ⟨o, h', -⟩ <;>
      cases h.symm.trans h'
  · intro h
    rw [parse, splitAtLast_eq_none.mpr h]

theorem parse_eq_ok : parse text = .ok o ↔ ∃ digits numeral, Spelled text o digits numeral := by
  refine ⟨fun h => ?_, fun ⟨digits, numeral, hspelled⟩ => hspelled.parse_eq⟩
  by_cases hcolon : ':' ∈ text.toList
  · obtain ⟨before, behind, hparts, hlast⟩ := exists_split hcolon
    rcases parse_cases hparts hlast with ⟨-, cause, h'⟩ | ⟨-, -, cause, h'⟩ | ⟨o', h', hspelled⟩
    · cases h.symm.trans h'
    · cases h.symm.trans h'
    · obtain rfl := Except.ok.inj (h.symm.trans h')
      exact ⟨before, behind, hspelled⟩
  · cases h.symm.trans (parse_eq_missingSeparator.mpr hcolon)

theorem exists_parse : (∃ o, parse text = .ok o) ↔ ∃ digits numeral,
    text.toList = digits ++ ':' :: numeral ∧ ShowsTxid digits ∧ ShowsIndex numeral := by
  constructor
  · rintro ⟨o, h⟩
    obtain ⟨digits, numeral, hspelled⟩ := parse_eq_ok.mp h
    exact ⟨digits, numeral, hspelled.parts, hspelled.shown, hspelled.showsIndex⟩
  · rintro ⟨digits, numeral, hparts, htxid, hindex⟩
    have hlast : ':' ∉ numeral := hindex.elim fun n h => h.2.not_mem
    rcases parse_cases hparts hlast with ⟨h, -⟩ | ⟨-, h, -⟩ | ⟨o, ho, -⟩
    · exact absurd hindex h
    · exact absurd htxid h
    · exact ⟨o, ho⟩

theorem parse_eq_index : (∃ cause, parse text = .error (.index cause)) ↔ ∃ before behind,
    text.toList = before ++ ':' :: behind ∧ ':' ∉ behind ∧ ¬ ShowsIndex behind := by
  constructor
  · rintro ⟨cause, h⟩
    by_cases hcolon : ':' ∈ text.toList
    · obtain ⟨before, behind, hparts, hlast⟩ := exists_split hcolon
      rcases parse_cases hparts hlast with ⟨hindex, -⟩ | ⟨-, -, cause', h'⟩ | ⟨o, h', -⟩
      · exact ⟨before, behind, hparts, hlast, hindex⟩
      · cases h.symm.trans h'
      · cases h.symm.trans h'
    · cases h.symm.trans (parse_eq_missingSeparator.mpr hcolon)
  · rintro ⟨before, behind, hparts, hlast, hindex⟩
    rcases parse_cases hparts hlast with ⟨-, hfault⟩ | ⟨h, -⟩ | ⟨o, -, h⟩
    · exact hfault
    · exact absurd h hindex
    · exact absurd h.showsIndex hindex

theorem parse_eq_txid : (∃ cause, parse text = .error (.txid cause)) ↔ ∃ before behind,
    text.toList = before ++ ':' :: behind ∧ ':' ∉ behind ∧ ShowsIndex behind ∧
      ¬ ShowsTxid before := by
  constructor
  · rintro ⟨cause, h⟩
    by_cases hcolon : ':' ∈ text.toList
    · obtain ⟨before, behind, hparts, hlast⟩ := exists_split hcolon
      rcases parse_cases hparts hlast with ⟨-, cause', h'⟩ | ⟨hindex, htxid, -⟩ | ⟨o, h', -⟩
      · cases h.symm.trans h'
      · exact ⟨before, behind, hparts, hlast, hindex, htxid⟩
      · cases h.symm.trans h'
    · cases h.symm.trans (parse_eq_missingSeparator.mpr hcolon)
  · rintro ⟨before, behind, hparts, hlast, hindex, htxid⟩
    rcases parse_cases hparts hlast with ⟨h, -⟩ | ⟨-, -, hfault⟩ | ⟨o, -, h⟩
    · exact absurd hindex h
    · exact hfault
    · exact absurd h.shown htxid

/-- An outpoint's own text is spelled as it should be. -/
theorem spelled_display (o : Outpoint) :
    Spelled o.display o o.displayTxid.toList (toString o.index.toNat).toList where
  parts := by simp [Outpoint.display]
  shown := ⟨by rw [displayTxid, Hex.length_encode, o.txid.reverse.length_toList],
    Hex.forall_mem_encode _⟩
  txid := (Hex.octets_encode _).symm
  index := Numeral.writes_toString _

/-- What is read from a text is shown by the same digits in lower case and the plain index. -/
theorem Spelled.display_eq (h : Spelled text o digits numeral) : o.display =
    String.ofList (digits.map Char.toLower) ++ ":" ++ toString o.index.toNat := by
  have hshown : o.displayTxid = String.ofList (digits.map Char.toLower) := by
    rw [← Hex.encode_octets (by rw [h.shown.1]) h.shown.2, ← h.txid]
    rfl
  rw [Outpoint.display, hshown]

end

/-- An outpoint is read from its text. A text is read exactly if it is an identifier, a colon and an
index, as the outpoint that is spelled so, whose text then has the same digits in lower case and the
plain index. Else there is no colon, or what stands behind the last colon is no index, or else what
stands before it is no identifier, and that is the fault reported. -/
theorem parse_spelled : (∀ o : Outpoint, parse o.display = .ok o) ∧ ∀ text : String,
    ((∃ o, parse text = .ok o) ↔ ∃ digits numeral,
        text.toList = digits ++ ':' :: numeral ∧ ShowsTxid digits ∧ ShowsIndex numeral) ∧
      (∀ o, parse text = .ok o ↔ ∃ digits numeral, Spelled text o digits numeral) ∧
      (∀ o digits numeral, Spelled text o digits numeral → o.display =
        String.ofList (digits.map Char.toLower) ++ ":" ++ toString o.index.toNat) ∧
      (parse text = .error .missingSeparator ↔ ':' ∉ text.toList) ∧
      ((∃ cause, parse text = .error (.index cause)) ↔ ∃ before behind,
        text.toList = before ++ ':' :: behind ∧ ':' ∉ behind ∧ ¬ ShowsIndex behind) ∧
      ((∃ cause, parse text = .error (.txid cause)) ↔ ∃ before behind,
        text.toList = before ++ ':' :: behind ∧ ':' ∉ behind ∧ ShowsIndex behind ∧
          ¬ ShowsTxid before) := by
  refine ⟨fun o => (spelled_display o).parse_eq, fun text => ?_⟩
  exact ⟨exists_parse, fun o => parse_eq_ok, fun o digits numeral => Spelled.display_eq,
    parse_eq_missingSeparator, parse_eq_index, parse_eq_txid⟩

/-- Digits of both cases. -/
def mixedDigits : List Char := (List.replicate 32 ['A', 'b']).flatten

theorem spelled_mixed : Spelled (String.ofList (mixedDigits ++ ':' :: "+007".toList))
    ⟨.replicate 32 0xab, 7⟩ mixedDigits "+007".toList where
  parts := String.toList_ofList
  shown := by
    have hall : mixedDigits.all fun c => c ∈ Hex.digits := by decide
    exact ⟨by decide, fun c hc => of_decide_eq_true (List.all_eq_true.mp hall c hc)⟩
  txid := by decide
  index := ⟨"007".toList, .inr rfl, by decide, List.all_eq_true.mp (by decide), by decide⟩

theorem parse_spelled_mixed :
    let text := String.ofList (mixedDigits ++ ':' :: "+007".toList)
    let o : Outpoint := ⟨.replicate 32 0xab, 7⟩
    Spelled text o mixedDigits "+007".toList ∧ parse text = .ok o ∧
      o.display = String.ofList (mixedDigits.map Char.toLower) ++ ":" ++ "7" :=
  ⟨spelled_mixed, ((parse_spelled.2 _).2.1 _).mpr ⟨_, _, spelled_mixed⟩,
    (parse_spelled.2 _).2.2.1 _ _ _ spelled_mixed⟩

end Outpoint

end ChatRelay
