import ChatRelay.Proofs.Wire.Streams

/-!
# Only what is written is read

Reading the octets of a stream gives frames whose written forms, one after the other, are what has
been consumed. It stops where the stream ends between two frames, or at a rest that begins with no
tag, with a length that no delivery may have, or with a part of a frame. Which of these it is
decides the failure.
-/

namespace ChatRelay

/-- The stream ended where more was needed. -/
def WireError.InputEnded : WireError → Prop
  | .endedInLength | .endedInBody => True
  | _ => False

/-- The failure of a stream that ends behind the octets, unless they begin with a whole item. -/
def Progress.failure? {α : Type} : Progress α → Option WireError
  | .complete _ _ => none
  | .incomplete shortage => shortage.failure?
  | .refused cause => some cause

namespace Frame

variable {bound count length : Nat} {bytes rest : Bytes} {frame : Frame} {progress : Progress Frame}
  {cause : WireError}

/-! ## One frame -/

/-- Octets that begin with a delivery of a length that no delivery may have. -/
def Announces (bound length : Nat) (bytes : Bytes) : Prop :=
  (length = 0 ∨ bound < length) ∧ length < UInt32.size ∧
    ∃ rest, bytes = 3 :: Bytes.ofNatLittle 4 length ++ rest

/-- Octets with which the written form of a frame begins and does not end. -/
def Cut (bytes : Bytes) : Prop :=
  bytes ≠ [] ∧ ∃ (frame : Frame) (more : Bytes), more ≠ [] ∧ frame.serialize = .ok (bytes ++ more)

/-- What octets begin with, by tag and by how much of the frame is there. -/
inductive Begins (bound : Nat) : Bytes → Progress Frame → Prop
  | nothing : Begins bound [] (.incomplete .item)
  | unknown {tag : UInt8} {rest : Bytes} (htag : tag ∉ [1, 2, 3]) :
      Begins bound (tag :: rest) (.refused (.unknownTag tag))
  | invLength {rest : Bytes} (hshort : rest.length < 2) :
      Begins bound (1 :: rest) (.incomplete .length)
  | invBody {count : Nat} {rest : Bytes} (hcount : count < UInt16.size)
      (hshort : rest.length < 36 * count) :
      Begins bound (1 :: Bytes.ofNatLittle 2 count ++ rest) (.incomplete .body)
  | inv {outpoints : List Outpoint} {rest : Bytes} (hcount : outpoints.length < UInt16.size) :
      Begins bound ((Frame.inv outpoints).octets ++ rest) (.complete (.inv outpoints) rest)
  | getDataBody {rest : Bytes} (hshort : rest.length < 36) :
      Begins bound (2 :: rest) (.incomplete .body)
  | getData {outpoint : Outpoint} {rest : Bytes} :
      Begins bound ((Frame.getData outpoint).octets ++ rest) (.complete (.getData outpoint) rest)
  | dataLength {rest : Bytes} (hshort : rest.length < 4) :
      Begins bound (3 :: rest) (.incomplete .length)
  | dataRefused {length : Nat} {bytes : Bytes} (h : Announces bound length bytes) :
      Begins bound bytes (.refused (.invalidDataLength length bound))
  | dataBody {length : Nat} {rest : Bytes} (hlength : length < UInt32.size)
      (hvalid : ¬ (length = 0 ∨ bound < length)) (hshort : rest.length < length) :
      Begins bound (3 :: Bytes.ofNatLittle 4 length ++ rest) (.incomplete .body)
  | data {body rest : Bytes} (hlength : body.length < UInt32.size)
      (hvalid : ¬ (body.length = 0 ∨ bound < body.length)) :
      Begins bound ((Frame.data body).octets ++ rest) (.complete (.data body) rest)

theorem octets_inv {outpoints : List Outpoint} (h : outpoints.length < UInt16.size) :
    (Frame.inv outpoints).octets =
      1 :: Bytes.ofNatLittle 2 outpoints.length ++ outpoints.flatMap Outpoint.toBytes :=
  octets_eq (if_pos h)

theorem octets_getData (outpoint : Outpoint) :
    (Frame.getData outpoint).octets = 2 :: outpoint.toBytes := rfl

theorem octets_data {body : Bytes} (h : body.length < UInt32.size) :
    (Frame.data body).octets = 3 :: Bytes.ofNatLittle 4 body.length ++ body :=
  octets_eq (if_pos h)

theorem length_lt_of_ofBytes?_eq_none (h : Outpoint.ofBytes? (bytes.take 36) = none) :
    bytes.length < 36 := by
  by_contra hlong
  have hlength : (bytes.take 36).length = Outpoint.serializedLength := by
    rw [List.length_take, Outpoint.serializedLength]
    omega
  obtain ⟨outpoint, houtpoint⟩ := Outpoint.exists_ofBytes? hlength
  rw [h] at houtpoint
  cases houtpoint

/-- Outpoints are read until all are there or the octets end. -/
theorem readOutpoints_cases (count : Nat) (read : List Outpoint) (bytes : Bytes) :
    (bytes.length < 36 * count ∧ readOutpoints count read bytes = .incomplete .body) ∨
      ∃ outpoints rest, outpoints.length = count ∧
        bytes = outpoints.flatMap Outpoint.toBytes ++ rest ∧
        readOutpoints count read bytes = .complete (.inv (read.reverse ++ outpoints)) rest := by
  induction count generalizing read bytes with
  | zero => exact .inr ⟨[], bytes, rfl, rfl, by simp [readOutpoints]⟩
  | succ count ih =>
      unfold readOutpoints
      split
      next hnone =>
        have hshort := length_lt_of_ofBytes?_eq_none hnone
        exact .inl ⟨by omega, rfl⟩
      next outpoint houtpoint =>
        have hfirst := Outpoint.ofBytes?_eq_some.mp houtpoint
        have hsplit : bytes = outpoint.toBytes ++ bytes.drop 36 := by
          rw [← hfirst, List.take_append_drop]
        have hlength : bytes.length = 36 + (bytes.drop 36).length := by
          conv_lhs => rw [hsplit, List.length_append, outpoint.length_toBytes]
          rfl
        rcases ih (outpoint :: read) (bytes.drop 36) with
          ⟨hshort, hread⟩ | ⟨outpoints, rest, rfl, hrest, hread⟩
        · exact .inl ⟨by omega, hread⟩
        · refine .inr ⟨outpoint :: outpoints, rest, rfl, ?_, ?_⟩
          · rw [List.flatMap_cons, List.append_assoc, ← hrest]
            exact hsplit
          · rw [hread, List.reverse_cons, List.append_assoc, List.singleton_append]

/-- A body is read once all of it is there. -/
theorem readBody_cases (length : Nat) (bytes : Bytes) :
    (bytes.length < length ∧ readBody length bytes = .incomplete .body) ∨
      ∃ body rest, body.length = length ∧ bytes = body ++ rest ∧
        readBody length bytes = .complete (.data body) rest := by
  simp only [readBody, List.length_take]
  split
  next hshort => exact .inl ⟨by omega, rfl⟩
  next hlong =>
    refine .inr ⟨bytes.take length, bytes.drop length, ?_, (List.take_append_drop _ _).symm, rfl⟩
    rw [List.length_take]
    omega

/-- Reading tells what the octets begin with. -/
theorem begins_read (bound : Nat) (bytes : Bytes) : Begins bound bytes (read bound bytes) := by
  match bytes with
  | [] => exact .nothing
  | tag :: bytes =>
    dsimp only [read]
    split
    next htag =>
      obtain rfl : tag = 1 := htag
      match bytes with
      | [] => exact .invLength (by decide)
      | [_] => exact .invLength (by simp)
      | a :: b :: rest =>
        have hfield : Bytes.ofNatLittle 2 (Bytes.toNatLittle [a, b]) = [a, b] :=
          Bytes.ofNatLittle_toNatLittle [a, b]
        have hlt : Bytes.toNatLittle [a, b] < UInt16.size := Bytes.toNatLittle_lt (n := 2) rfl
        dsimp only
        generalize Bytes.toNatLittle [a, b] = count at hfield hlt
        rcases readOutpoints_cases count [] rest with
          ⟨hshort, hread⟩ | ⟨outpoints, rest, rfl, rfl, hread⟩
        · have hbegins : Begins bound _ _ := .invBody hlt hshort
          rw [hfield] at hbegins
          rw [hread]
          exact hbegins
        · have hbegins : Begins bound (_ ++ rest) _ := .inv hlt
          rw [octets_inv hlt, hfield] at hbegins
          rw [hread]
          exact hbegins
    next htag =>
      split
      next htag' =>
        obtain rfl : tag = 2 := htag'
        split
        next hnone => exact .getDataBody (length_lt_of_ofBytes?_eq_none hnone)
        next outpoint houtpoint =>
          have hbegins : Begins bound (_ ++ bytes.drop 36) (.complete (.getData outpoint) _) :=
            .getData
          rwa [octets_getData, ← Outpoint.ofBytes?_eq_some.mp houtpoint, List.cons_append,
            List.take_append_drop] at hbegins
      next htag' =>
        split
        next htag'' =>
          obtain rfl : tag = 3 := htag''
          match bytes with
          | [] => exact .dataLength (by decide)
          | [_] | [_, _] | [_, _, _] => exact .dataLength (by simp)
          | a :: b :: c :: d :: rest =>
            have hfield : Bytes.ofNatLittle 4 (Bytes.toNatLittle [a, b, c, d]) = [a, b, c, d] :=
              Bytes.ofNatLittle_toNatLittle [a, b, c, d]
            have hlt : Bytes.toNatLittle [a, b, c, d] < UInt32.size :=
              Bytes.toNatLittle_lt (n := 4) rfl
            dsimp only
            generalize Bytes.toNatLittle [a, b, c, d] = length at hfield hlt
            split
            next hinvalid => exact .dataRefused ⟨hinvalid, hlt, rest, by rw [hfield]; rfl⟩
            next hvalid =>
              rcases readBody_cases length rest with
                ⟨hshort, hread⟩ | ⟨body, rest, rfl, rfl, hread⟩
              · have hbegins := Begins.dataBody hlt hvalid hshort
                rw [hfield] at hbegins
                rw [hread]
                exact hbegins
              · have hbegins : Begins bound (_ ++ rest) _ := .data hlt hvalid
                rw [octets_data hlt, hfield] at hbegins
                rw [hread]
                exact hbegins
        next htag'' =>
          refine .unknown ?_
          simp only [List.mem_cons, List.not_mem_nil, or_false, not_or]
          exact ⟨htag, htag', htag''⟩

/-- What is read is what the octets begin with, as it would be written. -/
theorem eq_octets_append_of_read (h : read bound bytes = .complete frame rest) :
    bytes = frame.octets ++ rest ∧ frame.Fits bound := by
  have hbegins := begins_read bound bytes
  rw [h] at hbegins
  cases hbegins with
  | inv hcount => exact ⟨rfl, Nat.le_of_lt_succ hcount⟩
  | getData => exact ⟨rfl, trivial⟩
  | data hlength hvalid =>
      obtain ⟨hne, hle⟩ := not_or.mp hvalid
      exact ⟨rfl, Nat.pos_of_ne_zero hne, Nat.not_lt.mp hle, hlength⟩

theorem read_eq_unknownTag_iff {tag : UInt8} :
    read bound bytes = .refused (.unknownTag tag) ↔ tag ∉ [1, 2, 3] ∧ bytes.head? = some tag := by
  constructor
  · intro h
    have hbegins := begins_read bound bytes
    rw [h] at hbegins
    cases hbegins with
    | unknown htag => exact ⟨htag, rfl⟩
  · rintro ⟨htag, hhead⟩
    obtain ⟨rest, rfl⟩ := List.head?_eq_some_iff.mp hhead
    simp only [List.mem_cons, List.not_mem_nil, or_false, not_or] at htag
    simp [read, Kind.tag, htag]

theorem read_eq_invalidDataLength_iff {highest : Nat} :
    read bound bytes = .refused (.invalidDataLength length highest) ↔
      highest = bound ∧ Announces bound length bytes := by
  constructor
  · intro h
    have hbegins := begins_read bound bytes
    rw [h] at hbegins
    cases hbegins with
    | dataRefused hannounces => exact ⟨rfl, hannounces⟩
  · rintro ⟨rfl, hinvalid, hlength, rest, rfl⟩
    have hlt : length < 256 ^ 4 := hlength
    obtain ⟨a, b, c, d, hfield⟩ : ∃ a b c d, Bytes.ofNatLittle 4 length = [a, b, c, d] := by
      match Bytes.ofNatLittle 4 length, Bytes.length_ofNatLittle 4 length with
      | [a, b, c, d], _ => exact ⟨a, b, c, d, rfl⟩
    have hread : Bytes.toNatLittle [a, b, c, d] = length := by
      rw [← hfield, Bytes.toNatLittle_ofNatLittle, Nat.mod_eq_of_lt hlt]
    simp [read, Kind.tag, hfield, hread, hinvalid]

/-- A frame that can be written is read back, or its length is refused. -/
theorem read_serialize_cases (bound : Nat) (h : frame.serialize = .ok bytes) (rest : Bytes) :
    read bound (bytes ++ rest) = .complete frame rest ∨
      ∃ length, read bound (bytes ++ rest) = .refused (.invalidDataLength length bound) := by
  by_cases hbody : ∀ body, frame = .data body → body ≠ [] ∧ body.length ≤ bound
  · exact .inl (read_serialize h rest hbody)
  · push Not at hbody
    obtain ⟨body, rfl, hinvalid⟩ := hbody
    simp only [serialize] at h
    split at h
    next hlength =>
      obtain rfl := Except.ok.inj h
      refine .inr ⟨body.length, read_eq_invalidDataLength_iff.mpr ⟨rfl, ?_, hlength, body ++ rest, ?_⟩⟩
      · rw [List.length_eq_zero_iff]
        exact (em (body = [])).imp_right hinvalid
      · simp [kind, Kind.tag]
    next => cases h

/-! ## Parts of frames -/

theorem length_flatMap_toBytes (outpoints : List Outpoint) :
    (outpoints.flatMap Outpoint.toBytes).length = 36 * outpoints.length := by
  induction outpoints with
  | nil => rfl
  | cons outpoint rest ih =>
      rw [List.flatMap_cons, List.length_append, outpoint.length_toBytes, ih, List.length_cons,
        Outpoint.serializedLength]
      omega

/-- Behind any count field, octets of the length that it asks for complete a frame. -/
theorem exists_serialize_inv {field body : Bytes} (hfield : field.length = 2)
    (hbody : body.length = 36 * Bytes.toNatLittle field) :
    ∃ frame : Frame, frame.serialize = .ok (1 :: field ++ body) := by
  have hlt : Bytes.toNatLittle field < UInt16.size := Bytes.toNatLittle_lt hfield
  have hwritten := Bytes.ofNatLittle_toNatLittle field
  rw [hfield] at hwritten
  rcases readOutpoints_cases (Bytes.toNatLittle field) [] body with
    ⟨hshort, -⟩ | ⟨outpoints, rest, hcount, rfl, -⟩
  · omega
  · have hrest : rest = [] := by
      rw [List.length_append, length_flatMap_toBytes] at hbody
      exact List.length_eq_zero_iff.mp (by omega)
    refine ⟨.inv outpoints, ?_⟩
    rw [serialize, if_pos (hcount ▸ hlt), hcount, hwritten, hrest, List.append_nil]
    rfl

theorem exists_serialize_getData {body : Bytes} (hbody : body.length = 36) :
    ∃ frame : Frame, frame.serialize = .ok (2 :: body) := by
  obtain ⟨outpoint, houtpoint⟩ := Outpoint.exists_ofBytes? hbody
  exact ⟨.getData outpoint, by rw [Outpoint.ofBytes?_eq_some.mp houtpoint]; rfl⟩

/-- Behind any length field, octets of the length that it asks for complete a frame. -/
theorem exists_serialize_data {field body : Bytes} (hfield : field.length = 4)
    (hbody : body.length = Bytes.toNatLittle field) :
    ∃ frame : Frame, frame.serialize = .ok (3 :: field ++ body) := by
  have hlt : Bytes.toNatLittle field < UInt32.size := Bytes.toNatLittle_lt hfield
  have hwritten := Bytes.ofNatLittle_toNatLittle field
  rw [hfield, ← hbody] at hwritten
  refine ⟨.data body, ?_⟩
  rw [serialize, if_pos (hbody ▸ hlt), hwritten]
  rfl

theorem exists_append_length {n : Nat} (h : bytes.length < n) :
    ∃ more : Bytes, more ≠ [] ∧ (bytes ++ more).length = n := by
  refine ⟨List.replicate (n - bytes.length) 0, ?_, ?_⟩
  · simp
    omega
  · rw [List.length_append, List.length_replicate]
    omega

/-- Octets that end early are a part of a frame: what is missing can be added. -/
theorem cut_of_incomplete {shortage : Shortage} (h : read bound bytes = .incomplete shortage)
    (hitem : shortage ≠ .item) : Cut bytes := by
  have hbegins := begins_read bound bytes
  rw [h] at hbegins
  cases hbegins with
  | nothing => exact absurd rfl hitem
  | @invLength rest hshort =>
      obtain ⟨more, hmore, hfield⟩ := exists_append_length hshort
      obtain ⟨frame, hframe⟩ := exists_serialize_inv hfield
        (List.length_replicate (a := (0 : UInt8)))
      rw [← List.cons_append, List.append_assoc] at hframe
      exact ⟨List.cons_ne_nil _ _, frame, _, List.append_ne_nil_of_left_ne_nil hmore _, hframe⟩
  | @invBody count rest hcount hshort =>
      obtain ⟨more, hmore, hbody⟩ := exists_append_length hshort
      have hlt : count < 256 ^ 2 := hcount
      have hread := Bytes.toNatLittle_ofNatLittle 2 count
      rw [Nat.mod_eq_of_lt hlt] at hread
      obtain ⟨frame, hframe⟩ := exists_serialize_inv (Bytes.length_ofNatLittle 2 count)
        (hbody.trans (by rw [hread]))
      refine ⟨List.cons_ne_nil _ _, frame, more, hmore, ?_⟩
      rw [hframe, List.append_assoc]
  | @getDataBody rest hshort =>
      obtain ⟨more, hmore, hbody⟩ := exists_append_length hshort
      obtain ⟨frame, hframe⟩ := exists_serialize_getData hbody
      exact ⟨List.cons_ne_nil _ _, frame, more, hmore, hframe⟩
  | @dataLength rest hshort =>
      obtain ⟨more, hmore, hfield⟩ := exists_append_length hshort
      obtain ⟨frame, hframe⟩ := exists_serialize_data hfield
        (List.length_replicate (a := (0 : UInt8)))
      rw [← List.cons_append, List.append_assoc] at hframe
      exact ⟨List.cons_ne_nil _ _, frame, _, List.append_ne_nil_of_left_ne_nil hmore _, hframe⟩
  | @dataBody length rest hlength hvalid hshort =>
      obtain ⟨more, hmore, hbody⟩ := exists_append_length hshort
      have hlt : length < 256 ^ 4 := hlength
      have hread := Bytes.toNatLittle_ofNatLittle 4 length
      rw [Nat.mod_eq_of_lt hlt] at hread
      obtain ⟨frame, hframe⟩ := exists_serialize_data (Bytes.length_ofNatLittle 4 length)
        (hbody.trans hread.symm)
      refine ⟨List.cons_ne_nil _ _, frame, more, hmore, ?_⟩
      rw [hframe, List.append_assoc]

theorem read_ne_complete_of_cut (h : Cut bytes) : read bound bytes ≠ .complete frame rest := by
  intro hread
  obtain ⟨-, whole, more, hmore, hwhole⟩ := h
  have hcases := read_serialize_cases bound hwhole []
  rw [List.append_nil, read_append hread more] at hcases
  rcases hcases with hcases | ⟨length, hcases⟩
  · obtain ⟨-, hnothing⟩ := Progress.complete.inj hcases
    exact hmore (List.append_eq_nil_iff.mp hnothing).2
  · cases hcases

theorem read_eq_item_iff (bound : Nat) : read bound bytes = .incomplete .item ↔ bytes = [] := by
  constructor
  · intro h
    have hbegins := begins_read bound bytes
    rw [h] at hbegins
    cases hbegins
    rfl
  · rintro rfl
    rfl

/-- A part of a frame is waited on, unless it announces a length that is refused. -/
theorem exists_incomplete_of_cut (h : Cut bytes) (hvalid : ∀ length, ¬ Announces bound length bytes) :
    ∃ shortage, shortage ≠ .item ∧ read bound bytes = .incomplete shortage := by
  cases hread : read bound bytes with
  | complete first rest => exact absurd hread (read_ne_complete_of_cut h)
  | refused cause =>
      obtain ⟨-, frame, more, -, hwhole⟩ := h
      have hcases := read_serialize_cases bound hwhole []
      rw [List.append_nil, read_refused_append hread more] at hcases
      rcases hcases with hcases | ⟨length, hcases⟩
      · cases hcases
      · rw [hcases] at hread
        exact absurd (read_eq_invalidDataLength_iff.mp hread).2 (hvalid length)
  | incomplete shortage =>
      refine ⟨shortage, ?_, rfl⟩
      rintro rfl
      exact h.1 ((read_eq_item_iff bound).mp hread)

/-! ## Whole streams -/

/-- Every frame takes up an octet, so that reading a whole stream does not run out of attempts. -/
theorem readMany_eq_readAll {fuel : Nat} (h : bytes.length < fuel) :
    readMany bound fuel bytes = readAll bound bytes := by
  suffices hsame : ∀ other, bytes.length < other →
      readMany bound fuel bytes = readMany bound other bytes from hsame _ (Nat.lt_succ_self _)
  induction fuel generalizing bytes with
  | zero => omega
  | succ fuel ih =>
      intro other hother
      obtain ⟨other, rfl⟩ := Nat.exists_eq_succ_of_ne_zero (Nat.ne_of_gt (Nat.zero_lt_of_lt hother))
      unfold readMany
      cases hread : read bound bytes with
      | complete frame rest =>
          obtain ⟨rfl, hfits⟩ := eq_octets_append_of_read hread
          have hpos := List.length_pos_iff.mpr (ne_nil_of_serialize hfits.serialize)
          rw [List.length_append] at h hother
          dsimp only
          rw [ih (by omega) other (by omega)]
      | incomplete shortage => rfl
      | refused cause => rfl

/-- A whole stream is read as its first frame and what follows it. -/
theorem readAll_of_complete (h : read bound bytes = .complete frame rest) :
    readAll bound bytes = (frame :: (readAll bound rest).1, (readAll bound rest).2) := by
  obtain ⟨rfl, hfits⟩ := eq_octets_append_of_read h
  have hpos := List.length_pos_iff.mpr (ne_nil_of_serialize hfits.serialize)
  have hrest : rest.length < (frame.octets ++ rest).length := by
    rw [List.length_append]
    omega
  rw [readAll, readMany, h]
  dsimp only
  rw [readMany_eq_readAll hrest]

theorem readAll_of_not_complete (h : ∀ frame rest, read bound bytes ≠ .complete frame rest) :
    readAll bound bytes = ([], (read bound bytes).failure?) := by
  rw [readAll, readMany]
  cases hread : read bound bytes with
  | complete frame rest => exact absurd hread (h frame rest)
  | incomplete shortage => rfl
  | refused cause => rfl

/-- Frames are consumed up to a rest that begins with none, and the rest decides the failure. -/
theorem exists_rest (bound : Nat) (bytes : Bytes) :
    ∃ frames rest, bytes = frames.flatMap octets ++ rest ∧ (∀ frame ∈ frames, frame.Fits bound) ∧
      (∀ frame left, read bound rest ≠ .complete frame left) ∧
      readAll bound bytes = (frames, (read bound rest).failure?) := by
  induction hlength : bytes.length using Nat.strong_induction_on generalizing bytes with
  | _ length ih =>
      by_cases hfirst : ∃ frame rest, read bound bytes = .complete frame rest
      · obtain ⟨frame, rest, hread⟩ := hfirst
        have hall := readAll_of_complete hread
        obtain ⟨rfl, hfits⟩ := eq_octets_append_of_read hread
        have hpos := List.length_pos_iff.mpr (ne_nil_of_serialize hfits.serialize)
        rw [List.length_append] at hlength
        obtain ⟨frames, left, hrest, hframes, hleft, hrec⟩ := ih rest.length (by omega) rest rfl
        refine ⟨frame :: frames, left, ?_, List.forall_mem_cons.mpr ⟨hfits, hframes⟩, hleft, ?_⟩
        · rw [List.flatMap_cons, List.append_assoc, ← hrest]
        · rw [hall, hrec]
      · push Not at hfirst
        exact ⟨[], bytes, rfl, by simp, hfirst, readAll_of_not_complete hfirst⟩

/-- Where reading stops, it stops without a failure only at the end of the octets. -/
theorem failure?_eq_none_iff (h : ∀ frame rest, read bound bytes ≠ .complete frame rest) :
    (read bound bytes).failure? = none ↔ bytes = [] := by
  rw [← read_eq_item_iff bound]
  cases hread : read bound bytes with
  | complete frame rest => exact absurd hread (h frame rest)
  | incomplete shortage => cases shortage <;> simp [Progress.failure?, Shortage.failure?]
  | refused cause => simp [Progress.failure?]

theorem refused_cases (h : read bound bytes = .refused cause) :
    (∃ tag, cause = .unknownTag tag) ∨ ∃ length, cause = .invalidDataLength length bound := by
  have hbegins := begins_read bound bytes
  rw [h] at hbegins
  cases hbegins with
  | unknown htag => exact .inl ⟨_, rfl⟩
  | dataRefused hannounces => exact .inr ⟨_, rfl⟩

/-- The failure of octets that are refused is the refusal. -/
theorem failure?_eq_iff_refused (h : (read bound bytes).failure? = some cause)
    {other : WireError} (hother : ¬ other.InputEnded) :
    cause = other ↔ read bound bytes = .refused other := by
  cases hread : read bound bytes with
  | complete frame rest => simp [hread, Progress.failure?] at h
  | refused found =>
      rw [hread] at h
      rw [Option.some.inj h, Progress.refused.injEq]
  | incomplete shortage =>
      rw [hread] at h
      refine iff_of_false ?_ nofun
      rintro rfl
      cases shortage <;> cases h <;> exact hother trivial

/-- The stream has ended too early exactly behind a part of a frame that announces no length that is
refused. -/
theorem inputEnded_iff (h : (read bound bytes).failure? = some cause) :
    cause.InputEnded ↔ Cut bytes ∧ ∀ length, ¬ Announces bound length bytes := by
  constructor
  · intro hended
    cases hread : read bound bytes with
    | complete frame rest => simp [hread, Progress.failure?] at h
    | refused found =>
        rw [hread] at h
        obtain rfl : found = cause := Option.some.inj h
        rcases refused_cases hread with ⟨tag, rfl⟩ | ⟨length, rfl⟩ <;> exact hended.elim
    | incomplete shortage =>
        refine ⟨cut_of_incomplete hread ?_, fun length hannounces => ?_⟩
        · rintro rfl
          simp [hread, Progress.failure?, Shortage.failure?] at h
        · have hrefused := read_eq_invalidDataLength_iff.mpr ⟨rfl, hannounces⟩
          rw [hread] at hrefused
          cases hrefused
  · rintro ⟨hcut, hvalid⟩
    obtain ⟨shortage, hitem, hread⟩ := exists_incomplete_of_cut hcut hvalid
    rw [hread] at h
    cases shortage <;> cases h <;> trivial

/-- The stream has ended too early, or the octets are refused. -/
theorem failure?_cases (h : (read bound bytes).failure? = some cause) :
    cause.InputEnded ∨ (∃ tag, cause = .unknownTag tag) ∨
      ∃ length highest, cause = .invalidDataLength length highest := by
  cases hread : read bound bytes with
  | complete frame rest =>
      rw [hread] at h
      cases h
  | refused found =>
      rw [hread] at h
      obtain rfl : found = cause := Option.some.inj h
      right
      rcases refused_cases hread with htag | ⟨length, hlength⟩
      · exact .inl htag
      · exact .inr ⟨length, bound, hlength⟩
  | incomplete shortage =>
      rw [hread] at h
      left
      cases shortage <;> cases h <;> trivial

/-- A stream that ends inside a frame is not read as one that ends between two. -/
theorem readAll_cut_ne_none {frames : List Frame} {part : Bytes}
    (hframes : ∀ frame ∈ frames, frame.serialize = .ok frame.octets) (hpart : Cut part) :
    (readAll bound (frames.flatMap octets ++ part)).2 ≠ none := by
  induction frames with
  | nil =>
      have hstop : ∀ frame rest, read bound part ≠ .complete frame rest := fun _ _ =>
        read_ne_complete_of_cut hpart
      rw [List.flatMap_nil, List.nil_append, readAll_of_not_complete hstop]
      exact fun hnone => hpart.1 ((failure?_eq_none_iff hstop).mp hnone)
  | cons frame frames ih =>
      obtain ⟨hfirst, hframes⟩ := List.forall_mem_cons.mp hframes
      rw [List.flatMap_cons, List.append_assoc]
      rcases read_serialize_cases bound hfirst (frames.flatMap octets ++ part) with
        hread | ⟨length, hread⟩
      · rw [readAll_of_complete hread]
        exact ih hframes
      · rw [readAll_of_not_complete (by simp [hread]), hread]
        exact Option.some_ne_none _

/-- Reading consumes frames as they would be written, and the rest, if there is one, decides the
failure. -/
theorem readAll_canonical (bound : Nat) (bytes : Bytes) :
    (∃ frames rest failure, readAll bound bytes = (frames, failure) ∧
      bytes = frames.flatMap octets ++ rest ∧
      (∀ frame ∈ frames, frame.serialize = .ok frame.octets) ∧
      (failure = none ↔ rest = []) ∧
      ∀ cause, failure = some cause →
        (cause.InputEnded ∨ (∃ tag, cause = .unknownTag tag) ∨
          ∃ length highest, cause = .invalidDataLength length highest) ∧
        (∀ tag, cause = .unknownTag tag ↔ tag ∉ [1, 2, 3] ∧ rest.head? = some tag) ∧
        (∀ length highest, cause = .invalidDataLength length highest ↔
          highest = bound ∧ Announces bound length rest) ∧
        (cause.InputEnded ↔ Cut rest ∧ ∀ length, ¬ Announces bound length rest)) ∧
    ∀ (frames : List Frame) (part : Bytes),
      (∀ frame ∈ frames, frame.serialize = .ok frame.octets) → Cut part →
      bytes = frames.flatMap octets ++ part → (readAll bound bytes).2 ≠ none := by
  constructor
  · obtain ⟨frames, rest, hsplit, hfits, hstop, hread⟩ := exists_rest bound bytes
    refine ⟨frames, rest, _, hread, hsplit, ?_, failure?_eq_none_iff hstop, ?_⟩
    · intro frame hframe
      exact (hfits frame hframe).serialize
    · intro cause hcause
      refine ⟨failure?_cases hcause, ?_, ?_, inputEnded_iff hcause⟩
      · intro tag
        rw [failure?_eq_iff_refused hcause id, read_eq_unknownTag_iff]
      · intro length highest
        rw [failure?_eq_iff_refused hcause id, read_eq_invalidDataLength_iff]
  · rintro frames part hframes hpart rfl
    exact readAll_cut_ne_none hframes hpart

/-- An announcement of two outpoints, of which one octet is there. -/
def severed : Bytes := [1, 2, 0, 7]

theorem readAll_canonical_severed :
    (∀ frame ∈ sampleFrames, frame.serialize = .ok frame.octets) ∧ Cut severed ∧
      (readAll 2 (sampleFrames.flatMap octets ++ severed)).1 = sampleFrames ∧
      (readAll 2 (sampleFrames.flatMap octets ++ severed)).2 ≠ none := by
  have hfits : ∀ frame ∈ sampleFrames, frame.Fits 2 := by decide
  have hframes : ∀ frame ∈ sampleFrames, frame.serialize = .ok frame.octets :=
    fun frame hframe => (hfits frame hframe).serialize
  have hread : read 2 severed = .incomplete .body := by decide
  have hcut : Cut severed := cut_of_incomplete hread (by decide)
  exact ⟨hframes, hcut, by decide, (readAll_canonical 2 _).2 sampleFrames severed hframes hcut rfl⟩

end Frame

end ChatRelay
