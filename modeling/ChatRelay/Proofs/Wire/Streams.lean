import ChatRelay.Proofs.Wire.Codec
import ChatRelay.Wire.Handshake

/-!
# Streams in pieces

A connection is read while its octets arrive. A reader never looks past the greeting or the frame
it reads, and more octets never change what it has read, so it does not matter where the stream
is cut: at each moment the reader has the first of the frames that were written and the octets of
the others, and in the end it has all of them and the stream ends between two frames.
-/

namespace ChatRelay

/-! ## What cannot be written or read -/

namespace Frame

variable {bound : Nat} {frame : Frame} {bytes : Bytes} {cause : WireError}

/-- The counts and lengths that can be written and are read back under a bound on deliveries. -/
def Fits (bound : Nat) : Frame → Prop
  | .inv outpoints => outpoints.length ≤ 65535
  | .getData _ => True
  | .data body => 1 ≤ body.length ∧ body.length ≤ bound ∧ body.length < 4294967296

instance : DecidablePred (Fits bound)
  | .inv outpoints => inferInstanceAs (Decidable (outpoints.length ≤ 65535))
  | .getData _ => inferInstanceAs (Decidable True)
  | .data body => inferInstanceAs
    (Decidable (1 ≤ body.length ∧ body.length ≤ bound ∧ body.length < 4294967296))

/-- A frame is not written exactly if its count or its length does not fit its field. -/
theorem serialize_eq_error_iff :
    frame.serialize = .error cause ↔
      (∃ outpoints, frame = .inv outpoints ∧ 65535 < outpoints.length ∧
        cause = .frameTooLarge outpoints.length) ∨
      ∃ body, frame = .data body ∧ 4294967296 ≤ body.length ∧
        cause = .frameTooLarge body.length := by
  have hcount : UInt16.size = 65535 + 1 := rfl
  have hlength : UInt32.size = 4294967296 := rfl
  cases frame with
  | inv outpoints =>
      simp only [serialize, hcount, Nat.lt_succ_iff]
      split
      next hfits => simp [Nat.not_lt.mpr hfits]
      next hlarge => simp [Nat.lt_of_not_le hlarge, eq_comm]
  | getData outpoint => simp [serialize]
  | data body =>
      simp only [serialize, hlength]
      split
      next hfits => simp [Nat.not_le.mpr hfits]
      next hlarge => simp [Nat.le_of_not_lt hlarge, eq_comm]

theorem Fits.serialize (h : frame.Fits bound) : frame.serialize = .ok frame.octets := by
  cases hbytes : frame.serialize with
  | ok bytes => rw [octets_eq hbytes]
  | error cause =>
      rcases serialize_eq_error_iff.mp hbytes with
        ⟨outpoints, rfl, hlarge, -⟩ | ⟨body, rfl, hlarge, -⟩
      · exact absurd hlarge (Nat.not_lt.mpr h)
      · exact absurd hlarge (Nat.not_le.mpr h.2.2)

theorem Fits.body (h : frame.Fits bound) (body : Bytes) (hframe : frame = .data body) :
    body ≠ [] ∧ body.length ≤ bound := by
  subst hframe
  exact ⟨List.length_pos_iff.mp h.1, h.2.1⟩

/-- A written frame is read back with what follows it left over. -/
theorem Fits.read (h : frame.Fits bound) (rest : Bytes) :
    Frame.read bound (frame.octets ++ rest) = .complete frame rest :=
  read_serialize h.serialize rest h.body

theorem Fits.readAll {frames : List Frame} (h : ∀ frame ∈ frames, frame.Fits bound) :
    Frame.readAll bound (frames.flatMap octets) = (frames, none) :=
  readAll_flatMap fun frame hframe =>
    ⟨⟨_, (h frame hframe).serialize⟩, (h frame hframe).body⟩

theorem readOutpoints_ne_refused (count : Nat) (read : List Outpoint) (bytes : Bytes) :
    readOutpoints count read bytes ≠ .refused cause := by
  induction count generalizing read bytes with
  | zero => exact nofun
  | succ count ih =>
      unfold readOutpoints
      split
      · exact nofun
      · exact ih _ _

theorem readBody_ne_refused (length : Nat) (bytes : Bytes) :
    readBody length bytes ≠ .refused cause := by
  unfold readBody
  dsimp only
  split <;> exact nofun

/-- Octets that no continuation makes a frame of are refused whatever follows them. -/
theorem read_refused_append (h : read bound bytes = .refused cause) (more : Bytes) :
    read bound (bytes ++ more) = .refused cause := by
  cases bytes with
  | nil => cases h
  | cons tag bytes =>
      simp only [List.cons_append, read] at h ⊢
      split
      next htag =>
        rw [if_pos htag] at h
        split at h
        next => exact absurd h (readOutpoints_ne_refused _ _ _)
        next => cases h
      next htag =>
        rw [if_neg htag] at h
        split
        next htag' =>
          rw [if_pos htag'] at h
          split at h <;> cases h
        next htag' =>
          rw [if_neg htag'] at h
          split
          next htag'' =>
            rw [if_pos htag''] at h
            split at h
            next =>
              dsimp only [List.cons_append] at h ⊢
              split at h
              next hrefused => rw [if_pos hrefused, h]
              next => exact absurd h (readBody_ne_refused _ _)
            next => cases h
          next htag'' =>
            rw [if_neg htag''] at h
            exact h

end Frame

namespace Handshake

theorem read_greeting_append (rest : Bytes) : read (greeting ++ rest) = .complete () rest := rfl

theorem conclude_greeting_append (rest : Bytes) (ended : Bool) :
    conclude (greeting ++ rest) ended = .ok rest := rfl

/-- A part of the greeting is waited on. -/
theorem read_of_lt {received : Bytes} (h : received.length < greeting.length) :
    read received = .incomplete .body := by
  match received, h with
  | [], _ | [_], _ | [_, _], _ | [_, _, _], _ | [_, _, _, _], _ => rfl

end Handshake

/-! ## The reader -/

/-- How far the reader of a connection has come. -/
inductive Reception.Stage where
  | greeting
  | framing
  /-- It reads no more: the stream has ended between two frames, or there is a failure. -/
  | stopped (failure : Option WireError)
  deriving DecidableEq, Repr

/-- The reading end of a connection. -/
structure Reception where
  /-- What has arrived and has not been read. -/
  inbox : Bytes
  /-- Whether nothing more arrives. -/
  ended : Bool
  stage : Reception.Stage
  /-- What has been read behind the greeting. -/
  frames : List Frame
  deriving DecidableEq, Repr

namespace Reception

def start : Reception := ⟨[], false, .greeting, []⟩

/-- Reads the greeting or one frame, if it is there. -/
def attempt (bound : Nat) (r : Reception) : Reception :=
  match r.stage with
  | .greeting =>
    match Handshake.read r.inbox with
    | .complete () rest => { r with inbox := rest, stage := .framing }
    | .incomplete _ => if r.ended then { r with stage := .stopped (some .endedInBody) } else r
    | .refused cause => { r with stage := .stopped (some cause) }
  | .framing =>
    match Frame.read bound r.inbox with
    | .complete frame rest => { r with inbox := rest, frames := r.frames ++ [frame] }
    | .incomplete shortage => if r.ended then { r with stage := .stopped shortage.failure? } else r
    | .refused cause => { r with stage := .stopped (some cause) }
  | .stopped _ => r

/-- What happens at the reading end. -/
inductive Event where
  | arrival (piece : Bytes)
  | attempt

def step (bound : Nat) (r : Reception) : Event → Reception
  | .arrival piece => { r with inbox := r.inbox ++ piece }
  | .attempt => r.attempt bound

def run (bound : Nat) (events : List Event) : Reception := events.foldl (step bound) start

/-- The pieces of the stream put together. -/
def arrived : List Event → Bytes
  | [] => []
  | .arrival piece :: rest => piece ++ arrived rest
  | .attempt :: rest => arrived rest

theorem arrived_append (first second : List Event) :
    arrived (first ++ second) = arrived first ++ arrived second := by
  induction first with
  | nil => rfl
  | cons event rest ih => cases event <;> simp [arrived, ih]

/-- The reader has read what has arrived of frames written behind a greeting, each octet once and
in its place. -/
structure Follows (frames : List Frame) (received : Bytes) (r : Reception) : Prop where
  open_stream : r.ended = false
  greeting : r.stage = .greeting → r.inbox = received ∧ r.frames = []
  framing : r.stage = .framing →
    received = Handshake.greeting ++ r.frames.flatMap Frame.octets ++ r.inbox ∧
      r.frames <+: frames
  unfailed : ∀ failure, r.stage ≠ .stopped failure

variable {bound : Nat} {frames : List Frame} {received unsent : Bytes} {r : Reception}

theorem Follows.arrival (h : r.Follows frames received) (piece : Bytes) :
    (r.step bound (.arrival piece)).Follows frames (received ++ piece) where
  open_stream := h.open_stream
  greeting hstage := by
    obtain ⟨hinbox, hframes⟩ := h.greeting hstage
    exact ⟨congrArg (· ++ piece) hinbox, hframes⟩
  framing hstage := by
    obtain ⟨hreceived, hframes⟩ := h.framing hstage
    refine ⟨?_, hframes⟩
    rw [hreceived, List.append_assoc]
    rfl
  unfailed := h.unfailed

/-- While the greeting is read, nothing behind it is. -/
theorem Follows.attempt_greeting (h : r.Follows frames received) (hstage : r.stage = .greeting)
    (hstream : received ++ unsent = Handshake.greeting ++ frames.flatMap Frame.octets) :
    (r.attempt bound).Follows frames received := by
  obtain ⟨hinbox, hframes⟩ := h.greeting hstage
  unfold attempt
  simp only [hstage, hinbox]
  rcases Nat.lt_or_ge received.length Handshake.greeting.length with hshort | hlong
  · rw [Handshake.read_of_lt hshort]
    dsimp only
    rw [h.open_stream]
    exact h
  · obtain ⟨rest, hrest⟩ : Handshake.greeting <+: received :=
      List.prefix_of_prefix_length_le ⟨_, hstream.symm⟩ (List.prefix_append _ _) hlong
    rw [← hrest, Handshake.read_greeting_append]
    dsimp only
    refine ⟨h.open_stream, nofun, fun _ => ⟨?_, ?_⟩, nofun⟩
    · simp [hframes]
    · simp [hframes]

/-- A reader that has the first frames and the octets that follow them reads the next frame, or
waits for the rest of it. -/
theorem Follows.attempt_framing (hfits : ∀ frame ∈ frames, frame.Fits bound)
    (h : r.Follows frames received) (hstage : r.stage = .framing)
    (hstream : received ++ unsent = Handshake.greeting ++ frames.flatMap Frame.octets) :
    (r.attempt bound).Follows frames received := by
  obtain ⟨hreceived, left, hleft⟩ := h.framing hstage
  have hahead : r.inbox ++ unsent = left.flatMap Frame.octets := by
    rw [hreceived, ← hleft, List.flatMap_append] at hstream
    simpa only [List.append_assoc, List.append_cancel_left_eq] using hstream
  unfold attempt
  simp only [hstage]
  cases hread : Frame.read bound r.inbox with
  | incomplete shortage =>
      dsimp only
      rw [h.open_stream]
      exact h
  | refused cause =>
      have hmore := Frame.read_refused_append hread unsent
      rw [hahead] at hmore
      cases left with
      | nil => cases hmore
      | cons next left =>
          have hnext : next.Fits bound := hfits next (hleft ▸ by simp)
          rw [List.flatMap_cons, hnext.read] at hmore
          cases hmore
  | complete frame rest =>
      have hmore := Frame.read_append hread unsent
      rw [hahead] at hmore
      cases left with
      | nil => cases hmore
      | cons next left =>
          have hnext : next.Fits bound := hfits next (hleft ▸ by simp)
          rw [List.flatMap_cons, hnext.read] at hmore
          obtain ⟨rfl, hrest⟩ := Progress.complete.inj hmore
          have hinbox : r.inbox = next.octets ++ rest := by
            rw [List.flatMap_cons, hrest, ← List.append_assoc] at hahead
            exact List.append_cancel_right hahead
          dsimp only
          refine ⟨h.open_stream, nofun, fun _ => ⟨?_, left, ?_⟩, nofun⟩
          · rw [hreceived, hinbox]
            simp
          · rw [← hleft]
            simp

theorem Follows.attempt (hfits : ∀ frame ∈ frames, frame.Fits bound)
    (h : r.Follows frames received)
    (hstream : received ++ unsent = Handshake.greeting ++ frames.flatMap Frame.octets) :
    (r.attempt bound).Follows frames received := by
  cases hstage : r.stage with
  | greeting => exact h.attempt_greeting hstage hstream
  | framing => exact h.attempt_framing hfits hstage hstream
  | stopped failure => exact absurd hstage (h.unfailed failure)

/-- Whatever has arrived so far and however it was cut, the reader follows. -/
theorem follows_run (hfits : ∀ frame ∈ frames, frame.Fits bound) (events : List Event)
    (hstream : arrived events ++ unsent =
      Handshake.greeting ++ frames.flatMap Frame.octets) :
    (run bound events).Follows frames (arrived events) := by
  induction events using List.reverseRecOn generalizing unsent with
  | nil => exact ⟨rfl, fun _ => ⟨rfl, rfl⟩, nofun, nofun⟩
  | append_singleton events event ih =>
      rw [arrived_append, List.append_assoc] at hstream
      have hbefore := ih hstream
      rw [run, List.foldl_append, List.foldl_cons, List.foldl_nil, arrived_append]
      cases event with
      | arrival piece =>
          have hpiece : arrived [.arrival piece] = piece := by simp [arrived]
          rw [hpiece]
          exact hbefore.arrival piece
      | attempt =>
          have hnothing : arrived [.attempt] = [] := rfl
          rw [hnothing, List.append_nil]
          exact hbefore.attempt hfits hstream

/-! ## The end of the stream -/

/-- Attempts to read, one after the other. -/
def attempts (bound count : Nat) (r : Reception) : Reception := (attempt bound)^[count] r

theorem attempts_succ (count : Nat) :
    attempts bound (count + 1) r = attempts bound count (r.attempt bound) := rfl

theorem attempts_stopped {failure : Option WireError} (hstage : r.stage = .stopped failure)
    (count : Nat) : attempts bound count r = r := by
  have hsame : r.attempt bound = r := by
    unfold attempt
    rw [hstage]
  exact Function.iterate_fixed hsame count

/-- The frames that have arrived are read one by one, and behind the last the stream ends. -/
theorem attempts_framing (read left : List Frame) (hfits : ∀ frame ∈ left, frame.Fits bound)
    {count : Nat} (hcount : left.length < count) :
    attempts bound count ⟨left.flatMap Frame.octets, true, .framing, read⟩ =
      ⟨[], true, .stopped none, read ++ left⟩ := by
  obtain ⟨count, rfl⟩ : ∃ fewer, count = fewer + 1 :=
    Nat.exists_eq_succ_of_ne_zero (Nat.ne_of_gt (Nat.zero_lt_of_lt hcount))
  induction left generalizing read count with
  | nil =>
      have hlast : attempt bound ⟨[], true, .framing, read⟩ = ⟨[], true, .stopped none, read⟩ := rfl
      rw [attempts_succ, List.flatMap_nil, hlast, attempts_stopped rfl, List.append_nil]
  | cons next left ih =>
      rw [List.length_cons, Nat.add_lt_add_iff_right] at hcount
      obtain ⟨count, rfl⟩ : ∃ fewer, count = fewer + 1 :=
        Nat.exists_eq_succ_of_ne_zero (Nat.ne_of_gt (Nat.zero_lt_of_lt hcount))
      have hnext : attempt bound ⟨next.octets ++ left.flatMap Frame.octets, true, .framing, read⟩ =
          ⟨left.flatMap Frame.octets, true, .framing, read ++ [next]⟩ := by
        simp only [attempt, (hfits next List.mem_cons_self).read]
      rw [attempts_succ, List.flatMap_cons, hnext,
        ih _ (fun frame hframe => hfits frame (List.mem_cons_of_mem _ hframe)) _ hcount,
        List.append_assoc, List.singleton_append]

/-- Once the whole stream is there and has ended, its frames are read to the last. -/
theorem Follows.read_all (hfits : ∀ frame ∈ frames, frame.Fits bound)
    (h : r.Follows frames (Handshake.greeting ++ frames.flatMap Frame.octets)) {count : Nat}
    (hcount : frames.length + 1 < count) :
    attempts bound count { r with ended := true } = ⟨[], true, .stopped none, frames⟩ := by
  cases hstage : r.stage with
  | stopped failure => exact absurd hstage (h.unfailed failure)
  | greeting =>
      obtain ⟨hinbox, hframes⟩ := h.greeting hstage
      obtain ⟨count, rfl⟩ : ∃ fewer, count = fewer + 1 :=
        Nat.exists_eq_succ_of_ne_zero (Nat.ne_of_gt (Nat.zero_lt_of_lt hcount))
      have hgreeted : Reception.attempt bound ⟨r.inbox, true, .greeting, r.frames⟩ =
          ⟨frames.flatMap Frame.octets, true, .framing, []⟩ := by
        simp only [Reception.attempt, hinbox, Handshake.read_greeting_append, hframes]
      rw [attempts_succ, hgreeted]
      exact attempts_framing [] frames hfits (Nat.lt_of_succ_lt_succ hcount)
  | framing =>
      obtain ⟨hreceived, left, rfl⟩ := h.framing hstage
      rw [List.flatMap_append, List.append_assoc, List.append_cancel_left_eq,
        List.append_cancel_left_eq] at hreceived
      rw [List.length_append] at hcount
      have hrest : ∀ frame ∈ left, frame.Fits bound :=
        fun frame hframe => hfits frame (List.mem_append_right _ hframe)
      rw [← hreceived]
      exact attempts_framing r.frames left hrest (by omega)

end Reception

/-- One frame of each kind. -/
def sampleFrames : List Frame :=
  let outpoint : Outpoint := ⟨FixedBytes.replicate 32 7, 1⟩
  [.inv [outpoint, ⟨FixedBytes.replicate 32 8, 258⟩], .getData outpoint, .data [0x68, 0x69]]

/-- The stream of these frames, cut inside the greeting and inside a list of outpoints. -/
def sampleArrival : List Reception.Event :=
  let stream := Handshake.greeting ++ sampleFrames.flatMap Frame.octets
  [.arrival (stream.take 3), .attempt, .arrival ((stream.drop 3).take 30), .attempt, .attempt,
    .arrival (stream.drop 33), .attempt]

/-- Frames that fit are written, and behind a greeting they are read back, at once or however the
stream is cut: at each moment the reader has read the greeting's octets and those of the first
frames and nothing else, and when the stream has ended it reads all of them and no failure. A frame
is not written exactly if its count or length does not fit its field. -/
theorem frames_read_back (bound : Nat) :
    (∀ frames : List Frame, (∀ frame ∈ frames, frame.Fits bound) →
      (∀ frame ∈ frames, frame.serialize = .ok frame.octets) ∧
      (∀ ended, Handshake.conclude (Handshake.greeting ++ frames.flatMap Frame.octets) ended =
        .ok (frames.flatMap Frame.octets)) ∧
      Frame.readAll bound (frames.flatMap Frame.octets) = (frames, none) ∧
      (∀ events unsent, Reception.arrived events ++ unsent =
          Handshake.greeting ++ frames.flatMap Frame.octets →
        (Reception.run bound events).Follows frames (Reception.arrived events)) ∧
      (∀ events count, Reception.arrived events =
          Handshake.greeting ++ frames.flatMap Frame.octets → frames.length + 1 < count →
        Reception.attempts bound count { Reception.run bound events with ended := true } =
          ⟨[], true, .stopped none, frames⟩)) ∧
    ∀ (frame : Frame) (cause : WireError), frame.serialize = .error cause ↔
      (∃ outpoints, frame = .inv outpoints ∧ 65535 < outpoints.length ∧
        cause = .frameTooLarge outpoints.length) ∨
      ∃ body, frame = .data body ∧ 4294967296 ≤ body.length ∧
        cause = .frameTooLarge body.length := by
  refine ⟨fun frames hfits => ⟨fun frame hframe => (hfits frame hframe).serialize,
    Handshake.conclude_greeting_append _, Frame.Fits.readAll hfits, ?_, ?_⟩,
    fun frame cause => Frame.serialize_eq_error_iff⟩
  · intro events unsent hstream
    exact Reception.follows_run hfits events hstream
  · intro events count hstream hcount
    have hfollows : (Reception.run bound events).Follows frames (Reception.arrived events) :=
      Reception.follows_run hfits events ((List.append_nil _).trans hstream)
    rw [hstream] at hfollows
    exact hfollows.read_all hfits hcount

theorem frames_read_back_sample :
    (∀ frame ∈ sampleFrames, frame.Fits 2) ∧
      Reception.arrived sampleArrival =
        Handshake.greeting ++ sampleFrames.flatMap Frame.octets ∧
      Reception.attempts 2 5 { Reception.run 2 sampleArrival with ended := true } =
        ⟨[], true, .stopped none, sampleFrames⟩ := by
  have hfits : ∀ frame ∈ sampleFrames, frame.Fits 2 := by decide
  have harrived : Reception.arrived sampleArrival =
      Handshake.greeting ++ sampleFrames.flatMap Frame.octets := by decide
  exact ⟨hfits, harrived,
    ((frames_read_back 2).1 sampleFrames hfits).2.2.2.2 sampleArrival 5 harrived (by decide)⟩

end ChatRelay
