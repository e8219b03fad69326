import ChatRelay.Proofs.Lifecycle.Steps

/-!
# Permits

An inbound socket holds a permit from the moment it is accepted until its task has come to its end.
Each permit is held by one socket or left over, and each socket gives its permit back once.
-/

namespace ChatRelay

/-- Whether a socket holds a permit: it is inbound, and it exchanges greetings or its session has
not come to its end. -/
def Socket.holds (sock : Socket) : Bool := sock.direction = .inbound ∧ sock.stage ≠ .closed

/-- Whether a socket held a permit once and holds it no more. -/
def Socket.returned (sock : Socket) : Bool := sock.direction = .inbound ∧ sock.stage = .closed

namespace Lifecycle

/-- How many inbound sockets hold a permit. -/
def held (l : Lifecycle) : Nat := l.sockets.countP Socket.holds

/-- A socket, if it is inbound. -/
def inbound? (l : Lifecycle) (socket : Nat) : Option Nat :=
  if l.sockets[socket]?.any (·.direction = .inbound) then some socket else none

/-- The inbound socket that a step closes, as its greetings fail or its session comes to its end. -/
def closing (l : Lifecycle) : Event → Option Nat
  | .failed socket | .finished socket => l.inbound? socket
  | _ => none

variable {l after start : Lifecycle} {event : Event} {events : List Event} {permits socket : Nat}

theorem held_setStage {sock : Socket} (hsock : l.sockets[socket]? = some sock)
    (stage : SocketStage) :
    (l.setStage socket stage).held + (if sock.holds then 1 else 0) =
      l.held + if { sock with stage }.holds then 1 else 0 :=
  countP_modify Socket.holds (fun s => { s with stage }) hsock

/-- A stage that is not the last makes no difference to what is held. -/
theorem held_setStage_of_ne {sock : Socket} (hsock : l.sockets[socket]? = some sock)
    (hbefore : sock.stage ≠ .closed) (stage : SocketStage) (hstage : stage ≠ .closed) :
    (l.setStage socket stage).held = l.held := by
  have hcount := held_setStage hsock stage
  have hsame : { sock with stage }.holds = sock.holds := by
    simp [Socket.holds, hbefore, hstage]
  rw [hsame] at hcount
  omega

/-- A closing socket gives back what it held. -/
theorem permits_add_held_close {sock : Socket} (hsock : l.sockets[socket]? = some sock)
    (hbefore : sock.stage ≠ .closed) :
    ((l.setStage socket .closed).giveBack sock.direction).permits +
      ((l.setStage socket .closed).giveBack sock.direction).held = l.permits + l.held := by
  have hcount := held_setStage hsock .closed
  have hclosed : ¬ ({ sock with stage := .closed } : Socket).holds := by simp [Socket.holds]
  rw [if_neg hclosed] at hcount
  cases hdirection : sock.direction with
  | inbound =>
      have hholds : sock.holds := by simp [Socket.holds, hdirection, hbefore]
      rw [if_pos hholds] at hcount
      change l.permits + 1 + (l.setStage socket .closed).held = _
      omega
  | outbound =>
      have hholds : ¬ sock.holds := by simp [Socket.holds, hdirection]
      rw [if_neg hholds] at hcount
      change l.permits + (l.setStage socket .closed).held = _
      omega

/-- No step makes or loses a permit. -/
theorem permits_add_held_of_step? (h : l.step? event = some after) :
    after.permits + after.held = l.permits + l.held := by
  cases takes_of_step? h with
  | accepted address permits hlistening hpermits =>
      simp only [held, List.countP_append, hpermits]
      simp [Socket.holds]
      omega
  | opened dial address hdial =>
      simp only [held, List.countP_append]
      simp [Socket.holds]
  | greeted socket sock hsock hstage =>
      have hheld := held_setStage_of_ne hsock (by simp [hstage]) (.active ⟨l.nextId⟩) (by simp)
      exact congrArg (l.permits + ·) hheld
  | failed socket sock hsock hstage => exact permits_add_held_close hsock (by simp [hstage])
  | ended socket sock peer hsock hstage =>
      have hheld := held_setStage_of_ne hsock (by simp [hstage])
        (.leaving peer l.departures.length) (by simp)
      exact congrArg (l.permits + ·) hheld
  | killed departure peer socket hdeparture =>
      have hheld : (l.sockets.modify socket fun s => { s with alive := false }).countP
          Socket.holds = l.held := countP_modify_of_same (by simp [Socket.holds]) _ _
      exact congrArg (l.permits + ·) hheld
  | finished socket sock peer departure hsock hstage hover =>
      exact permits_add_held_close hsock (by simp [hstage])
  | _ => rfl

theorem permits_add_held_of_run? (hstart : start? permits = some start)
    (h : start.run? events = some l) : l.permits + l.held = permits := by
  refine run_induction (motive := fun _ l => l.permits + l.held = permits) ?_ ?_ h
  · obtain rfl := eq_of_start? hstart
    rfl
  · intro events l event after _ ih hstep
    rw [permits_add_held_of_step? hstep, ih]

/-! ## Permits that are given back -/

/-- Whether a socket has given its permit back. -/
def hasReturned (l : Lifecycle) (socket : Nat) : Bool := l.sockets[socket]?.any Socket.returned

theorem hasReturned_setStage {sock : Socket} (hsock : l.sockets[socket]? = some sock)
    (hbefore : sock.stage ≠ .closed) (stage : SocketStage) (other : Nat) :
    (l.setStage socket stage).hasReturned other ↔
      l.hasReturned other ∨ other = socket ∧ { sock with stage }.returned := by
  by_cases hother : other = socket
  · subst hother
    simp [hasReturned, setStage, hsock, Socket.returned, hbefore]
  · simp [hasReturned, setStage, Ne.symm hother, hother]

theorem hasReturned_setStage_of_ne {sock : Socket} (hsock : l.sockets[socket]? = some sock)
    {stage : SocketStage} (hbefore : sock.stage ≠ .closed) (hstage : stage ≠ .closed)
    (other : Nat) : (l.setStage socket stage).hasReturned other = l.hasReturned other := by
  rw [Bool.eq_iff_iff, hasReturned_setStage hsock hbefore]
  simp [Socket.returned, hstage]

@[simp] theorem hasReturned_giveBack (l : Lifecycle) (direction : Direction) (socket : Nat) :
    (l.giveBack direction).hasReturned socket = l.hasReturned socket := by
  simp [hasReturned]

/-- The permit of a closing socket, and of no other, is given back. -/
theorem hasReturned_close {sock : Socket} (hsock : l.sockets[socket]? = some sock)
    (hbefore : sock.stage ≠ .closed) (other : Nat) :
    ((l.setStage socket .closed).giveBack sock.direction).hasReturned other ↔
      l.hasReturned other ∨ l.inbound? socket = some other := by
  rw [hasReturned_giveBack, hasReturned_setStage hsock hbefore, inbound?, hsock]
  by_cases hdirection : sock.direction = .inbound
  · simp [Socket.returned, hdirection, @eq_comm _ other socket]
  · simp [Socket.returned, hdirection]

theorem hasReturned_of_step? (h : l.step? event = some after) (socket : Nat) :
    after.hasReturned socket ↔ l.hasReturned socket ∨ closing l event = some socket := by
  have hquiet : ∀ {now before : Bool}, now = before →
      (now ↔ before ∨ (none : Option Nat) = some socket) := by
    rintro now before rfl
    simp
  cases takes_of_step? h with
  | accepted address permits hlistening hpermits =>
      exact hquiet (any_getElem?_concat (by simp [Socket.returned]) l.sockets socket)
  | opened dial address hdial =>
      exact hquiet (any_getElem?_concat (by simp [Socket.returned]) l.sockets socket)
  | greeted other sock hsock hstage =>
      exact hquiet (hasReturned_setStage_of_ne hsock (by simp [hstage]) (by simp) socket)
  | failed other sock hsock hstage => exact hasReturned_close hsock (by simp [hstage]) socket
  | ended other sock peer hsock hstage =>
      exact hquiet (hasReturned_setStage_of_ne hsock (by simp [hstage]) (by simp) socket)
  | killed departure peer other hdeparture =>
      exact hquiet (any_getElem?_modify (fun s : Socket => { s with alive := false })
        (by simp [Socket.returned]) l.sockets other socket)
  | finished other sock peer departure hsock hstage hover =>
      exact hasReturned_close hsock (by simp [hstage]) socket
  | _ => exact hquiet rfl

/-- Whatever closes has not given its permit back yet. -/
theorem not_hasReturned_of_closing (h : l.step? event = some after)
    (hclosing : closing l event = some socket) : ¬ l.hasReturned socket := by
  have hopen : ∀ {other : Nat} {sock : Socket}, l.sockets[other]? = some sock →
      sock.stage ≠ .closed → l.inbound? other = some socket → ¬ l.hasReturned socket := by
    intro other sock hsock hstage hclosing
    obtain ⟨-, hother⟩ := Option.ite_none_right_eq_some.mp hclosing
    obtain rfl := Option.some.inj hother
    simp [hasReturned, hsock, Socket.returned, hstage]
  cases takes_of_step? h with
  | failed other sock hsock hstage => exact hopen hsock (by simp [hstage]) hclosing
  | finished other sock peer departure hsock hstage hover =>
      exact hopen hsock (by simp [hstage]) hclosing
  | _ => cases hclosing

/-- Each inbound socket that is closed has been closed once. -/
theorem closings_of_run? (hstart : start? permits = some start)
    (h : start.run? events = some l) :
    (start.record closing events).Nodup ∧
      ∀ socket, socket ∈ start.record closing events ↔ l.hasReturned socket := by
  refine run_induction (motive := fun events l => (start.record closing events).Nodup ∧
    ∀ socket, socket ∈ start.record closing events ↔ l.hasReturned socket) ?_ ?_ h
  · obtain rfl := eq_of_start? hstart
    exact ⟨List.nodup_nil, fun socket => by simp [hasReturned]⟩
  · intro events l event after hrun ih hstep
    obtain ⟨hnodup, hmem⟩ := ih
    rw [record_concat hrun (Option.isSome_of_eq_some hstep)]
    refine ⟨List.nodup_append'.mpr ⟨hnodup, ?_, ?_⟩, fun socket => ?_⟩
    · cases closing l event <;> simp
    · intro socket hold hnew
      have hclosing := Option.mem_toList.mp hnew
      exact not_hasReturned_of_closing hstep hclosing ((hmem socket).mp hold)
    · rw [List.mem_append, hmem, Option.mem_toList]
      exact (hasReturned_of_step? hstep socket).symm

/-- A socket gives one permit back when it closes, and no permit comes from anywhere else. -/
theorem permits_of_step? (h : l.step? event = some after) :
    if (closing l event).isSome then after.permits = l.permits + 1
    else after.permits ≤ l.permits := by
  have hclose : ∀ {other : Nat} {sock : Socket}, l.sockets[other]? = some sock →
      if (l.inbound? other).isSome then
        ((l.setStage other .closed).giveBack sock.direction).permits = l.permits + 1
      else ((l.setStage other .closed).giveBack sock.direction).permits ≤ l.permits := by
    intro other sock hsock
    cases hdirection : sock.direction <;>
      simp [inbound?, hsock, hdirection, giveBack, setStage]
  cases takes_of_step? h with
  | accepted address permits hlistening hpermits => simp [closing, hpermits]
  | failed other sock hsock hstage => exact hclose hsock
  | finished other sock peer departure hsock hstage hover => exact hclose hsock
  | _ => exact le_rfl

/-- A new inbound socket is turned away exactly if no permit is left. -/
theorem sockets_eq_iff_of_accept {address : Address}
    (h : l.step? (.accept address) = some after) :
    after.sockets = l.sockets ↔ l.permits = 0 := by
  cases takes_of_step? h with
  | refused _ hlistening hpermits => simp [hpermits]
  | accepted _ permits hlistening hpermits => simp [hpermits]

/-- The inbound sockets that exchange greetings, and those whose session has not come to its end,
are never more than the permits. Every registered inbound peer has one of them for itself. What is
closed has given back one permit, and a new socket is turned away exactly if all are held. -/
theorem permits_accounted (hstart : start? permits = some start)
    (h : start.run? events = some l) :
    l.permits + l.held = permits ∧
      (l.registry.entries.map (·.2)).Nodup ∧
      (∀ entry ∈ l.registry.entries, ∃ sock ∈ l.sockets[entry.2]?,
        sock.direction = .inbound → sock.holds) ∧
      (start.record closing events).Nodup ∧
      (∀ socket, socket ∈ start.record closing events ↔
        ∃ sock ∈ l.sockets[socket]?, sock.direction = .inbound ∧ sock.stage = .closed) ∧
      ∀ event after, l.step? event = some after →
        (if (closing l event).isSome then after.permits = l.permits + 1
          else after.permits ≤ l.permits) ∧
        ∀ address, event = .accept address → (after.sockets = l.sockets ↔ l.held = permits) := by
  have hconserved := permits_add_held_of_run? hstart h
  obtain ⟨honce, hclosed⟩ := closings_of_run? hstart h
  refine ⟨hconserved, (wired_of_run? h (wired_of_start? hstart)).sockets, fun entry hentry => ?_,
    honce, fun socket => ?_, fun event after hstep => ⟨permits_of_step? hstep, ?_⟩⟩
  · obtain ⟨stage, hstage, hopen⟩ : ∃ stage, l.stage? entry.2 = some stage ∧ stage ≠ .closed := by
      rcases tended_of_run? hstart h entry hentry with hstage | ⟨departure, hstage, -⟩ <;>
        exact ⟨_, hstage, by simp⟩
    obtain ⟨sock, hsock, rfl⟩ := Option.map_eq_some_iff.mp hstage
    exact ⟨sock, hsock, fun hdirection => by simp [Socket.holds, hdirection, hopen]⟩
  · rw [hclosed, hasReturned, Option.any_eq_true]
    simp [Socket.returned]
  · rintro address rfl
    rw [sockets_eq_iff_of_accept hstep]
    omega

/-- Of one permit the first socket makes use until its greetings fail: the second is turned away,
and the third is accepted. -/
theorem permits_accounted_turnedAway : ∃ start l,
    start? 1 = some start ∧
      start.run? [.listen, .accept "first", .accept "second", .failed 0, .accept "third"] = some l ∧
      l.sockets.map (·.address) = ["first", "third"] ∧ l.permits + l.held = 1 ∧
      ∀ socket, socket ∈ [0] ↔
        ∃ sock ∈ l.sockets[socket]?, sock.direction = .inbound ∧ sock.stage = .closed := by
  obtain ⟨hconserved, -, -, -, hclosed, -⟩ :=
    @permits_accounted _ _
      [.listen, .accept "first", .accept "second", .failed 0, .accept "third"] 1 rfl rfl
  exact ⟨_, _, rfl, rfl, rfl, hconserved, hclosed⟩

end Lifecycle

end ChatRelay
