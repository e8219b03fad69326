import ChatRelay.Proofs.Lifecycle.Steps

/-!
# Sessions that come to their end

A session that is over disconnects its own peer and waits until that is through. The sessions can
always come to their ends, whatever other callers do meanwhile, and nobody is registered then.
-/

namespace ChatRelay

/-- Whether a session runs on a socket, or is over and has not come to its end. -/
def Socket.runs (sock : Socket) : Bool := sock.stage ≠ .greeting ∧ sock.stage ≠ .closed

namespace Lifecycle

variable {l after middle start : Lifecycle} {event : Event} {events : List Event} {permits : Nat}

/-- Whether no session runs: each socket still exchanges greetings, or is closed. -/
def AtRest (l : Lifecycle) : Prop :=
  ∀ sock ∈ l.sockets, sock.stage = .greeting ∨ sock.stage = .closed

instance (l : Lifecycle) : Decidable l.AtRest :=
  inferInstanceAs (Decidable (∀ sock ∈ l.sockets, sock.stage = .greeting ∨ sock.stage = .closed))

theorem Tended.registry_eq_nil (h : l.Tended) (hrest : l.AtRest) : l.registry.entries = [] := by
  rw [List.eq_nil_iff_forall_not_mem]
  intro entry hentry
  have hstage : ∀ stage, l.stage? entry.2 = some stage → stage = .greeting ∨ stage = .closed := by
    intro stage hstage
    obtain ⟨sock, hsock, rfl⟩ := Option.map_eq_some_iff.mp hstage
    exact hrest sock (List.mem_of_getElem? hsock)
  rcases h entry hentry with hactive | ⟨departure, hleaving, -⟩
  · simpa using hstage _ hactive
  · simpa using hstage _ hleaving

/-- Whether each session that is over waits for a departure that is on record. -/
def Waits (l : Lifecycle) : Prop :=
  ∀ (socket : Nat) (peer : PeerId) (departure : Nat),
    l.stage? socket = some (.leaving peer departure) → departure < l.departures.length

theorem Waits.keep (h : l.Waits) (hdepartures : l.departures.length ≤ after.departures.length)
    (hstages : ∀ (socket : Nat) (peer : PeerId) (departure : Nat),
      after.stage? socket = some (.leaving peer departure) →
        l.stage? socket = some (.leaving peer departure)) : after.Waits :=
  fun socket peer departure hstage =>
    Nat.lt_of_lt_of_le (h socket peer departure (hstages socket peer departure hstage)) hdepartures

theorem stage?_of_setStage {socket other : Nat} {stage found : SocketStage} (hne : found ≠ stage)
    (h : (l.setStage socket stage).stage? other = some found) : l.stage? other = some found := by
  by_cases hother : socket = other
  · subst hother
    rcases hbefore : l.stage? socket with _ | before
    · simp [stage?, setStage] at h hbefore
      simp [hbefore] at h
    · exact absurd (Option.some.inj (h.symm.trans (stage?_setStage_self hbefore))) hne
  · rwa [stage?_setStage_of_ne _ _ hother] at h

theorem stage?_of_concat {sock : Socket} {other : Nat} {found : SocketStage}
    (hne : found ≠ sock.stage)
    (h : stage? { l with sockets := l.sockets ++ [sock] } other = some found) :
    l.stage? other = some found := by
  obtain ⟨new, hnew, rfl⟩ := Option.map_eq_some_iff.mp h
  rw [List.getElem?_append] at hnew
  split at hnew
  · rw [stage?, hnew, Option.map_some]
  · obtain rfl := List.mem_singleton.mp (List.mem_of_getElem? hnew)
    exact absurd rfl hne

theorem Waits.step (hl : l.Waits) (h : l.step? event = some after) : after.Waits := by
  cases takes_of_step? h with
  | accepted address permits hlistening hpermits =>
      exact hl.keep le_rfl fun _ _ _ => stage?_of_concat (by simp)
  | opened dial address hdial =>
      exact hl.keep le_rfl fun _ _ _ => stage?_of_concat (by simp)
  | greeted socket sock hsock hstage =>
      exact hl.keep le_rfl fun _ _ _ h => stage?_of_setStage (by simp) h
  | failed socket sock hsock hstage =>
      refine hl.keep (by simp [setStage]) fun _ _ _ h => ?_
      rw [stage?_giveBack] at h
      exact stage?_of_setStage (by simp) h
  | ended socket sock peer hsock hstage =>
      intro other gone departure hother
      have hlength : ((l.depart peer).setStage socket
          (.leaving peer l.departures.length)).departures.length = l.departures.length + 1 := by
        simp [setStage, depart]
      by_cases hnew : SocketStage.leaving gone departure = .leaving peer l.departures.length
      · cases hnew
        omega
      · have hold := hl other gone departure (stage?_of_setStage (l := l.depart peer) hnew hother)
        omega
  | depart peer => exact hl.keep (by simp [depart]) fun _ _ _ => id
  | missed departure peer hdeparture hgone =>
      exact hl.keep (by simp [setDeparture]) fun _ _ _ => id
  | removed departure peer socket hdeparture hregistered =>
      exact hl.keep (by simp [setDeparture]) fun _ _ _ => id
  | killed departure peer socket hdeparture =>
      refine hl.keep (by simp [setDeparture]) fun other _ _ h => ?_
      have hsame := stage?_modify l (fun s => { s with alive := false }) socket other (by simp)
      exact hsame.symm.trans h
  | finished socket sock peer departure hsock hstage hover =>
      refine hl.keep (by simp [setStage]) fun _ _ _ h => ?_
      rw [stage?_giveBack] at h
      exact stage?_of_setStage (by simp) h
  | sweep => exact hl.keep (by simp) fun _ _ _ => id
  | _ => exact hl.keep le_rfl fun _ _ _ => id

theorem waits_of_run? (hstart : start? permits = some start) (h : start.run? events = some l) :
    l.Waits := by
  refine run_induction (motive := fun _ l => l.Waits) ?_ (fun _ ih hstep => ih.step hstep) h
  obtain rfl := eq_of_start? hstart
  simp [Waits, stage?]

/-! ## Coming to rest -/

/-- The steps that sessions and callers take to come to their end. -/
def Event.winds : Event → Bool
  | .ended _ | .departed _ | .finished _ => true
  | _ => false

theorem Waits.runsTo (hl : l.Waits) {allowed : Event → Prop} (h : l.RunsTo allowed after) :
    after.Waits := by
  obtain ⟨events, -, hrun⟩ := h
  exact run_induction (motive := fun _ l => l.Waits) hl (fun _ ih hstep => ih.step hstep) hrun

/-- A caller can always go on to its end, and no session notices. -/
theorem exists_over {departure : Nat} {d : Departure} (h : l.departures[departure]? = some d) :
    ∃ after, l.RunsTo (·.winds) after ∧ after.departures[departure]? = some ⟨d.peer, .over⟩ ∧
      after.sockets.map (·.stage) = l.sockets.map (·.stage) := by
  -- a caller that has taken the peer out
  have hkill : ∀ {l : Lifecycle} {peer : PeerId} {socket : Nat},
      l.departures[departure]? = some ⟨peer, .removed socket⟩ →
        ∃ after, l.RunsTo (·.winds) after ∧ after.departures[departure]? = some ⟨peer, .over⟩ ∧
          after.sockets.map (·.stage) = l.sockets.map (·.stage) := by
    intro l peer socket h
    refine ⟨_, .single (.departed departure) rfl (by rw [step?, departed?, h]), ?_, ?_⟩
    · simp [setDeparture, h]
    · have hsame : (l.sockets.modify socket fun s => { s with alive := false }).map (·.stage) =
          (l.sockets.map (·.stage)).modify socket id := map_modify (by simp) _ _
      rwa [List.modify_id] at hsame
  obtain ⟨peer, stage⟩ := d
  cases stage with
  | removed socket => exact hkill h
  | calling =>
      rcases hregistered : l.registry.get? peer with _ | socket
      · exact ⟨_, .single (.departed departure) rfl
          (by rw [step?, departed?, h]; simp only [hregistered]),
          getElem?_setDeparture_self h _, rfl⟩
      · obtain ⟨after, hwinds, hover, hstages⟩ :=
          hkill (getElem?_setDeparture_self (l := { l with registry := l.registry.erase peer }) h
            (.removed socket))
        refine ⟨after, .trans (.single (.departed departure) rfl ?_) hwinds, hover, hstages⟩
        rw [step?, departed?, h]
        simp only [hregistered]
  | _ => exact ⟨l, .refl l _, h, rfl⟩

/-- How many sessions run or have not come to their end. -/
def running (l : Lifecycle) : Nat := l.sockets.countP Socket.runs

theorem atRest_of_running (h : l.running = 0) : l.AtRest := by
  intro sock hsock
  have hruns := List.countP_eq_zero.mp h sock hsock
  by_cases hgreeting : sock.stage = .greeting
  · exact .inl hgreeting
  · right
    by_contra hclosed
    exact hruns (by simp [Socket.runs, hgreeting, hclosed])

theorem running_congr (h : after.sockets.map (·.stage) = l.sockets.map (·.stage)) :
    after.running = l.running := by
  have hcount := congrArg (List.countP fun stage => decide (stage ≠ .greeting ∧ stage ≠ .closed)) h
  rwa [List.countP_map, List.countP_map] at hcount

theorem stage?_congr (h : after.sockets.map (·.stage) = l.sockets.map (·.stage)) (socket : Nat) :
    after.stage? socket = l.stage? socket := by
  rw [stage?, stage?, ← List.getElem?_map, ← List.getElem?_map, h]

/-- A session that is over can come to its end. -/
theorem Waits.exists_finished (hl : l.Waits) {socket departure : Nat} {peer : PeerId}
    (h : l.stage? socket = some (.leaving peer departure)) :
    ∃ after, l.RunsTo (·.winds) after ∧ after.running + 1 = l.running := by
  obtain ⟨middle, hwinds, hover, hstages⟩ :=
    exists_over (List.getElem?_eq_getElem (hl socket peer departure h))
  obtain ⟨sock, hsock, hstage⟩ := Option.map_eq_some_iff.mp ((stage?_congr hstages socket).trans h)
  have hfinish : middle.step? (.finished socket) =
      some ((middle.setStage socket .closed).giveBack sock.direction) := by
    obtain ⟨address, direction, stage, alive⟩ := sock
    cases hstage
    simp [step?, finished?, hsock, hover]
  refine ⟨_, hwinds.trans (.single _ rfl hfinish), ?_⟩
  have hcount := countP_modify Socket.runs (fun s => { s with stage := .closed }) hsock
  rw [if_pos (by simp [Socket.runs, hstage]), if_neg (by simp [Socket.runs])] at hcount
  rw [running, sockets_giveBack, ← running_congr hstages]
  exact hcount

/-- A session that runs can come to its end. -/
theorem Waits.exists_finished_of_active (hl : l.Waits) {socket : Nat} {peer : PeerId}
    (h : l.stage? socket = some (.active peer)) :
    ∃ after, l.RunsTo (·.winds) after ∧ after.running + 1 = l.running := by
  obtain ⟨sock, hsock, hstage⟩ := Option.map_eq_some_iff.mp h
  have hend : l.step? (.ended socket) =
      some ((l.depart peer).setStage socket (.leaving peer l.departures.length)) := by
    obtain ⟨address, direction, stage, alive⟩ := sock
    cases hstage
    simp [step?, ended?, hsock]
  have hwinds : l.RunsTo (·.winds) _ := .single _ rfl hend
  obtain ⟨after, hfinish, hcount⟩ := (hl.runsTo hwinds).exists_finished
    (stage?_setStage_self (l := l.depart peer) h)
  refine ⟨after, hwinds.trans hfinish, hcount.trans ?_⟩
  have hsame := countP_modify Socket.runs
    (fun s => { s with stage := .leaving peer l.departures.length }) hsock
  rw [if_pos (by simp [Socket.runs, hstage]), if_pos (by simp [Socket.runs])] at hsame
  exact Nat.add_right_cancel hsame

/-- The sessions can always come to their ends, whatever else has happened. -/
theorem exists_atRest (hl : l.Waits) : ∃ after, l.RunsTo (·.winds) after ∧ after.AtRest := by
  induction hrunning : l.running generalizing l with
  | zero => exact ⟨l, .refl l _, atRest_of_running hrunning⟩
  | succ n ih =>
      have hsome : 0 < l.sockets.countP Socket.runs := Nat.lt_of_lt_of_eq n.succ_pos hrunning.symm
      obtain ⟨sock, hsock, hruns⟩ := List.countP_pos_iff.mp hsome
      obtain ⟨socket, hsocket⟩ := List.getElem?_of_mem hsock
      have hstage := stage?_of_getElem? hsocket
      obtain ⟨middle, hwinds, hless⟩ :
          ∃ middle, l.RunsTo (·.winds) middle ∧ middle.running + 1 = l.running := by
        cases hcase : sock.stage with
        | greeting => simp [Socket.runs, hcase] at hruns
        | closed => simp [Socket.runs, hcase] at hruns
        | active peer => exact hl.exists_finished_of_active (hcase ▸ hstage)
        | leaving peer departure => exact hl.exists_finished (hcase ▸ hstage)
      obtain ⟨after, hrest, hatRest⟩ := ih (hl.runsTo hwinds) (by omega)
      exact ⟨after, hwinds.trans hrest, hatRest⟩

end Lifecycle

end ChatRelay
