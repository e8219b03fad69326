import ChatRelay.Proofs.Station.Connections

/-!
# Runs of connections

What a step in the life of connections does, branch by branch, and what is seen of a run of such
steps. An invariant of runs is shown for one step at a time, and the steps are read off here.
-/

namespace ChatRelay

/-- How the number of elements of a kind changes with one element. -/
theorem countP_modify {α : Type} (p : α → Bool) (change : α → α) {xs : List α} {i : Nat} {x : α}
    (h : xs[i]? = some x) :
    (xs.modify i change).countP p + (if p x then 1 else 0) =
      xs.countP p + if p (change x) then 1 else 0 := by
  induction xs generalizing i with
  | nil => simp at h
  | cons first rest ih =>
      cases i with
      | zero =>
          obtain rfl : first = x := by simpa using h
          simp only [List.modify_zero_cons, List.countP_cons]
          omega
      | succ i =>
          have hrest := ih (by simpa using h)
          simp only [List.modify_succ_cons, List.countP_cons]
          omega

/-- A change that cannot be seen in an element cannot be seen in their number. -/
theorem countP_modify_of_same {α : Type} {p : α → Bool} {change : α → α}
    (h : ∀ x, p (change x) = p x) (xs : List α) (i : Nat) :
    (xs.modify i change).countP p = xs.countP p := by
  rcases hx : xs[i]? with _ | x
  · rw [List.modify_eq_self (List.getElem?_eq_none_iff.mp hx)]
  · have hcount := countP_modify p change hx
    rw [h] at hcount
    omega

/-- What cannot be seen of a change of one element is as it was of every element. -/
theorem any_getElem?_modify {α : Type} {p : α → Bool} (change : α → α)
    (h : ∀ x, p (change x) = p x) (xs : List α) (i j : Nat) :
    (xs.modify i change)[j]?.any p = xs[j]?.any p := by
  rw [List.getElem?_modify]
  cases xs[j]? with
  | none => rfl
  | some x => by_cases hi : i = j <;> simp [hi, h]

/-- A new element that does not count is as no element. -/
theorem any_getElem?_concat {α : Type} {p : α → Bool} {x : α} (h : ¬ p x) (xs : List α) (i : Nat) :
    (xs ++ [x])[i]?.any p = xs[i]?.any p := by
  rw [List.getElem?_append]
  split
  · rfl
  next hlt =>
    have hnone : xs[i]? = none := List.getElem?_eq_none (Nat.le_of_not_lt hlt)
    rcases hnew : [x][i - xs.length]? with _ | new
    · rw [hnone]
    · obtain rfl := List.mem_singleton.mp (List.mem_of_getElem? hnew)
      simp [hnone, h]

namespace Lifecycle

/-- What the steps do to the sockets of a node and to what they share. -/
inductive Takes (l : Lifecycle) : Event → Lifecycle → Prop
  | listen : l.Takes .listen { l with listening := true }
  | refused (address : Address) (hlistening : l.listening) (hpermits : l.permits = 0) :
      l.Takes (.accept address) l
  | accepted (address : Address) (permits : Nat) (hlistening : l.listening)
      (hpermits : l.permits = permits + 1) :
      l.Takes (.accept address)
        { l with permits, sockets := l.sockets ++ [⟨address, .inbound, .greeting, true⟩] }
  | checked (address : Address) (hfree : ¬ l.isConnected address) :
      l.Takes (.check address) { l with dials := l.dials ++ [address] }
  | opened (dial : Nat) (address : Address) (hdial : l.dials[dial]? = some address) :
      l.Takes (.opened dial)
        { l with
          dials := l.dials.eraseIdx dial
          sockets := l.sockets ++ [⟨address, .outbound, .greeting, true⟩] }
  | unreachable (dial : Nat) (address : Address) (hdial : l.dials[dial]? = some address) :
      l.Takes (.unreachable dial) { l with dials := l.dials.eraseIdx dial }
  | greeted (socket : Nat) (sock : Socket) (hsock : l.sockets[socket]? = some sock)
      (hstage : sock.stage = .greeting) :
      l.Takes (.greeted socket)
        ({ l with
          nextId := l.nextId + 1
          registry := l.registry.insert ⟨l.nextId⟩ socket }.setStage socket (.active ⟨l.nextId⟩))
  | failed (socket : Nat) (sock : Socket) (hsock : l.sockets[socket]? = some sock)
      (hstage : sock.stage = .greeting) :
      l.Takes (.failed socket) ((l.setStage socket .closed).giveBack sock.direction)
  | ended (socket : Nat) (sock : Socket) (peer : PeerId) (hsock : l.sockets[socket]? = some sock)
      (hstage : sock.stage = .active peer) :
      l.Takes (.ended socket)
        ((l.depart peer).setStage socket (.leaving peer l.departures.length))
  | depart (peer : PeerId) : l.Takes (.depart peer) (l.depart peer)
  /-- Someone else has taken the peer out of the registry. -/
  | missed (departure : Nat) (peer : PeerId)
      (hdeparture : l.departures[departure]? = some ⟨peer, .calling⟩)
      (hgone : l.registry.get? peer = none) :
      l.Takes (.departed departure) (l.setDeparture departure .over)
  | removed (departure : Nat) (peer : PeerId) (socket : Nat)
      (hdeparture : l.departures[departure]? = some ⟨peer, .calling⟩)
      (hregistered : l.registry.get? peer = some socket) :
      l.Takes (.departed departure)
        ({ l with registry := l.registry.erase peer }.setDeparture departure (.removed socket))
  | killed (departure : Nat) (peer : PeerId) (socket : Nat)
      (hdeparture : l.departures[departure]? = some ⟨peer, .removed socket⟩) :
      l.Takes (.departed departure)
        ({ l with sockets := l.sockets.modify socket fun s =>
          { s with alive := false } }.setDeparture departure .over)
  | finished (socket : Nat) (sock : Socket) (peer : PeerId) (departure : Nat)
      (hsock : l.sockets[socket]? = some sock) (hstage : sock.stage = .leaving peer departure)
      (hover : l.departures[departure]?.any (·.stage == .over)) :
      l.Takes (.finished socket) ((l.setStage socket .closed).giveBack sock.direction)
  | cancel : l.Takes .cancel l.cancel
  | closeListener (hcancelled : l.cancelled) :
      l.Takes .closeListener { l with listening := false }
  | sweep :
      l.Takes .sweep { l with departures := l.departures ++ l.registry.keys.map (⟨·, .calling⟩) }

variable {l after middle start : Lifecycle} {event : Event} {events : List Event} {α : Type}

theorem sweep_eq (l : Lifecycle) :
    l.sweep = { l with departures := l.departures ++ l.registry.keys.map (⟨·, .calling⟩) } := by
  unfold sweep
  generalize l.registry.keys = peers
  induction peers generalizing l with
  | nil => simp
  | cons peer peers ih =>
      rw [List.foldl_cons, ih]
      simp [depart]

theorem takes_of_step? (h : l.step? event = some after) : l.Takes event after := by
  cases event with
  | listen =>
      cases h
      exact .listen
  | accept address =>
      simp only [step?, accept?] at h
      split at h
      next hlistening =>
        split at h
        next hpermits =>
          cases h
          exact .refused address hlistening hpermits
        next permits hpermits =>
          cases h
          exact .accepted address permits hlistening hpermits
      next => cases h
  | check address =>
      simp only [step?, check?] at h
      split at h
      next => cases h
      next hfree =>
        cases h
        exact .checked address hfree
  | opened dial =>
      obtain ⟨address, hdial, rfl⟩ := Option.map_eq_some_iff.mp h
      exact .opened dial address hdial
  | unreachable dial =>
      obtain ⟨address, hdial, rfl⟩ := Option.map_eq_some_iff.mp h
      exact .unreachable dial address hdial
  | greeted socket =>
      obtain ⟨⟨peer, after⟩, hgreeted, rfl⟩ := Option.map_eq_some_iff.mp h
      unfold greeted? at hgreeted
      split at hgreeted
      next hsock =>
        cases hgreeted
        exact .greeted socket _ hsock rfl
      next => cases hgreeted
  | failed socket =>
      simp only [step?, failed?] at h
      split at h
      next hsock =>
        cases h
        exact .failed socket _ hsock rfl
      next => cases h
  | ended socket =>
      simp only [step?, ended?] at h
      split at h
      next hsock =>
        cases h
        exact .ended socket _ _ hsock rfl
      next => cases h
  | depart peer =>
      cases h
      exact .depart peer
  | departed departure =>
      simp only [step?, departed?] at h
      split at h
      next peer hdeparture =>
        split at h
        next hgone =>
          cases h
          exact .missed departure peer hdeparture hgone
        next socket hregistered =>
          cases h
          exact .removed departure peer socket hdeparture hregistered
      next peer socket hdeparture =>
        cases h
        exact .killed departure peer socket hdeparture
      next => cases h
  | finished socket =>
      simp only [step?, finished?] at h
      split at h
      next hsock =>
        split at h
        next hover =>
          cases h
          exact .finished socket _ _ _ hsock rfl hover
        next => cases h
      next => cases h
  | cancel =>
      cases h
      exact .cancel
  | closeListener =>
      simp only [step?, closeListener?] at h
      split at h
      next hcancelled =>
        cases h
        exact .closeListener hcancelled
      next => cases h
  | sweep =>
      cases h
      rw [sweep_eq]
      exact .sweep

/-- Greetings on a socket can be completed. -/
theorem greeted?_of_greeting {socket : Nat} {sock : Socket} (hsock : l.sockets[socket]? = some sock)
    (hstage : sock.stage = .greeting) :
    l.greeted? socket = some (⟨l.nextId⟩, { l with
      nextId := l.nextId + 1
      registry := l.registry.insert ⟨l.nextId⟩ socket }.setStage socket (.active ⟨l.nextId⟩)) := by
  obtain ⟨address, direction, stage, alive⟩ := sock
  cases hstage
  rw [greeted?, hsock]

/-! ## Runs -/

/-- A node begins without sockets. -/
theorem eq_of_start? {permits : Nat} (h : start? permits = some start) :
    start = ⟨permits, false, false, 1, [], .empty, [], []⟩ := by
  unfold start? at h
  split at h <;> cases h
  rfl

theorem run?_append (l : Lifecycle) (first more : List Event) :
    l.run? (first ++ more) = (l.run? first).bind (·.run? more) :=
  List.foldlM_append

theorem run?_concat : l.run? (events ++ [event]) = some after ↔
    ∃ middle, l.run? events = some middle ∧ middle.step? event = some after := by
  rw [run?_append, Option.bind_eq_some_iff]
  simp [run?]

/-- What holds before the first step of a run, and is kept by each of its steps, holds behind it. -/
theorem run_induction {motive : List Event → Lifecycle → Prop} (nil : motive [] start)
    (step : ∀ {events l event after}, start.run? events = some l → motive events l →
      l.step? event = some after → motive (events ++ [event]) after)
    (h : start.run? events = some l) : motive events l := by
  induction events using List.reverseRecOn generalizing l with
  | nil =>
      cases h
      exact nil
  | append_singleton events event ih =>
      obtain ⟨middle, hrun, hstep⟩ := run?_concat.mp h
      exact step hrun (ih hrun) hstep

/-- What a view shows of the steps of a run, in their order. -/
def record (view : Lifecycle → Event → Option α) : Lifecycle → List Event → List α
  | _, [] => []
  | l, event :: events =>
    (view l event).toList ++ (l.step? event).elim [] (record view · events)

variable {view : Lifecycle → Event → Option α}

@[simp] theorem record_nil (view : Lifecycle → Event → Option α) (l : Lifecycle) :
    l.record view [] = [] := rfl

theorem record_append (h : l.run? events = some after) (more : List Event) :
    l.record view (events ++ more) = l.record view events ++ after.record view more := by
  induction events generalizing l with
  | nil =>
      cases h
      rfl
  | cons event events ih =>
      obtain ⟨middle, hstep, hrest⟩ := Option.bind_eq_some_iff.mp h
      simp only [List.cons_append, record, hstep, Option.elim_some, ih hrest, List.append_assoc]

/-- What a record shows was seen at one of the steps. -/
theorem exists_of_mem_record {shown : α} (h : shown ∈ l.record view events) :
    ∃ first event rest middle, events = first ++ event :: rest ∧ l.run? first = some middle ∧
      view middle event = some shown := by
  induction events generalizing l with
  | nil => cases h
  | cons event events ih =>
      rcases List.mem_append.mp h with hnow | hlater
      · exact ⟨[], event, events, l, rfl, rfl, Option.mem_toList.mp hnow⟩
      · rcases hstep : l.step? event with _ | after
        · rw [hstep] at hlater
          cases hlater
        · rw [hstep] at hlater
          obtain ⟨first, seen, rest, middle, rfl, hrun, hview⟩ := ih hlater
          exact ⟨event :: first, seen, rest, middle, rfl, by simpa [run?, hstep] using hrun, hview⟩

theorem record_concat (h : l.run? events = some after) (hstep : (after.step? event).isSome) :
    l.record view (events ++ [event]) = l.record view events ++ (view after event).toList := by
  obtain ⟨last, hlast⟩ := Option.isSome_iff_exists.mp hstep
  simp [record_append h, record, hlast]

/-- What can be reached by steps of some kind alone. -/
def RunsTo (l : Lifecycle) (allowed : Event → Prop) (after : Lifecycle) : Prop :=
  ∃ events : List Event, (∀ event ∈ events, allowed event) ∧ l.run? events = some after

namespace RunsTo

variable {allowed : Event → Prop}

theorem refl (l : Lifecycle) (allowed : Event → Prop) : l.RunsTo allowed l := ⟨[], by simp, rfl⟩

theorem trans (h : l.RunsTo allowed middle) (h' : middle.RunsTo allowed after) :
    l.RunsTo allowed after := by
  obtain ⟨first, hfirst, hrun⟩ := h
  obtain ⟨more, hmore, hrun'⟩ := h'
  refine ⟨first ++ more, List.forall_mem_append.mpr ⟨hfirst, hmore⟩, ?_⟩
  rw [run?_append, hrun, Option.bind_some, hrun']

theorem single (event : Event) (hallowed : allowed event) (h : l.step? event = some after) :
    l.RunsTo allowed after :=
  ⟨[event], by simpa using hallowed, by simp [run?, h]⟩

end RunsTo

/-! ## Registered peers -/

theorem getElem?_setDeparture_self {departure : Nat} {peer : PeerId} {stage : DepartureStage}
    (h : l.departures[departure]? = some ⟨peer, stage⟩) (next : DepartureStage) :
    (l.setDeparture departure next).departures[departure]? = some ⟨peer, next⟩ := by
  simp [setDeparture, h]

theorem getElem?_setDeparture_of_ne {departure other : Nat} (h : departure ≠ other)
    (next : DepartureStage) :
    (l.setDeparture departure next).departures[other]? = l.departures[other]? := by
  simp [setDeparture, h]

/-- The stage of a socket. -/
def stage? (l : Lifecycle) (socket : Nat) : Option SocketStage :=
  l.sockets[socket]?.map (·.stage)

theorem stage?_of_getElem? {socket : Nat} {sock : Socket} (h : l.sockets[socket]? = some sock) :
    l.stage? socket = some sock.stage := by
  rw [stage?, h, Option.map_some]

theorem stage?_modify (l : Lifecycle) (change : Socket → Socket) (socket other : Nat)
    (h : ∀ sock, (change sock).stage = sock.stage) :
    stage? { l with sockets := l.sockets.modify socket change } other = l.stage? other := by
  simp only [stage?, List.getElem?_modify]
  by_cases hother : socket = other
  · cases l.sockets[other]? <;> simp [hother, h]
  · simp [hother]

theorem stage?_setStage_of_ne (l : Lifecycle) {socket other : Nat} (stage : SocketStage)
    (h : socket ≠ other) : (l.setStage socket stage).stage? other = l.stage? other := by
  simp [stage?, setStage, h]

theorem stage?_setStage_self {socket : Nat} {stage before : SocketStage}
    (h : l.stage? socket = some before) : (l.setStage socket stage).stage? socket = some stage := by
  obtain ⟨sock, hsock, -⟩ := Option.map_eq_some_iff.mp h
  simp [stage?, setStage, hsock]

@[simp] theorem nextId_giveBack (l : Lifecycle) (direction : Direction) :
    (l.giveBack direction).nextId = l.nextId := by
  cases direction <;> rfl

@[simp] theorem sockets_giveBack (l : Lifecycle) (direction : Direction) :
    (l.giveBack direction).sockets = l.sockets := by
  cases direction <;> rfl

@[simp] theorem registry_giveBack (l : Lifecycle) (direction : Direction) :
    (l.giveBack direction).registry = l.registry := by
  cases direction <;> rfl

@[simp] theorem departures_giveBack (l : Lifecycle) (direction : Direction) :
    (l.giveBack direction).departures = l.departures := by
  cases direction <;> rfl

@[simp] theorem stage?_giveBack (l : Lifecycle) (direction : Direction) (socket : Nat) :
    (l.giveBack direction).stage? socket = l.stage? socket := by
  simp [stage?]

theorem stage?_append {socket : Nat} {stage : SocketStage} (h : l.stage? socket = some stage)
    (more : List Socket) : stage? { l with sockets := l.sockets ++ more } socket = some stage := by
  obtain ⟨sock, hsock, rfl⟩ := Option.map_eq_some_iff.mp h
  obtain ⟨hlt, -⟩ := List.getElem?_eq_some_iff.mp hsock
  simp [stage?, List.getElem?_append_left hlt, hsock]

/-- The socket of a registered peer is in its session, or in the departure with which the session
ends and which has not reached the registry yet. -/
def Tends (l : Lifecycle) (entry : PeerId × Nat) : Prop :=
  l.stage? entry.2 = some (.active entry.1) ∨ ∃ departure,
    l.stage? entry.2 = some (.leaving entry.1 departure) ∧
      l.departures[departure]? = some ⟨entry.1, .calling⟩

def Tended (l : Lifecycle) : Prop := ∀ entry ∈ l.registry.entries, l.Tends entry

theorem Tends.keep {entry : PeerId × Nat} (h : l.Tends entry)
    (hstage : ∀ stage, l.stage? entry.2 = some stage → after.stage? entry.2 = some stage)
    (hcalling : ∀ departure : Nat, l.departures[departure]? = some ⟨entry.1, .calling⟩ →
      after.departures[departure]? = some ⟨entry.1, .calling⟩) : after.Tends entry := by
  rcases h with hactive | ⟨departure, hleaving, hdeparture⟩
  · exact .inl (hstage _ hactive)
  · exact .inr ⟨departure, hstage _ hleaving, hcalling departure hdeparture⟩

/-- A socket that greets, or whose session is over, has no registered peer. -/
theorem Tends.ne {entry : PeerId × Nat} {socket : Nat} {stage : SocketStage} (h : l.Tends entry)
    (hstage : l.stage? socket = some stage) (hactive : stage ≠ .active entry.1)
    (hleaving : ∀ departure : Nat, stage = .leaving entry.1 departure →
      l.departures[departure]? ≠ some ⟨entry.1, .calling⟩) : socket ≠ entry.2 := by
  rintro rfl
  rcases h with h | ⟨departure, h, hdeparture⟩
  · exact hactive (Option.some.inj (hstage.symm.trans h))
  · exact hleaving departure (Option.some.inj (hstage.symm.trans h)) hdeparture

/-- A departure that goes on is not the one that a registered peer waits for. -/
theorem Tends.keep_setDeparture {entry : PeerId × Nat} {departure : Nat} {old : Departure}
    (h : l.Tends entry) (stage : DepartureStage) (hold : l.departures[departure]? = some old)
    (hne : old ≠ ⟨entry.1, .calling⟩) : (l.setDeparture departure stage).Tends entry := by
  refine h.keep (fun _ => id) fun other hother => ?_
  have hother' : departure ≠ other := by
    rintro rfl
    exact hne (Option.some.inj (hold.symm.trans hother))
  rwa [getElem?_setDeparture_of_ne hother']

theorem Tends.keep_departures {entry : PeerId × Nat} (h : l.Tends entry) (more : List Departure) :
    Tends { l with departures := l.departures ++ more } entry := by
  refine h.keep (fun _ => id) fun departure hdeparture => ?_
  obtain ⟨hlt, -⟩ := List.getElem?_eq_some_iff.mp hdeparture
  rwa [List.getElem?_append_left hlt]

theorem Tended.step (hl : l.Tended) (h : l.step? event = some after) : after.Tended := by
  intro entry hentry
  cases takes_of_step? h with
  | accepted address permits hlistening hpermits =>
      exact (hl entry hentry).keep (fun _ hstage => stage?_append hstage _) fun _ => id
  | opened dial address hdial =>
      exact (hl entry hentry).keep (fun _ hstage => stage?_append hstage _) fun _ => id
  | greeted socket sock hsock hstage =>
      have hgreeting := stage?_of_getElem? hsock
      rcases mem_setEntry hentry with rfl | hold
      · exact .inl (stage?_setStage_self hgreeting)
      · have hne := (hl entry hold).ne hgreeting (by simp [hstage]) (by simp [hstage])
        refine (hl entry hold).keep (fun stage h => ?_) fun _ => id
        exact (stage?_setStage_of_ne _ _ hne).trans h
  | failed socket sock hsock hstage =>
      rw [registry_giveBack] at hentry
      have hne := (hl entry hentry).ne (stage?_of_getElem? hsock) (by simp [hstage])
        (by simp [hstage])
      refine (hl entry hentry).keep (fun stage h => ?_) fun departure hcalling => ?_
      · rw [stage?_giveBack, stage?_setStage_of_ne _ _ hne, h]
      · rwa [departures_giveBack]
  | ended socket sock peer hsock hstage =>
      have hactive : l.stage? socket = some (.active peer) := hstage ▸ stage?_of_getElem? hsock
      have htends := (hl entry hentry).keep_departures [⟨peer, .calling⟩]
      by_cases hsocket : socket = entry.2
      · subst hsocket
        -- the departure of its own session
        obtain rfl : peer = entry.1 := by
          rcases hl entry hentry with h | ⟨departure, h, -⟩ <;> rw [hactive] at h <;> cases h
          rfl
        refine .inr ⟨l.departures.length, ?_, by simp [setStage, depart]⟩
        exact stage?_setStage_self (l := l.depart entry.1) hactive
      · exact htends.keep (fun stage h => (stage?_setStage_of_ne _ _ hsocket).trans h) fun _ => id
  | depart peer => exact (hl entry hentry).keep_departures _
  | missed departure peer hdeparture hgone =>
      refine (hl entry hentry).keep_setDeparture _ hdeparture fun heq => ?_
      have hcontains : l.registry.contains entry.1 :=
        Table.mem_keys.mp (List.mem_map_of_mem hentry)
      cases heq
      simp [Table.contains, hgone] at hcontains
  | removed departure peer socket hdeparture hregistered =>
      obtain ⟨hold, hne⟩ := List.mem_filter.mp hentry
      have htends : Tends { l with registry := l.registry.erase peer } entry := hl entry hold
      refine htends.keep_setDeparture _ hdeparture fun heq => ?_
      cases heq
      simp at hne
  | killed departure peer socket hdeparture =>
      have htends : Tends { l with sockets := l.sockets.modify socket fun s =>
          { s with alive := false } } entry :=
        (hl entry hentry).keep (fun stage h =>
          (stage?_modify l (fun s => { s with alive := false }) _ _ (by simp)).trans h) fun _ => id
      exact htends.keep_setDeparture _ hdeparture (by simp)
  | finished socket sock peer departure hsock hstage hover =>
      rw [registry_giveBack] at hentry
      have hne := (hl entry hentry).ne (stage?_of_getElem? hsock) (by simp [hstage]) (by
        intro other hother hcalling
        rw [hstage] at hother
        cases hother
        simp [hcalling] at hover)
      refine (hl entry hentry).keep (fun stage h => ?_) fun departure hcalling => ?_
      · rw [stage?_giveBack, stage?_setStage_of_ne _ _ hne, h]
      · rwa [departures_giveBack]
  | sweep => exact (hl entry hentry).keep_departures _
  | _ => exact hl entry hentry

theorem tended_of_run? {permits : Nat} (hstart : start? permits = some start)
    (h : start.run? events = some l) : l.Tended := by
  refine run_induction (motive := fun _ l => l.Tended) ?_ (fun _ ih hstep => ih.step hstep) h
  obtain rfl := eq_of_start? hstart
  exact nofun

end Lifecycle

end ChatRelay
