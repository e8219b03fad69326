import ChatRelay.Proofs.Lifecycle.WindingUp

/-!
# Farewells

Whoever is welcomed gets a number of its own, and is registered until one of the callers that
disconnect it takes it out of the registry. That caller, and no other, marks it dead. A session that
is over has disconnected its own peer, so that nobody is registered once no session runs.
-/

namespace ChatRelay

namespace Table

variable {κ ν : Type} [DecidableEq κ]

theorem setEntry_of_not_mem {key : κ} (value : ν) {entries : List (κ × ν)}
    (h : key ∉ entries.map (·.1)) : setEntry key value entries = entries ++ [(key, value)] := by
  induction entries with
  | nil => rfl
  | cons first rest ih =>
      rw [List.map_cons, List.mem_cons, not_or] at h
      rw [setEntry, if_neg (Ne.symm h.1), ih h.2, List.cons_append]

/-- A key's entry and those of the others. -/
theorem perm_erase {table : Table κ ν} {key : κ} {value : ν} (hkeys : table.keys.Nodup)
    (h : table.get? key = some value) :
    table.entries.Perm ((table.erase key).entries ++ [(key, value)]) := by
  obtain ⟨entries⟩ := table
  simp only [keys, get?, erase] at *
  induction entries with
  | nil => cases h
  | cons first rest ih =>
      obtain ⟨other, old⟩ := first
      rw [List.map_cons, List.nodup_cons] at hkeys
      by_cases hother : other = key
      · subst hother
        obtain rfl : old = value := by simpa using h
        have hrest : rest.filter (fun entry => entry.1 ≠ other) = rest := by
          apply List.filter_eq_self.mpr
          intro entry hentry
          apply decide_eq_true
          intro heq
          exact hkeys.1 (List.mem_map.mpr ⟨entry, hentry, heq⟩)
        rw [List.filter_cons_of_neg (by simp), hrest]
        exact (List.perm_append_singleton ..).symm
      · rw [List.lookup_cons, beq_false_of_ne (Ne.symm hother)] at h
        rw [List.filter_cons_of_pos (by simpa using hother), List.cons_append]
        exact (ih hkeys.2 h).cons _

end Table

/-- Numbers below the bound of a peer's number are told apart. -/
theorem PeerId.eq_of_ofNat_eq {i j : Nat} (hi : i < UInt64.size) (hj : j < UInt64.size)
    (h : (⟨.ofNat i⟩ : PeerId) = ⟨.ofNat j⟩) : i = j := by
  have hnumbers : (UInt64.ofNat i).toNat = (UInt64.ofNat j).toNat :=
    congrArg (·.number.toNat) h
  rwa [UInt64.toNat_ofNat_of_lt' hi, UInt64.toNat_ofNat_of_lt' hj] at hnumbers

/-- Someone who disconnects a peer: the number of the departure, and the peer with its socket. -/
structure Farewell where
  caller : Nat
  peer : PeerId
  socket : Nat
  deriving DecidableEq, Repr

namespace Farewell

/-- What the peer was registered with. -/
def entry (farewell : Farewell) : PeerId × Nat := (farewell.peer, farewell.socket)

end Farewell

namespace Lifecycle

/-- The peer that a step welcomes, with its socket. -/
def welcome (l : Lifecycle) : Event → Option (PeerId × Nat)
  | .greeted socket => (l.greeted? socket).map fun greeted => (greeted.1, socket)
  | _ => none

/-- The caller that takes a peer out of the registry with a step. -/
def removal (l : Lifecycle) : Event → Option Farewell
  | .departed departure =>
    match l.departures[departure]? with
    | some ⟨peer, .calling⟩ => (l.registry.get? peer).map fun socket => ⟨departure, peer, socket⟩
    | _ => none
  | _ => none

/-- The caller that marks a peer dead with a step, where the peer was alive before. -/
def killing (l : Lifecycle) : Event → Option Farewell
  | .departed departure =>
    match l.departures[departure]? with
    | some ⟨peer, .removed socket⟩ =>
      if l.sockets[socket]?.any (·.alive) then some ⟨departure, peer, socket⟩ else none
    | _ => none
  | _ => none

/-- Whether the peer of a socket has been marked dead. -/
def isDead (l : Lifecycle) (socket : Nat) : Bool := l.sockets[socket]?.any (!·.alive)

variable {l after start : Lifecycle} {event : Event} {events : List Event} {permits : Nat}
  {welcomed : List (PeerId × Nat)} {removed killed : List Farewell}

/-! ## Who is registered -/

/-- The peers are numbered one after another, and each is registered or has been taken out. -/
structure Parted (l : Lifecycle) (welcomed : List (PeerId × Nat)) (removed : List Farewell) :
    Prop where
  nextId : l.nextId = .ofNat (welcomed.length + 1)
  numbered : welcomed.map (·.1) =
    (List.range welcomed.length).map fun i => ⟨.ofNat (i + 1)⟩
  parted : welcomed.Perm (l.registry.entries ++ removed.map (·.entry))
  sockets : (welcomed.map (·.2)).Nodup
  settled : ∀ entry ∈ welcomed, l.Settled entry.2

namespace Parted

theorem keep (h : l.Parted welcomed removed) (hkeeps : l.Keeps after)
    (hnext : after.nextId = l.nextId) (hregistry : after.registry = l.registry) :
    after.Parted welcomed removed where
  nextId := hnext ▸ h.nextId
  numbered := h.numbered
  parted := hregistry ▸ h.parted
  sockets := h.sockets
  settled entry hentry := hkeeps.settled _ (h.settled entry hentry)

/-- Fewer than all numbers that there are have been given away. -/
theorem nodup_peers (h : l.Parted welcomed removed) (hfew : welcomed.length < UInt64.size) :
    (welcomed.map (·.1)).Nodup := by
  rw [h.numbered]
  apply List.Nodup.map_on _ List.nodup_range
  intro i hi j hj heq
  rw [List.mem_range] at hi hj
  have hnumbers := PeerId.eq_of_ofNat_eq (by omega) (by omega) heq
  omega

/-- The number that comes next is nobody's. -/
theorem nextId_not_mem (h : l.Parted welcomed removed)
    (hfew : welcomed.length + 1 < UInt64.size) : (⟨l.nextId⟩ : PeerId) ∉ welcomed.map (·.1) := by
  rw [h.numbered, h.nextId, List.mem_map]
  rintro ⟨i, hi, heq⟩
  rw [List.mem_range] at hi
  have hnumbers := PeerId.eq_of_ofNat_eq (by omega) hfew heq
  omega

theorem greet (h : l.Parted welcomed removed) (hkeeps : l.Keeps after) {socket : Nat}
    (hgreeting : ¬ l.Settled socket) (hsettled : after.Settled socket)
    (hnext : after.nextId = l.nextId + 1)
    (hregistry : after.registry = l.registry.insert ⟨l.nextId⟩ socket)
    (hfew : welcomed.length + 1 < UInt64.size) :
    after.Parted (welcomed ++ [(⟨l.nextId⟩, socket)]) removed where
  nextId := by
    rw [hnext, h.nextId, List.length_append, List.length_singleton]
    exact (UInt64.ofNat_add _ 1).symm
  numbered := by
    rw [List.map_append, h.numbered, List.length_append, List.length_singleton, List.range_succ,
      List.map_append, h.nextId]
    rfl
  parted := by
    have hnew : (⟨l.nextId⟩ : PeerId) ∉ l.registry.entries.map (·.1) := fun hold => by
      obtain ⟨entry, hentry, heq⟩ := List.mem_map.mp hold
      apply h.nextId_not_mem hfew
      rw [← heq]
      exact List.mem_map_of_mem (h.parted.mem_iff.mpr (List.mem_append_left _ hentry))
    rw [hregistry, Table.insert, Table.setEntry_of_not_mem socket hnew]
    apply (h.parted.append_right _).trans
    rw [List.append_assoc, List.append_assoc]
    exact List.perm_append_comm.append_left _
  sockets := by
    rw [List.map_append, List.map_singleton]
    apply List.nodup_append'.mpr ⟨h.sockets, List.nodup_singleton _, _⟩
    rw [List.disjoint_singleton]
    intro hold
    obtain ⟨entry, hentry, rfl⟩ := List.mem_map.mp hold
    exact hgreeting (h.settled entry hentry)
  settled := by
    intro entry hentry
    rcases List.mem_append.mp hentry with hold | hnew
    · exact hkeeps.settled _ (h.settled entry hold)
    · rw [List.mem_singleton] at hnew
      exact hnew ▸ hsettled

theorem remove (h : l.Parted welcomed removed) (hkeeps : l.Keeps after)
    (hkeys : l.registry.keys.Nodup) {departure socket : Nat} {peer : PeerId}
    (hregistered : l.registry.get? peer = some socket) (hnext : after.nextId = l.nextId)
    (hregistry : after.registry = l.registry.erase peer) :
    after.Parted welcomed (removed ++ [⟨departure, peer, socket⟩]) where
  nextId := hnext ▸ h.nextId
  numbered := h.numbered
  parted := by
    rw [hregistry, List.map_append, List.map_singleton]
    apply (h.parted.trans ((Table.perm_erase hkeys hregistered).append_right _)).trans
    rw [List.append_assoc]
    exact List.perm_append_comm.append_left _
  sockets := h.sockets
  settled entry hentry := hkeeps.settled _ (h.settled entry hentry)

/-- Whoever has been taken out was welcomed. -/
theorem mem_welcomed (h : l.Parted welcomed removed) {farewell : Farewell}
    (hremoved : farewell ∈ removed) : farewell.entry ∈ welcomed :=
  h.parted.mem_iff.mpr (List.mem_append_right _ (List.mem_map_of_mem hremoved))

theorem nodup_sockets (h : l.Parted welcomed removed) :
    ((l.registry.entries.map (·.2)) ++ removed.map (·.socket)).Nodup := by
  have hnodup := (h.parted.map (·.2)).nodup_iff.mp h.sockets
  rwa [List.map_append, List.map_map] at hnodup

theorem nodup_removed (h : l.Parted welcomed removed) (hfew : welcomed.length < UInt64.size) :
    (removed.map (·.peer)).Nodup := by
  have hnodup := (h.parted.map (·.1)).nodup_iff.mp (h.nodup_peers hfew)
  rw [List.map_append, List.map_map] at hnodup
  exact (List.nodup_append'.mp hnodup).2.1

end Parted

/-! ## Who is alive -/

theorem getElem?_departures_append {more : List Departure} (hmore : ∀ d ∈ more, d.stage = .calling)
    {departure : Nat} {old : Departure} (hold : old.stage ≠ .calling) :
    (l.departures ++ more)[departure]? = some old ↔ l.departures[departure]? = some old := by
  rw [List.getElem?_append]
  split
  · rfl
  next hlt =>
    rw [List.getElem?_eq_none (Nat.le_of_not_lt hlt)]
    constructor
    · intro hnew
      exact absurd (hmore old (List.mem_of_getElem? hnew)) hold
    · exact nofun

/-- A caller that has taken a peer out marks it dead next, and is over then. A socket's peer is dead
once a caller has marked it. -/
structure Marked (l : Lifecycle) (removed killed : List Farewell) : Prop where
  removed : ∀ farewell, farewell ∈ removed ↔
    l.departures[farewell.caller]? = some ⟨farewell.peer, .removed farewell.socket⟩ ∨
      farewell ∈ killed
  through : ∀ farewell ∈ killed, l.departures[farewell.caller]? = some ⟨farewell.peer, .over⟩
  once : killed.Nodup
  dead : ∀ socket, l.isDead socket ↔ ∃ farewell ∈ killed, farewell.socket = socket

namespace Marked

theorem keep (h : l.Marked removed killed)
    (hremoved : ∀ (departure : Nat) (peer : PeerId) (socket : Nat),
      after.departures[departure]? = some ⟨peer, .removed socket⟩ ↔
        l.departures[departure]? = some ⟨peer, .removed socket⟩)
    (hover : ∀ (departure : Nat) (peer : PeerId),
      l.departures[departure]? = some ⟨peer, .over⟩ →
        after.departures[departure]? = some ⟨peer, .over⟩)
    (hdead : ∀ socket, after.isDead socket = l.isDead socket) : after.Marked removed killed where
  removed farewell := by rw [h.removed, hremoved]
  through farewell hkilled := hover _ _ (h.through farewell hkilled)
  once := h.once
  dead socket := by rw [hdead, h.dead]

theorem keep_departures (h : l.Marked removed killed) {more : List Departure}
    (hmore : ∀ d ∈ more, d.stage = .calling)
    (hdepartures : after.departures = l.departures ++ more)
    (hdead : ∀ socket, after.isDead socket = l.isDead socket) : after.Marked removed killed := by
  refine h.keep (fun departure peer socket => ?_) (fun departure peer hover => ?_) hdead
  · rw [hdepartures]
    exact getElem?_departures_append hmore (by simp)
  · rw [hdepartures]
    exact (getElem?_departures_append hmore (by simp)).mpr hover

theorem not_mem_killed (h : l.Marked removed killed) {farewell : Farewell} {departure : Departure}
    (hdeparture : l.departures[farewell.caller]? = some departure)
    (hstage : departure.stage ≠ .over) : farewell ∉ killed := by
  intro hkilled
  obtain rfl := Option.some.inj (hdeparture.symm.trans (h.through farewell hkilled))
  exact hstage rfl

/-- A caller that still waits for its turn has not parted with anybody. -/
theorem caller_ne (h : l.Marked removed killed) {departure : Nat} {peer : PeerId}
    (hdeparture : l.departures[departure]? = some ⟨peer, .calling⟩) {farewell : Farewell}
    (hfarewell : farewell ∈ removed) : departure ≠ farewell.caller := by
  rintro rfl
  rcases (h.removed farewell).mp hfarewell with hremoved | hkilled
  · simp [hdeparture] at hremoved
  · exact h.not_mem_killed hdeparture (by simp) hkilled

theorem killed_removed (h : l.Marked removed killed) : killed ⊆ removed :=
  fun farewell hkilled => (h.removed farewell).mpr (.inr hkilled)

theorem miss (h : l.Marked removed killed) {departure : Nat} {peer : PeerId}
    (hdeparture : l.departures[departure]? = some ⟨peer, .calling⟩) :
    (l.setDeparture departure .over).Marked removed killed := by
  refine h.keep (fun other _ socket => ?_) (fun other _ hover => ?_) fun _ => rfl
  · by_cases hother : departure = other
    · subst hother
      simp [getElem?_setDeparture_self hdeparture, hdeparture]
    · rw [getElem?_setDeparture_of_ne hother]
  · rw [getElem?_setDeparture_of_ne, hover]
    rintro rfl
    simp [hdeparture] at hover

theorem remove (h : l.Marked removed killed) {departure socket : Nat} {peer : PeerId}
    (hdeparture : l.departures[departure]? = some ⟨peer, .calling⟩) :
    (l.setDeparture departure (.removed socket)).Marked
      (removed ++ [⟨departure, peer, socket⟩]) killed where
  removed farewell := by
    rw [List.mem_append, List.mem_singleton]
    by_cases hcaller : departure = farewell.caller
    · obtain ⟨caller, other, taken⟩ := farewell
      obtain rfl : departure = caller := hcaller
      have hold : ⟨departure, other, taken⟩ ∉ removed := fun hold =>
        h.caller_ne hdeparture hold rfl
      have hkilled : ⟨departure, other, taken⟩ ∉ killed := fun hkilled =>
        hold (h.killed_removed hkilled)
      simp only [hold, hkilled, false_or, or_false, getElem?_setDeparture_self hdeparture]
      simp [eq_comm]
    · have hne : farewell ≠ ⟨departure, peer, socket⟩ := by
        rintro rfl
        exact hcaller rfl
      simp only [hne, or_false, getElem?_setDeparture_of_ne hcaller, h.removed]
  through farewell hkilled := by
    rw [getElem?_setDeparture_of_ne (h.caller_ne hdeparture (h.killed_removed hkilled))]
    exact h.through farewell hkilled
  once := h.once
  dead := h.dead

/-- Nobody else has marked the peer that a caller has taken out. -/
theorem not_isDead (h : l.Marked removed killed) (hsockets : (removed.map (·.socket)).Nodup)
    {departure socket : Nat} {peer : PeerId}
    (hdeparture : l.departures[departure]? = some ⟨peer, .removed socket⟩) :
    ¬ l.isDead socket := by
  rw [h.dead]
  rintro ⟨farewell, hkilled, hsocket⟩
  have hremoved : (⟨departure, peer, socket⟩ : Farewell) ∈ removed :=
    (h.removed _).mpr (.inl hdeparture)
  obtain rfl := List.inj_on_of_nodup_map hsockets (h.killed_removed hkilled) hremoved hsocket
  exact h.not_mem_killed hdeparture (by simp) hkilled

theorem kill (h : l.Marked removed killed) {departure socket : Nat} {peer : PeerId} {sock : Socket}
    (hdeparture : l.departures[departure]? = some ⟨peer, .removed socket⟩)
    (hsock : l.sockets[socket]? = some sock) :
    Marked ({ l with sockets := l.sockets.modify socket fun s =>
      { s with alive := false } }.setDeparture departure .over) removed
      (killed ++ [⟨departure, peer, socket⟩]) := by
  have hnew : (⟨departure, peer, socket⟩ : Farewell) ∉ killed :=
    h.not_mem_killed hdeparture (by simp)
  refine ⟨fun farewell => ?_, fun farewell hkilled => ?_, ?_, fun other => ?_⟩
  · rw [List.mem_append, List.mem_singleton, h.removed]
    by_cases hcaller : departure = farewell.caller
    · obtain ⟨caller, other, taken⟩ := farewell
      obtain rfl : departure = caller := hcaller
      simp [setDeparture, hdeparture, eq_comm, or_comm]
    · have hne : farewell ≠ ⟨departure, peer, socket⟩ := by
        rintro rfl
        exact hcaller rfl
      simp only [hne, or_false]
      rw [getElem?_setDeparture_of_ne hcaller]
  · rcases List.mem_append.mp hkilled with hold | hlast
    · rw [getElem?_setDeparture_of_ne]
      · exact h.through farewell hold
      · rintro rfl
        exact h.not_mem_killed hdeparture (by simp) hold
    · rw [List.mem_singleton] at hlast
      subst hlast
      simp [setDeparture, hdeparture]
  · apply List.nodup_append'.mpr ⟨h.once, List.nodup_singleton _, _⟩
    exact List.disjoint_singleton.mpr hnew
  · simp only [List.mem_append, List.mem_singleton, or_and_right, exists_or, exists_eq_left]
    rw [← h.dead]
    by_cases hother : socket = other
    · subst hother
      simp [isDead, setDeparture, hsock]
    · simp [isDead, setDeparture, hother]

end Marked

/-! ## What a run leaves -/

/-- What is left of those who were welcomed, those who were taken out and those who were marked. -/
structure Accounted (l : Lifecycle) (welcomed : List (PeerId × Nat))
    (removed killed : List Farewell) : Prop where
  parted : l.Parted welcomed removed
  marked : l.Marked removed killed

theorem welcome_greeted {socket : Nat} {sock : Socket} (hsock : l.sockets[socket]? = some sock)
    (hstage : sock.stage = .greeting) :
    l.welcome (.greeted socket) = some (⟨l.nextId⟩, socket) := by
  rw [welcome, greeted?_of_greeting hsock hstage, Option.map_some]

theorem removal_departed {departure socket : Nat} {peer : PeerId}
    (hdeparture : l.departures[departure]? = some ⟨peer, .calling⟩)
    (hregistered : l.registry.get? peer = some socket) :
    l.removal (.departed departure) = some ⟨departure, peer, socket⟩ := by
  simp [removal, hdeparture, hregistered]

theorem killing_departed {departure socket : Nat} {peer : PeerId} {sock : Socket}
    (hdeparture : l.departures[departure]? = some ⟨peer, .removed socket⟩)
    (hsock : l.sockets[socket]? = some sock) (hdead : ¬ l.isDead socket) :
    l.killing (.departed departure) = some ⟨departure, peer, socket⟩ := by
  have halive : sock.alive := by simpa [isDead, hsock] using hdead
  simp [killing, hdeparture, hsock, halive]

namespace Accounted

/-- A step that nobody of those sees. -/
theorem unseen (h : after.Accounted welcomed removed killed) (hwelcome : l.welcome event = none)
    (hremoval : l.removal event = none) (hkilling : l.killing event = none) :
    after.Accounted (welcomed ++ (l.welcome event).toList) (removed ++ (l.removal event).toList)
      (killed ++ (l.killing event).toList) := by
  rw [hwelcome, hremoval, hkilling]
  simpa using h

/-- A step that changes neither the registry nor who is alive. -/
theorem keep (h : l.Accounted welcomed removed killed) (hkeeps : l.Keeps after)
    (hnext : after.nextId = l.nextId) (hregistry : after.registry = l.registry)
    (more : List Departure) (hmore : ∀ d ∈ more, d.stage = .calling)
    (hdepartures : after.departures = l.departures ++ more)
    (hdead : ∀ socket, after.isDead socket = l.isDead socket) :
    after.Accounted welcomed removed killed :=
  ⟨h.parted.keep hkeeps hnext hregistry, h.marked.keep_departures hmore hdepartures hdead⟩

/-- A socket closes. -/
theorem close (h : l.Accounted welcomed removed killed) {socket : Nat} {direction : Direction}
    (hkeeps : l.Keeps ((l.setStage socket .closed).giveBack direction)) :
    ((l.setStage socket .closed).giveBack direction).Accounted welcomed removed killed := by
  refine h.keep hkeeps (by simp [setStage]) (by simp [setStage]) [] nofun (by simp [setStage])
    fun other => ?_
  rw [isDead, sockets_giveBack]
  exact any_getElem?_modify (fun s : Socket => { s with stage := .closed }) (by simp) _ _ _

theorem step (h : l.Accounted welcomed removed killed) (hwired : l.Wired)
    (hstep : l.step? event = some after)
    (hfew : (welcomed ++ (l.welcome event).toList).length < UInt64.size) :
    after.Accounted (welcomed ++ (l.welcome event).toList) (removed ++ (l.removal event).toList)
      (killed ++ (l.killing event).toList) := by
  have hkeeps := keeps_of_step? hstep
  cases takes_of_step? hstep with
  | accepted address permits hlistening hpermits =>
      refine (h.keep hkeeps rfl rfl [] nofun (by simp) fun socket => ?_).unseen rfl rfl rfl
      exact any_getElem?_concat (by simp) l.sockets socket
  | opened dial address hdial =>
      refine (h.keep hkeeps rfl rfl [] nofun (by simp) fun socket => ?_).unseen rfl rfl rfl
      exact any_getElem?_concat (by simp) l.sockets socket
  | greeted socket sock hsock hstage =>
      have hwelcome := welcome_greeted hsock hstage
      rw [hwelcome] at hfew ⊢
      have hgreeting : ¬ l.Settled socket := by
        rintro ⟨other, hother, hsettled⟩
        obtain rfl := Option.some.inj (hsock.symm.trans hother)
        exact hsettled hstage
      have hparted := h.parted.greet hkeeps hgreeting
        ⟨{ sock with stage := .active ⟨l.nextId⟩ }, by simp [setStage, hsock], by simp⟩ rfl rfl
        (by simpa using hfew)
      simp only [removal, killing, Option.toList_some, Option.toList_none, List.append_nil]
      refine ⟨hparted, h.marked.keep_departures (List.forall_mem_nil _) (by simp [setStage])
        fun other => ?_⟩
      exact any_getElem?_modify (fun s : Socket => { s with stage := .active ⟨l.nextId⟩ })
        (by simp) _ _ _
  | failed socket sock hsock hstage => exact (h.close hkeeps).unseen rfl rfl rfl
  | ended socket sock peer hsock hstage =>
      refine (h.keep hkeeps rfl rfl [⟨peer, .calling⟩] (by simp) rfl
        fun other => ?_).unseen rfl rfl rfl
      exact any_getElem?_modify (fun s : Socket =>
        { s with stage := .leaving peer l.departures.length }) (by simp) _ _ _
  | depart peer =>
      exact (h.keep hkeeps rfl rfl [⟨peer, .calling⟩] (by simp) rfl
        fun _ => rfl).unseen rfl rfl rfl
  | missed departure peer hdeparture hgone =>
      refine Accounted.unseen ⟨h.parted.keep hkeeps rfl rfl, h.marked.miss hdeparture⟩ rfl ?_ ?_
      · simp [removal, hdeparture, hgone]
      · simp [killing, hdeparture]
  | removed departure peer socket hdeparture hregistered =>
      have hmarked : Marked _ (removed ++ [⟨departure, peer, socket⟩]) killed :=
        h.marked.remove hdeparture
      rw [removal_departed hdeparture hregistered]
      simp only [welcome, killing, hdeparture, Option.toList_some, Option.toList_none,
        List.append_nil]
      exact ⟨h.parted.remove hkeeps hwired.keys hregistered rfl rfl,
        ⟨hmarked.removed, hmarked.through, hmarked.once, hmarked.dead⟩⟩
  | killed departure peer socket hdeparture =>
      have hremoved := (h.marked.removed ⟨departure, peer, socket⟩).mpr (.inl hdeparture)
      obtain ⟨sock, hsock, -⟩ := h.parted.settled _ (h.parted.mem_welcomed hremoved)
      have hdead := h.marked.not_isDead (List.nodup_append'.mp h.parted.nodup_sockets).2.1
        hdeparture
      rw [killing_departed hdeparture hsock hdead]
      simpa [welcome, removal, hdeparture] using Accounted.mk (h.parted.keep hkeeps rfl rfl)
        (h.marked.kill hdeparture hsock)
  | finished socket sock peer departure hsock hstage hover =>
      exact (h.close hkeeps).unseen rfl rfl rfl
  | sweep =>
      exact (h.keep hkeeps rfl rfl (l.registry.keys.map (⟨·, .calling⟩)) (by simp) rfl
        fun _ => rfl).unseen rfl rfl rfl
  | _ => exact (h.keep hkeeps rfl rfl [] nofun (by simp [cancel]) fun _ => rfl).unseen rfl rfl rfl

end Accounted

theorem accounted_of_run? (hstart : start? permits = some start)
    (h : start.run? events = some l)
    (hfew : (start.record welcome events).length < UInt64.size) :
    l.Accounted (start.record welcome events) (start.record removal events)
      (start.record killing events) := by
  revert hfew
  refine run_induction (motive := fun events l => (start.record welcome events).length <
    UInt64.size → l.Accounted (start.record welcome events) (start.record removal events)
      (start.record killing events)) ?_ ?_ h
  · intro _
    obtain rfl := eq_of_start? hstart
    exact ⟨⟨rfl, rfl, .nil, List.nodup_nil, nofun⟩,
      ⟨by simp, nofun, List.nodup_nil, by simp [isDead]⟩⟩
  · intro events l event after hrun ih hstep hfew
    have hwired := wired_of_run? hrun (wired_of_start? hstart)
    have hsome := Option.isSome_of_eq_some hstep
    rw [record_concat hrun hsome] at hfew
    rw [record_concat hrun hsome, record_concat hrun hsome, record_concat hrun hsome]
    apply (ih _).step hwired hstep hfew
    exact Nat.lt_of_le_of_lt (List.sublist_append_left ..).length_le hfew

/-- As long as fewer peers are welcomed than there are numbers, no two have the same number. Each is
registered and alive until one caller takes it out of the registry; nobody else takes it out, and
nobody else marks it dead. The sessions can always come to their ends, also after a shutdown. When
no session runs, nobody is registered, and every peer has been marked dead as soon as the callers
are through. -/
theorem farewells_once (hstart : start? permits = some start)
    (h : start.run? events = some l)
    (hfew : (start.record welcome events).length < UInt64.size) :
    ((start.record welcome events).map (·.1)).Nodup ∧
      (∀ entry ∈ l.registry.entries, ∃ sock ∈ l.sockets[entry.2]?, sock.alive) ∧
      (start.record welcome events).Perm
        (l.registry.entries ++ (start.record removal events).map (·.entry)) ∧
      ((start.record removal events).map (·.peer)).Nodup ∧
      ((start.record killing events).map (·.peer)).Nodup ∧
      start.record killing events ⊆ start.record removal events ∧
      (∃ after, l.RunsTo (·.winds) after ∧ after.AtRest) ∧
      (l.AtRest → l.registry.entries = [] ∧
        ((∀ d ∈ l.departures, ∀ socket, d.stage ≠ .removed socket) →
          ((start.record killing events).map (·.peer)).Perm
            ((start.record welcome events).map (·.1)))) := by
  obtain ⟨hparted, hmarked⟩ := accounted_of_run? hstart h hfew
  have hremoved := hparted.nodup_removed hfew
  have htended := tended_of_run? hstart h
  refine ⟨hparted.nodup_peers hfew, fun entry hentry => ?_, hparted.parted, hremoved, ?_,
    hmarked.killed_removed, exists_atRest (waits_of_run? hstart h),
    fun hrest => ⟨htended.registry_eq_nil hrest, fun hthrough => ?_⟩⟩
  · have hwelcomed := hparted.parted.mem_iff.mpr (List.mem_append_left _ hentry)
    obtain ⟨sock, hsock, -⟩ := hparted.settled entry hwelcomed
    refine ⟨sock, hsock, ?_⟩
    by_contra hdead
    -- whoever was marked dead had been taken out, and no two peers share a socket
    have hisDead : l.isDead entry.2 := by
      rw [isDead, Option.mem_def.mp hsock]
      simpa using hdead
    obtain ⟨farewell, hkilled, hsocket⟩ := (hmarked.dead entry.2).mp hisDead
    apply (List.nodup_append'.mp hparted.nodup_sockets).2.2 (List.mem_map_of_mem hentry)
    rw [← hsocket]
    exact List.mem_map_of_mem (hmarked.killed_removed hkilled)
  · apply hmarked.once.map_on
    intro first hfirst second hsecond heq
    exact List.inj_on_of_nodup_map hremoved (hmarked.killed_removed hfirst)
      (hmarked.killed_removed hsecond) heq
  · have hall : (start.record killing events).Perm (start.record removal events) := by
      rw [List.perm_ext_iff_of_nodup hmarked.once (List.Nodup.of_map _ hremoved)]
      intro farewell
      rw [hmarked.removed]
      refine ⟨.inr, fun h => h.resolve_left fun hpending => ?_⟩
      exact hthrough _ (List.mem_of_getElem? hpending) _ rfl
    have hwelcomed := hparted.parted
    rw [htended.registry_eq_nil hrest, List.nil_append] at hwelcomed
    calc
      ((start.record killing events).map (·.peer)).Perm
          ((start.record removal events).map (·.peer)) := hall.map _
      List.Perm _ ((start.record welcome events).map (·.1)) := by
        have hpeers := (hwelcomed.map (·.1)).symm
        rwa [List.map_map] at hpeers

/-- A node is told to shut down while one peer is registered and another socket greets, whose peer
is registered after the sweep. The sweep disconnects the first peer before its session does. -/
def windingUp : List Event :=
  [.listen, .accept "first", .check "second", .opened 0, .greeted 0, .cancel, .sweep, .greeted 1,
    .ended 0, .departed 0, .departed 1, .departed 0, .finished 0,
    .ended 1, .departed 2, .departed 2, .finished 1]

/-- What is left behind it. -/
def woundUp : Lifecycle where
  permits := 1
  listening := true
  cancelled := true
  nextId := 3
  sockets := [⟨"first", .inbound, .closed, false⟩, ⟨"second", .outbound, .closed, false⟩]
  registry := .empty
  departures := [⟨⟨1⟩, .over⟩, ⟨⟨1⟩, .over⟩, ⟨⟨2⟩, .over⟩]
  dials := []

theorem farewells_once_windingUp : ∃ start,
    start? 1 = some start ∧
      start.run? windingUp = some woundUp ∧
      start.record removal windingUp = [⟨0, ⟨1⟩, 0⟩, ⟨2, ⟨2⟩, 1⟩] ∧
      start.record killing windingUp ⊆ start.record removal windingUp ∧
      woundUp.registry.entries = [] ∧
      ((start.record killing windingUp).map (·.peer)).Perm
        ((start.record welcome windingUp).map (·.1)) := by
  obtain ⟨-, -, -, -, -, hmarked, -, hrest⟩ :=
    @farewells_once woundUp _ windingUp 1 rfl rfl (by decide)
  obtain ⟨hempty, hthrough⟩ := hrest (by decide)
  exact ⟨_, rfl, rfl, rfl, hmarked, hempty, hthrough (by simp [woundUp])⟩

end Lifecycle

end ChatRelay
