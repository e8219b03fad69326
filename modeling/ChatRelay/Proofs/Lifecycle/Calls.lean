import ChatRelay.Proofs.Lifecycle.Steps
import ChatRelay.Simulation.Network

/-!
# Calls to connect

A call to connect to an address looks for it in the registry, and only later registers a peer of its
own. As long as the calls to one address do not overlap, at most one outbound peer has the address;
two that overlap can both come to register one.
-/

namespace ChatRelay

theorem count_eraseIdx_add {α : Type} [DecidableEq α] {xs : List α} {i : Nat} {x : α}
    (h : xs[i]? = some x) (a : α) :
    (xs.eraseIdx i).count a + (if x = a then 1 else 0) = xs.count a := by
  obtain ⟨hlt, rfl⟩ := List.getElem?_eq_some_iff.mp h
  have hcount := (List.getElem_cons_eraseIdx_perm hlt).count_eq a
  simpa [List.count_cons] using hcount

/-- A new entry is at most one more. -/
theorem countP_setEntry_le {κ ν : Type} [DecidableEq κ] (p : κ × ν → Bool) (key : κ) (value : ν)
    (entries : List (κ × ν)) :
    (Table.setEntry key value entries).countP p ≤
      entries.countP p + if p (key, value) then 1 else 0 := by
  induction entries with
  | nil => simp [Table.setEntry, List.countP_cons]
  | cons first rest ih =>
      unfold Table.setEntry
      split <;> simp only [List.countP_cons]
      · omega
      · omega

/-- The entries of the other keys stay. -/
theorem mem_setEntry_of_ne {κ ν : Type} [DecidableEq κ] {key : κ} {entry : κ × ν} (value : ν)
    {entries : List (κ × ν)} (h : entry ∈ entries) (hne : entry.1 ≠ key) :
    entry ∈ Table.setEntry key value entries := by
  induction entries with
  | nil => cases h
  | cons first rest ih =>
      unfold Table.setEntry
      split
      next hfirst =>
        rcases List.mem_cons.mp h with rfl | hrest
        · exact absurd hfirst hne
        · exact List.mem_cons_of_mem _ hrest
      next =>
        rcases List.mem_cons.mp h with rfl | hrest
        · exact List.mem_cons_self
        · exact List.mem_cons_of_mem _ (ih hrest)

theorem self_mem_setEntry {κ ν : Type} [DecidableEq κ] (key : κ) (value : ν)
    (entries : List (κ × ν)) : (key, value) ∈ Table.setEntry key value entries := by
  induction entries with
  | nil => exact List.mem_singleton_self _
  | cons first rest ih =>
      unfold Table.setEntry
      split
      · exact List.mem_cons_self
      · exact List.mem_cons_of_mem _ ih

/-- Whether a socket was opened from here to an address. -/
def Socket.leadsTo (sock : Socket) (address : Address) : Bool :=
  sock.direction = .outbound ∧ sock.address = address

/-- Whether a call to connect to an address waits for the greetings on a socket. -/
def Socket.awaits (sock : Socket) (address : Address) : Bool :=
  sock.leadsTo address ∧ sock.stage = .greeting

namespace Lifecycle

/-- How many calls to connect to an address have found that no peer has it, and have not come to
register one. -/
def underway (l : Lifecycle) (address : Address) : Nat :=
  l.dials.count address + l.sockets.countP (·.awaits address)

/-- The registered peers on sockets that were opened from here to an address. -/
def outboundPeers (l : Lifecycle) (address : Address) : List (PeerId × Nat) :=
  l.registry.entries.filter fun entry => l.sockets[entry.2]?.any (·.leadsTo address)

/-- The address that a call finds free while another call to it is under way. -/
def overlap (l : Lifecycle) : Event → Option Address
  | .check address => if l.underway address = 0 then none else some address
  | _ => none

variable {l after middle start : Lifecycle} {event : Event} {events : List Event} {permits : Nat}
  {address : Address}

theorem length_outboundPeers (l : Lifecycle) (address : Address) :
    (l.outboundPeers address).length =
      l.registry.entries.countP fun entry => l.sockets[entry.2]?.any (·.leadsTo address) :=
  List.countP_eq_length_filter.symm

/-! ## Calls that do not overlap -/

/-- The calls to an address, and the peers that calls have led to. -/
def calls (l : Lifecycle) (address : Address) : Nat :=
  l.underway address + (l.outboundPeers address).length

/-- A socket that opens has no peer yet. -/
theorem outboundPeers_append (hl : l.Wired) (sock : Socket) (address : Address) :
    outboundPeers { l with sockets := l.sockets ++ [sock] } address = l.outboundPeers address := by
  apply List.filter_congr
  intro entry hentry
  obtain ⟨known, hknown, -⟩ := hl.settled entry hentry
  obtain ⟨hlt, -⟩ := List.getElem?_eq_some_iff.mp hknown
  simp only
  rw [List.getElem?_append_left hlt]

theorem calls_append (hl : l.Wired) (sock : Socket) (address : Address) :
    calls { l with sockets := l.sockets ++ [sock] } address =
      l.calls address + if sock.awaits address then 1 else 0 := by
  simp only [calls, outboundPeers_append hl, underway, List.countP_append, List.countP_singleton]
  omega

theorem outboundPeers_modify (l : Lifecycle) {change : Socket → Socket}
    (hchange : ∀ sock, (change sock).leadsTo address = sock.leadsTo address) (socket : Nat) :
    outboundPeers { l with sockets := l.sockets.modify socket change } address =
      l.outboundPeers address := by
  apply List.filter_congr
  intro entry _
  exact any_getElem?_modify change hchange l.sockets socket entry.2

/-- Nobody waits for a socket whose greetings are over. -/
theorem calls_setStage {socket : Nat} {sock : Socket} (hsock : l.sockets[socket]? = some sock)
    (stage : SocketStage) (hstage : stage ≠ .greeting) (address : Address) :
    (l.setStage socket stage).calls address + (if sock.awaits address then 1 else 0) =
      l.calls address := by
  have hcount := countP_modify (·.awaits address) (fun s => { s with stage }) hsock
  have hnone : ¬ { sock with stage }.awaits address := by simp [Socket.awaits, hstage]
  rw [if_neg hnone] at hcount
  have hpeers : (l.setStage socket stage).outboundPeers address = l.outboundPeers address :=
    outboundPeers_modify l (by simp [Socket.leadsTo]) socket
  rw [calls, hpeers, calls]
  simp only [underway, setStage]
  omega

theorem calls_setStage_le {socket : Nat} {sock : Socket} (hsock : l.sockets[socket]? = some sock)
    (stage : SocketStage) (hstage : stage ≠ .greeting) (address : Address) :
    (l.setStage socket stage).calls address ≤ l.calls address :=
  Nat.le.intro (calls_setStage hsock stage hstage address)

theorem calls_kill (l : Lifecycle) (socket : Nat) (address : Address) :
    calls { l with sockets := l.sockets.modify socket fun s => { s with alive := false } } address =
      l.calls address := by
  have hawaits : (l.sockets.modify socket fun s => { s with alive := false }).countP
      (·.awaits address) = l.sockets.countP (·.awaits address) :=
    countP_modify_of_same (by simp [Socket.awaits, Socket.leadsTo]) _ _
  rw [calls, outboundPeers_modify l (by simp [Socket.leadsTo]) socket, calls, underway, hawaits,
    underway]

theorem calls_giveBack (l : Lifecycle) (direction : Direction) (address : Address) :
    (l.giveBack direction).calls address = l.calls address := by
  cases direction <;> rfl

theorem calls_insert_le {socket : Nat} {sock : Socket} (hsock : l.sockets[socket]? = some sock)
    (peer : PeerId) (address : Address) :
    calls { l with registry := l.registry.insert peer socket } address ≤
      l.calls address + if sock.leadsTo address then 1 else 0 := by
  have hentries := countP_setEntry_le
    (fun entry : PeerId × Nat => l.sockets[entry.2]?.any (·.leadsTo address)) peer socket
    l.registry.entries
  simp only [hsock, Option.any_some] at hentries
  simp only [calls, length_outboundPeers, underway, Table.insert]
  omega

/-- A call comes to its end with one registration. -/
theorem calls_greeted_le {socket : Nat} {sock : Socket} (hsock : l.sockets[socket]? = some sock)
    (hstage : sock.stage = .greeting) (peer : PeerId) (address : Address) :
    calls ({ l with registry := l.registry.insert peer socket }.setStage socket (.active peer))
      address ≤ l.calls address := by
  have hsame : sock.awaits address = sock.leadsTo address := by simp [Socket.awaits, hstage]
  have hinsert := calls_insert_le hsock peer address
  have hset := calls_setStage (l := { l with registry := l.registry.insert peer socket }) hsock
    (.active peer) (by simp) address
  rw [hsame] at hset
  omega

theorem outboundPeers_eq_nil_of_free (h : ¬ l.isConnected address) :
    l.outboundPeers address = [] := by
  apply List.filter_eq_nil_iff.mpr
  intro entry hentry hleads
  obtain ⟨sock, hsock, hsame⟩ := (Option.any_eq_true _ _).mp hleads
  apply h
  have haddress : sock.address = address := by
    simp only [Socket.leadsTo, decide_eq_true_eq] at hsame
    exact hsame.2
  exact List.any_eq_true.mpr ⟨entry, hentry, by simp [hsock, haddress]⟩

theorem calls_checked (address other : Address) :
    calls { l with dials := l.dials ++ [other] } address =
      l.calls address + if other = address then 1 else 0 := by
  simp only [calls, underway, outboundPeers, List.count_append, List.count_singleton, beq_iff_eq]
  omega

theorem calls_eraseIdx {dial : Nat} {other : Address} (hdial : l.dials[dial]? = some other)
    (address : Address) :
    calls { l with dials := l.dials.eraseIdx dial } address + (if other = address then 1 else 0) =
      l.calls address := by
  have hcount := count_eraseIdx_add hdial address
  simp only [calls, underway, outboundPeers]
  omega

/-- A dial that is answered goes on as a socket. -/
theorem underway_opened {dial : Nat} {other : Address} (hdial : l.dials[dial]? = some other)
    (address : Address) :
    underway { l with
      dials := l.dials.eraseIdx dial
      sockets := l.sockets ++ [⟨other, .outbound, .greeting, true⟩] } address =
      l.underway address := by
  have hcount := count_eraseIdx_add hdial address
  have hawaits : Socket.awaits ⟨other, .outbound, .greeting, true⟩ address =
      decide (other = address) := by
    simp [Socket.awaits, Socket.leadsTo]
  simp only [underway, List.countP_append, List.countP_singleton, hawaits, decide_eq_true_eq]
  omega

theorem calls_opened (hl : l.Wired) {dial : Nat} {other : Address}
    (hdial : l.dials[dial]? = some other) (address : Address) :
    calls { l with
      dials := l.dials.eraseIdx dial
      sockets := l.sockets ++ [⟨other, .outbound, .greeting, true⟩] } address =
      l.calls address := by
  rw [calls, underway_opened hdial]
  exact congrArg (l.underway address + List.length ·) (outboundPeers_append hl _ address)

/-- Calls that do not overlap lead to one peer at most. -/
theorem calls_of_step? (hl : l.Wired) (h : l.step? event = some after)
    (hoverlap : l.overlap event ≠ some address) (hle : l.calls address ≤ 1) :
    after.calls address ≤ 1 := by
  cases takes_of_step? h with
  | accepted other permits hlistening hpermits =>
      have hcalls := calls_append hl ⟨other, .inbound, .greeting, true⟩ address
      rw [if_neg (by simp [Socket.awaits, Socket.leadsTo])] at hcalls
      exact Nat.le_trans (Nat.le_of_eq hcalls) hle
  | checked other hfree =>
      rw [calls_checked]
      split
      next hother =>
        subst hother
        have hnone : l.underway other = 0 := by
          by_contra hsome
          exact hoverlap (if_neg hsome)
        simp [calls, hnone, outboundPeers_eq_nil_of_free hfree]
      next => exact hle
  | opened dial other hdial =>
      rw [calls_opened hl hdial]
      exact hle
  | unreachable dial other hdial =>
      exact Nat.le_trans (Nat.le.intro (calls_eraseIdx hdial address)) hle
  | greeted socket sock hsock hstage =>
      exact Nat.le_trans (calls_greeted_le hsock hstage ⟨l.nextId⟩ address) hle
  | failed socket sock hsock hstage =>
      rw [calls_giveBack]
      exact Nat.le_trans (calls_setStage_le hsock _ (by simp) address) hle
  | ended socket sock peer hsock hstage =>
      have hset := calls_setStage_le hsock (.leaving peer l.departures.length) (by simp) address
      exact Nat.le_trans hset hle
  | removed departure peer socket hdeparture hregistered =>
      have hfewer : calls { l with registry := l.registry.erase peer } address ≤
          l.calls address :=
        Nat.add_le_add_left (List.filter_sublist.filter _).length_le _
      exact Nat.le_trans hfewer hle
  | killed departure peer socket hdeparture =>
      exact Nat.le_trans (Nat.le_of_eq (calls_kill l socket address)) hle
  | finished socket sock peer departure hsock hstage hover =>
      rw [calls_giveBack]
      exact Nat.le_trans (calls_setStage_le hsock _ (by simp) address) hle
  | _ => exact hle

theorem calls_of_run? (hl : l.Wired) (h : l.run? events = some after)
    (hoverlap : address ∉ l.record overlap events) (hle : l.calls address ≤ 1) :
    after.calls address ≤ 1 := by
  revert hoverlap
  refine run_induction (motive := fun events after =>
    address ∉ l.record overlap events → after.calls address ≤ 1) (fun _ => hle) ?_ h
  intro events middle event after hrun ih hstep hoverlap
  rw [record_concat hrun (Option.isSome_of_eq_some hstep), List.mem_append, not_or,
    Option.mem_toList] at hoverlap
  exact calls_of_step? (wired_of_run? hrun hl) hstep hoverlap.2 (ih hoverlap.1)

theorem overlap_eq_some_iff :
    l.overlap event = some address ↔ event = .check address ∧ l.underway address ≠ 0 := by
  cases event with
  | check other =>
      simp only [overlap, Event.check.injEq]
      split
      next hnone =>
        simp only [reduceCtorEq, false_iff, not_and, not_not]
        rintro rfl
        exact hnone
      next hsome =>
        rw [Option.some.injEq]
        refine ⟨fun heq => ⟨heq, heq ▸ hsome⟩, And.left⟩
  | _ => simp [overlap]

/-! ## Calls that overlap -/

/-- All dials to an address can be answered. -/
theorem exists_dials_answered (l : Lifecycle) (address : Address) :
    ∃ after, l.RunsTo (· ≠ .check address) after ∧ after.dials.count address = 0 ∧
      after.underway address = l.underway address := by
  induction hcount : l.dials.count address generalizing l with
  | zero => exact ⟨l, .refl l _, hcount, rfl⟩
  | succ n ih =>
      have hmem : address ∈ l.dials := List.count_pos_iff.mp (by omega)
      obtain ⟨dial, hdial⟩ := List.getElem?_of_mem hmem
      have hstep : l.step? (.opened dial) = some { l with
          dials := l.dials.eraseIdx dial
          sockets := l.sockets ++ [⟨address, .outbound, .greeting, true⟩] } := by
        rw [step?, opened?, hdial]
        rfl
      have hless := count_eraseIdx_add hdial address
      rw [if_pos rfl] at hless
      have hn : (l.dials.eraseIdx dial).count address = n := by omega
      obtain ⟨after, hruns, hnone, hsame⟩ := ih { l with
        dials := l.dials.eraseIdx dial
        sockets := l.sockets ++ [⟨address, .outbound, .greeting, true⟩] } hn
      exact ⟨after, .trans (.single _ (by simp) hstep) hruns, hnone,
        hsame.trans (underway_opened hdial address)⟩

/-- A call that waits for its greetings can register its peer beside those of other numbers. -/
theorem exists_registered (h : 0 < l.sockets.countP (·.awaits address)) :
    ∃ socket after, l.step? (.greeted socket) = some after ∧ after.nextId = l.nextId + 1 ∧
      after.sockets.countP (·.awaits address) + 1 = l.sockets.countP (·.awaits address) ∧
      (⟨l.nextId⟩, socket) ∈ after.outboundPeers address ∧
      ∀ entry ∈ l.outboundPeers address, entry.1 ≠ ⟨l.nextId⟩ →
        entry ∈ after.outboundPeers address := by
  obtain ⟨sock, hsock, hawaits⟩ := List.countP_pos_iff.mp h
  obtain ⟨socket, hsocket⟩ := List.getElem?_of_mem hsock
  obtain ⟨hleads, hgreeting⟩ : sock.leadsTo address ∧ sock.stage = .greeting := by
    simpa [Socket.awaits] using hawaits
  have hstep : l.step? (.greeted socket) = some ({ l with
      nextId := l.nextId + 1
      registry := l.registry.insert ⟨l.nextId⟩ socket }.setStage socket (.active ⟨l.nextId⟩)) := by
    rw [step?, greeted?_of_greeting hsocket hgreeting, Option.map_some]
  have hcount := countP_modify (·.awaits address)
    (fun s => { s with stage := .active ⟨l.nextId⟩ }) hsocket
  rw [if_pos hawaits, if_neg (by simp [Socket.awaits])] at hcount
  -- where a socket leads to does not change
  have hsame : ∀ other : Nat, (l.sockets.modify socket fun s =>
      { s with stage := .active ⟨l.nextId⟩ })[other]?.any (·.leadsTo address) =
        l.sockets[other]?.any (·.leadsTo address) :=
    any_getElem?_modify _ (by simp [Socket.leadsTo]) l.sockets socket
  refine ⟨socket, _, hstep, rfl, hcount, ?_, fun entry hentry hne => ?_⟩
  · apply List.mem_filter.mpr
    exact ⟨self_mem_setEntry _ _ _, (hsame socket).trans (by simp [hsocket, hleads])⟩
  · obtain ⟨hregistered, hleads⟩ := List.mem_filter.mp hentry
    apply List.mem_filter.mpr
    exact ⟨mem_setEntry_of_ne _ hregistered hne, (hsame entry.2).trans hleads⟩

/-- Two calls that are under way can both register a peer. -/
theorem exists_two_outboundPeers (h : 2 ≤ l.underway address) :
    ∃ after, l.RunsTo (· ≠ .check address) after ∧ 2 ≤ (after.outboundPeers address).length := by
  obtain ⟨answered, hanswered, hnone, hsame⟩ := exists_dials_answered l address
  have hwaiting : 2 ≤ answered.sockets.countP (·.awaits address) := by
    simp only [underway] at h hsame
    omega
  obtain ⟨first, middle, hfirst, hnext, hless, hpeer, -⟩ :=
    exists_registered (Nat.lt_of_lt_of_le Nat.zero_lt_two hwaiting)
  have hwaiting' : 0 < middle.sockets.countP (·.awaits address) := by omega
  obtain ⟨second, after, hsecond, -, -, hpeer', hkeeps⟩ := exists_registered hwaiting'
  have hne : (⟨answered.nextId⟩ : PeerId) ≠ ⟨middle.nextId⟩ := by simp [hnext]
  have hpair : [((⟨answered.nextId⟩ : PeerId), first), (⟨middle.nextId⟩, second)].Nodup := by
    simp [hne]
  refine ⟨after,
    (hanswered.trans (.single _ (by simp) hfirst)).trans (.single _ (by simp) hsecond), ?_⟩
  apply (List.subperm_of_subset hpair _).length_le
  simpa using ⟨hkeeps _ hpeer hne, hpeer'⟩

/-- An outbound peer for an address is the only one, whatever the calls that are under way come to,
exactly if no call to the address finds it free while another one is under way. -/
theorem outboundPeers_le_one_iff (hstart : start? permits = some start)
    (h : start.run? events = some l) (address : Address) :
    address ∉ start.record overlap events ↔
      ∀ first middle later, first <+: events → start.run? first = some middle →
        middle.RunsTo (· ≠ .check address) later →
          (later.outboundPeers address).length ≤ 1 := by
  have hwired := wired_of_start? hstart
  constructor
  · rintro hoverlap first middle later ⟨rest, rfl⟩ hfirst ⟨more, hmore, hlater⟩
    rw [record_append hfirst, List.mem_append, not_or] at hoverlap
    have hidle : start.calls address ≤ 1 := by
      obtain rfl := eq_of_start? hstart
      exact Nat.zero_le 1
    have hmiddle := calls_of_run? hwired hfirst hoverlap.1 hidle
    have hquiet : address ∉ middle.record overlap more := fun hmem => by
      obtain ⟨before, event, after, reached, rfl, -, hover⟩ := exists_of_mem_record hmem
      exact hmore event (by simp) (overlap_eq_some_iff.mp hover).1
    have hcalls := calls_of_run? (wired_of_run? hfirst hwired) hlater hquiet hmiddle
    exact Nat.le_trans (Nat.le_add_left _ _) hcalls
  · intro hle hmem
    obtain ⟨before, event, rest, middle, rfl, hbefore, hover⟩ := exists_of_mem_record hmem
    obtain ⟨rfl, hunderway⟩ := overlap_eq_some_iff.mp hover
    rw [run?_append, hbefore, Option.bind_some] at h
    obtain ⟨next, hstep, -⟩ := Option.bind_eq_some_iff.mp h
    -- both calls are under way now
    have htwo : 2 ≤ next.underway address := by
      cases takes_of_step? hstep with
      | checked _ hfree =>
          simp only [underway, List.count_append, List.count_singleton_self] at hunderway ⊢
          omega
    obtain ⟨later, hlater, hmany⟩ := exists_two_outboundPeers htwo
    have hone := hle (before ++ [.check address]) next later ⟨rest, by simp⟩
      (run?_concat.mpr ⟨middle, hbefore, hstep⟩) hlater
    omega

/-- A node that has not started, and a peer that greets whoever calls it. -/
def host? : Option Simulation.Network :=
  Simulation.Network.start? ⟨⟨6, true⟩, 30⟩ "127.0.0.1:0" 8 65536 (.memory .empty)
    (.ofList [("x", Handshake.greeting)])

/-- Two calls look for an address before either of them has registered a peer. So do those of a node
that is started with one known peer twice. The peer can be seen to be called twice even behind that:
it gives up the connection it had, and the one that is left bears the second number. -/
theorem outboundPeers_of_overlap :
    (∃ start l, start? 64 = some start ∧
      start.run? [.check "peer", .check "peer", .opened 0, .opened 0, .greeted 0, .greeted 1] =
        some l ∧
      l.outboundPeers "peer" = [(⟨1⟩, 0), (⟨2⟩, 1)]) ∧
    ∃ host, host? = some host ∧
      (host.act (.start ["x", "x"])).2.node.lifecycle.outboundPeers "<x>" =
        [(⟨1⟩, 0), (⟨2⟩, 1)] ∧
      (host.step (.start ["x", "x"])).2.peers = [(⟨2⟩, .outbound)] :=
  ⟨⟨_, _, rfl, rfl, by decide⟩, _, rfl, by decide +kernel, by decide +kernel⟩

/-- A peer that is gone is called again. -/
theorem outboundPeers_le_one_again : ∃ start l,
    start? 64 = some start ∧
      start.run? [.check "peer", .opened 0, .greeted 0, .ended 0, .departed 0, .check "peer",
        .opened 0, .greeted 1] = some l ∧
      (l.outboundPeers "peer").length ≤ 1 := by
  refine ⟨_, _, rfl, rfl, ?_⟩
  exact (@outboundPeers_le_one_iff _ _ [.check "peer", .opened 0, .greeted 0, .ended 0, .departed 0,
    .check "peer", .opened 0, .greeted 1] 64 rfl rfl "peer").mp (by decide) _ _ _
      (List.prefix_refl _) rfl (.refl _ _)

end Lifecycle

end ChatRelay
