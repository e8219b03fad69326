import ChatRelay.Proofs.RateLimiter
import ChatRelay.Proofs.Station.Answers
import ChatRelay.Proofs.Station.Deliveries
import ChatRelay.Proofs.Station.Reading
import ChatRelay.Proofs.Station.Traffic

/-!
# What a session has read

After the greeting a session reads the frames of its stream one after the other, drops those that
are over the limit of their kind and handles the rest, each to its end before it reads on. Behind a
delivery that does not decode it reads no more.
-/

namespace ChatRelay

/-- A frame that a session has read: when, and whether its kind's limit let it through. -/
structure Reading where
  time : Nat
  frame : Frame
  allowed : Bool

/-- What the limits of a new connection say to frames that are read one after the other. -/
def Reading.limited (readings : List Reading) : List Bool × RateLimiter Frame.Kind :=
  Frame.limiter.checkAll (readings.map fun r => (r.time, r.frame.kind))

/-- The frames that are let through. -/
def Reading.passed (readings : List Reading) : List Frame :=
  (readings.filter (·.allowed)).map (·.frame)

/-- Whether a frame is a delivery that does not decode. -/
def Frame.Spoils : Frame → Prop
  | .data body => ∃ cause, Message.decode body = .error cause
  | _ => False

/-! ## Limits and streams -/

theorem Reading.limited_append (readings : List Reading) (r : Reading) :
    limited (readings ++ [r]) =
      ((limited readings).1 ++ [((limited readings).2.check r.time r.frame.kind).1],
        ((limited readings).2.check r.time r.frame.kind).2) := by
  rw [limited, List.map_append, RateLimiter.checkAll_append]
  rfl

/-- Behind frames that fit a stream is read on. -/
theorem Frame.readAll_append {bound : Nat} {frames : List Frame}
    (hfits : ∀ frame ∈ frames, frame.Fits bound) (rest : Bytes) :
    readAll bound (frames.flatMap octets ++ rest) =
      (frames ++ (readAll bound rest).1, (readAll bound rest).2) := by
  induction frames with
  | nil => rfl
  | cons frame frames ih =>
      obtain ⟨hfirst, hlater⟩ := List.forall_mem_cons.mp hfits
      rw [List.flatMap_cons, List.append_assoc, readAll_of_complete (hfirst.read _), ih hlater]
      rfl

/-- Greetings leave the channels as they are, or take the greeting of a socket that was not yet done
with it. -/
theorem Node.greet_channels {σ : Type} (node : Node σ) (target : Nat) (late : Bool) :
    (node.greet target late).2.channels = node.channels ∨
      ∃ rest, ¬ node.lifecycle.Settled target ∧ (node.greet target late).2.channels =
        node.channels.modify target fun c => { c with inbox := rest } := by
  have hfailed : (node.failGreeting target).channels = node.channels := by
    unfold failGreeting advance
    split <;> rfl
  unfold greet
  split
  next => exact .inl rfl
  next channel hchannel =>
    split
    next =>
      split
      · exact .inl hfailed
      · split
        · exact .inl hfailed
        · exact .inl rfl
    next => exact .inl hfailed
    next rest hread =>
      split
      next => exact .inl rfl
      next peer lifecycle hgreeted =>
        exact .inr ⟨rest, Lifecycle.not_settled_of_greeted hgreeted, rfl⟩

namespace Station

variable {B : OutpointStore} {fails : StoreCall → Prop}
  {answers : (call : LedgerCall) → call.Answer → Prop} {s t u : Station B} {move : Move}
  {socket : Nat} {peer : PeerId}

/-! ## Runs -/

variable (fails answers) in
/-- A run of a node with the moves that were made. -/
inductive Course : Station B → List Move → Station B → Prop
  | refl (s : Station B) : Course s [] s
  | tail {s t u : Station B} {moves : List Move} {move : Move} (h : Course s moves t)
      (hstep : Step fails answers t move u) : Course s (moves ++ [move]) u

/-- What arrives on a socket by moves, put together. -/
def arrived (socket : Nat) (moves : List Move) : Bytes :=
  moves.flatMap fun
    | .receive target bytes => if target = socket then bytes else []
    | _ => []

theorem arrived_append (first second : List Move) :
    arrived socket (first ++ second) = arrived socket first ++ arrived socket second :=
  List.flatMap_append

/-! ## Channels -/

/-- What a step does to the channel of a socket: it leaves it as it is, adds to it what arrives, or
takes a frame from it that the session reads. Before that only a greeting is taken. -/
inductive Tends (s : Station B) (socket : Nat) (channel : Channel) (t : Station B)
    (after : Channel) : Move → Prop
  | quiet {move : Move} (hinbox : after.inbox = channel.inbox)
      (hlimiter : after.limiter = channel.limiter) (htaken : t.taken socket = s.taken socket)
      (hmove : ∀ bytes, move ≠ .receive socket bytes) : Tends s socket channel t after move
  | greets (hunsettled : ¬ s.node.lifecycle.Settled socket)
      (hlimiter : after.limiter = channel.limiter) : Tends s socket channel t after .disturb
  | arrives (bytes : Bytes) (hinbox : after.inbox = channel.inbox ++ bytes)
      (hlimiter : after.limiter = channel.limiter) (htaken : t.taken socket = s.taken socket) :
      Tends s socket channel t after (.receive socket bytes)
  | reads {move : Move} (now : Nat) (peer : PeerId) (frame : Frame) (allowed : Bool)
      (hactive : s.node.lifecycle.Active socket peer) (hready : s.Ready socket)
      (hread : Frame.read s.node.maxMessage channel.inbox = .complete frame after.inbox)
      (hlimit : channel.limiter.check now frame.kind = (allowed, after.limiter))
      (htaken : t.taken socket = s.taken socket ++ if allowed then [frame] else [])
      (hmove : ∀ bytes, move ≠ .receive socket bytes) : Tends s socket channel t after move

theorem Step.tends (h : Step fails answers s move t) {channel : Channel}
    (hchannel : s.node.channels[socket]? = some channel) :
    ∃ after, t.node.channels[socket]? = some after ∧ Tends s socket channel t after move := by
  have hwork : ∀ bytes, Move.work ≠ .receive socket bytes := nofun
  have hdisturb : ∀ bytes, Move.disturb ≠ .receive socket bytes := nofun
  have hquiet : ∀ {t : Station B} {move : Move}, t.node.channels[socket]? = some channel →
      t.taken socket = s.taken socket → (∀ bytes, move ≠ .receive socket bytes) →
      ∃ after, t.node.channels[socket]? = some after ∧ Tends s socket channel t after move :=
    fun hsame htaken hmove => ⟨channel, hsame, .quiet rfl rfl htaken hmove⟩
  have htaken : ∀ {t : Station B} {k : Nat} {handler after : Handler},
      s.handlers[k]? = some handler → t.handlers = s.handlers.set k after →
      after.errand = handler.errand → t.taken socket = s.taken socket :=
    fun hhandler hset herrand => congrFun (taken_set hhandler hset herrand) socket
  -- a change of the channel of some socket
  have hchange : ∀ {t : Station B} {move : Move} {target : Nat} {change : Channel → Channel},
      t.node.channels = s.node.channels.modify target change →
      (target = socket → Tends s socket channel t (change channel) move) →
      (target ≠ socket → t.taken socket = s.taken socket ∧
        ∀ bytes, move ≠ .receive socket bytes) →
      ∃ after, t.node.channels[socket]? = some after ∧ Tends s socket channel t after move := by
    intro t move target change hmodify hself hother
    by_cases htarget : target = socket
    · refine ⟨change channel, ?_, hself htarget⟩
      rw [hmodify, htarget, List.getElem?_modify_eq, hchannel]
      rfl
    · obtain ⟨htaken, hmove⟩ := hother htarget
      refine hquiet ?_ htaken hmove
      rw [hmodify, List.getElem?_modify_ne change _ htarget, hchannel]
  cases h with
  | connect event lifecycle hevent hstep =>
      obtain ⟨hlt, -⟩ := List.getElem?_eq_some_iff.mp hchannel
      exact hquiet ((List.getElem?_append_left hlt).trans hchannel) rfl hdisturb
  | greet target late =>
      rcases s.node.greet_channels target late with hsame | ⟨rest, hunsettled, hmodify⟩
      · exact hquiet (hsame ▸ hchannel) rfl hdisturb
      · exact hchange hmodify (fun htarget => .greets (htarget ▸ hunsettled) rfl)
          fun _ => ⟨rfl, hdisturb⟩
  | receive target bytes =>
      refine hchange rfl ?_ fun htarget => ⟨rfl, fun _ heq => htarget (Move.receive.inj heq).1⟩
      rintro rfl
      exact .arrives bytes rfl rfl rfl
  | endStream target =>
      exact hchange rfl (fun _ => .quiet rfl rfl rfl hdisturb) fun _ => ⟨rfl, hdisturb⟩
  | take target peer frame node hreads =>
      cases hreads with
      | intro now shown rest limiter hactive halive hready hshown hread hlimit =>
          refine hchange rfl ?_ fun htarget => ⟨?_, hwork⟩
          · rintro rfl
            obtain rfl := Option.some.inj (hchannel.symm.trans hshown)
            refine .reads now peer frame true hactive hready hread hlimit ?_ hwork
            simp [taken, Handler.begin, Errand.frameOn]
          · simp [taken, Handler.begin, Errand.frameOn, htarget]
  | drop target peer frame node hreads =>
      cases hreads with
      | intro now shown rest limiter hactive halive hready hshown hread hlimit =>
          refine hchange rfl ?_ fun htarget => ⟨rfl, hdisturb⟩
          rintro rfl
          obtain rfl := Option.some.inj (hchannel.symm.trans hshown)
          exact .reads now peer frame false hactive hready hread hlimit
            (List.append_nil _).symm hdisturb
  | submit message =>
      refine hquiet hchannel ?_ (by simp)
      simp [taken, Handler.begin, Errand.frameOn]
  | store k handler call next answer world hhandler hstage hserved =>
      exact hquiet hchannel (htaken hhandler rfl rfl) hwork
  | decide k handler message next hhandler hstage =>
      exact hquiet hchannel (htaken hhandler rfl rfl) hwork
  | proceed k handler run after exchanges next slots world serve hserve hhandler hstage hstep =>
      exact hquiet hchannel (htaken hhandler rfl rfl) hwork
  | decided k handler run exchanges next result hhandler hstage hphase =>
      exact hquiet hchannel (htaken hhandler rfl rfl) hwork
  | reply k handler frame next target node hhandler hstage hsocket hsent =>
      obtain ⟨-, bytes, -, rfl⟩ := Node.sent_of_send hsent
      exact hchange rfl (fun _ => .quiet rfl rfl (htaken hhandler rfl rfl) hwork)
        fun _ => ⟨htaken hhandler rfl rfl, hwork⟩
  | unanswered k handler frame next hhandler hstage =>
      exact hquiet hchannel (htaken hhandler rfl rfl) hdisturb
  | announce k handler source outpoint next hhandler hstage =>
      exact hquiet hchannel (htaken hhandler rfl rfl) hwork
  | dispatch j dispatch node hdispatch hfate hsent =>
      obtain ⟨-, bytes, -, rfl⟩ := Node.sent_of_send hsent
      exact hchange rfl (fun _ => .quiet rfl rfl rfl hwork) fun _ => ⟨rfl, hwork⟩
  | _ => exact hquiet hchannel rfl hdisturb

/-- A channel that is new in a step is fresh. -/
theorem Step.fresh_of_new (h : Step fails answers s move t)
    (hnone : s.node.channels[socket]? = none) {channel : Channel}
    (hchannel : t.node.channels[socket]? = some channel) : channel = .fresh := by
  have hlong := List.getElem?_eq_none_iff.mp hnone
  obtain ⟨hlt, -⟩ := List.getElem?_eq_some_iff.mp hchannel
  have hmodify : ∀ {target : Nat} {change : Channel → Channel},
      t.node.channels = s.node.channels.modify target change → channel = .fresh := by
    intro target change hmodify
    rw [hmodify, List.length_modify] at hlt
    omega
  cases h with
  | connect event lifecycle hevent hstep =>
      rw [Node.follow, List.getElem?_append_right hlong] at hchannel
      exact List.eq_of_mem_replicate (List.mem_of_getElem? hchannel)
  | greet target late =>
      rcases s.node.greet_channels target late with hsame | ⟨rest, -, hsame⟩
      · dsimp only at hlt
        rw [hsame] at hlt
        omega
      · exact hmodify hsame
  | receive target bytes => exact hmodify rfl
  | endStream target => exact hmodify rfl
  | take target peer frame node hreads =>
      cases hreads
      exact hmodify rfl
  | drop target peer frame node hreads =>
      cases hreads
      exact hmodify rfl
  | reply k handler frame next target node hhandler hstage hsocket hsent =>
      obtain ⟨-, bytes, -, rfl⟩ := Node.sent_of_send hsent
      exact hmodify rfl
  | dispatch j dispatch node hdispatch hfate hsent =>
      obtain ⟨-, bytes, -, rfl⟩ := Node.sent_of_send hsent
      exact hmodify rfl
  | _ => exact absurd hlt (Nat.not_lt.mpr hlong)

/-- Before a socket is done with its greeting, no frame counts against its limits. -/
def Unlimited (s : Station B) : Prop :=
  ∀ socket channel, s.node.channels[socket]? = some channel →
    ¬ s.node.lifecycle.Settled socket → channel.limiter = Frame.limiter

theorem Unlimited.step (hs : s.Unlimited) (h : Step fails answers s move t) : t.Unlimited := by
  intro socket after hafter hunsettled
  have hbefore : ¬ s.node.lifecycle.Settled socket := mt (h.keeps.settled socket) hunsettled
  cases hchannel : s.node.channels[socket]? with
  | none =>
      obtain rfl := h.fresh_of_new hchannel hafter
      rfl
  | some channel =>
      obtain ⟨shown, hshown, htends⟩ := h.tends hchannel
      obtain rfl := Option.some.inj (hafter.symm.trans hshown)
      cases htends with
      | quiet hinbox hlimiter => exact hlimiter.trans (hs socket channel hchannel hbefore)
      | greets hgreeting hlimiter => exact hlimiter.trans (hs socket channel hchannel hbefore)
      | arrives bytes hinbox hlimiter => exact hlimiter.trans (hs socket channel hchannel hbefore)
      | reads now peer frame allowed hactive =>
          exact absurd (Lifecycle.settled_of_active hactive) hbefore

/-! ## What has been read -/

/-- How far the session of a peer has come on a stream: what it has read is what the stream begins
with, what has arrived behind that has not been read, and of what was read the session has taken
what its limits let through. Behind a delivery that does not decode it has read no more. -/
structure Heard (s : Station B) (socket : Nat) (peer : PeerId) (stream : Bytes)
    (readings : List Reading) : Prop where
  settled : s.node.lifecycle.Settled socket
  alone : ∀ other, s.node.lifecycle.Active socket other → other = peer
  fits : ∀ r ∈ readings, r.frame.Fits s.node.maxMessage
  channel : ∃ channel, s.node.channels[socket]? = some channel ∧
    stream = (readings.map (·.frame)).flatMap Frame.octets ++ channel.inbox ∧
    Reading.limited readings = (readings.map (·.allowed), channel.limiter)
  taken : s.taken socket = Reading.passed readings
  unspoiled : ∀ r ∈ readings.dropLast, r.allowed → ¬ r.frame.Spoils

variable (answers) in
/-- The handlers of a session whose store calls succeed: each is on its errand for the session's
peer, and was begun when those before it were over and the session went on. -/
structure Attended (s : Station B) (socket : Nat) (peer : PeerId) : Prop where
  coherent : ∀ handler ∈ s.handlers, handler.errand.socket? = some socket →
    handler.Coherent (fun _ => False) answers
  performed : ∀ handler ∈ s.handlers, handler.errand.socket? = some socket →
    ∀ (call : StoreCall) (answer : call.Answer), ⟨.store call, answer⟩ ∈ handler.transcript →
      ∃ before after, Holdings.Performs call before answer after
  peer : ∀ handler ∈ s.handlers, handler.errand.socket? = some socket →
    ∃ frame, handler.errand = .session socket peer frame
  serial : ∀ (i j : Nat) (first second : Handler), i < j → s.handlers[i]? = some first →
    s.handlers[j]? = some second → first.errand.socket? = some socket →
    second.errand.socket? = some socket → first.stage = .running (.done (.session none))

/-- A handler is begun for a session when those before it were over and the session went on. -/
theorem Step.ready_of_begun (h : Step fails answers s move t) {errand : Errand}
    (hbegin : t.handlers = s.handlers ++ [.begin errand]) (hsocket : errand.socket? = some socket) :
    s.Ready socket ∧ ∃ peer frame, errand = .session socket peer frame ∧
      s.node.lifecycle.Active socket peer := by
  have hgrown : t.handlers.length = s.handlers.length + 1 := by simp [hbegin]
  have hsame : ∀ {begun : Errand}, t.handlers = s.handlers ++ [.begin begun] → errand = begun := by
    intro begun hbegun
    have hlast := List.append_cancel_left (hbegin.symm.trans hbegun)
    exact congrArg Handler.errand (List.singleton_inj.mp hlast)
  cases h with
  | take target peer frame node hreads =>
      cases hreads with
      | intro now channel rest limiter hactive halive hready hchannel hread hlimit =>
          obtain rfl := hsame rfl
          obtain rfl := Option.some.inj hsocket
          exact ⟨hready, peer, frame, rfl, hactive⟩
  | submit message =>
      obtain rfl := hsame rfl
      cases hsocket
  | _ => simp at hgrown

theorem Attended.step (hs : s.Attended answers socket peer)
    (halone : ∀ other, s.node.lifecycle.Active socket other → other = peer)
    (h : Step (fun _ => False) answers s move t) : t.Attended answers socket peer where
  coherent after hafter hsocket := by
    obtain ⟨k, hk⟩ := List.getElem?_of_mem hafter
    rcases h.handler_cases hk with hsame | ⟨handler, hhandler, hadvances⟩ | ⟨errand, rfl⟩
    · exact hs.coherent after (List.mem_of_getElem? hsame) hsocket
    · refine (hs.coherent handler (List.mem_of_getElem? hhandler) ?_).advance hadvances
      rw [← hadvances.grows.errand, hsocket]
    · exact Handler.coherent_begin errand
  performed after hafter hsocket call answer hsaid := by
    obtain ⟨k, hk⟩ := List.getElem?_of_mem hafter
    cases h.past hk with
    | new errand hnone hbegins => cases hsaid
    | silent handler _ hhandler herrand htranscript haudience =>
        exact hs.performed handler (List.mem_of_getElem? hhandler) (herrand ▸ hsocket) call answer
          (htranscript ▸ hsaid)
    | said handler _ said hhandler herrand htranscript haudience heffect =>
        rw [htranscript] at hsaid
        rcases List.mem_append.mp hsaid with hold | hnew
        · exact hs.performed handler (List.mem_of_getElem? hhandler) (herrand ▸ hsocket) call answer
            hold
        · obtain rfl := List.mem_singleton.mp hnew
          cases heffect with
          | store call answer hserved =>
              exact ⟨_, _, hserved.resolve_right fun hfailed => hfailed.1⟩
  peer after hafter hsocket := by
    obtain ⟨k, hk⟩ := List.getElem?_of_mem hafter
    rcases h.handlers with hsame | ⟨errand, hbegin⟩ | ⟨j, handler, moved, hhandler, hadvances, hset⟩
    · exact hs.peer after (hsame ▸ hafter) hsocket
    · rw [hbegin] at hafter
      rcases List.mem_append.mp hafter with hold | hnew
      · exact hs.peer after hold hsocket
      · obtain rfl := List.mem_singleton.mp hnew
        obtain ⟨-, other, frame, rfl, hactive⟩ := h.ready_of_begun hbegin hsocket
        exact ⟨frame, by rw [halone other hactive]; rfl⟩
    · rw [hset] at hafter
      rcases List.mem_or_eq_of_mem_set hafter with hold | rfl
      · exact hs.peer after hold hsocket
      · rw [hadvances.grows.errand] at hsocket ⊢
        exact hs.peer handler (List.mem_of_getElem? hhandler) hsocket
  serial i j first second hij hfirst hsecond hon hon' := by
    rcases h.handlers with hsame | ⟨errand, hbegin⟩ | ⟨k, handler, moved, hhandler, hadvances, hset⟩
    · rw [hsame] at hfirst hsecond
      exact hs.serial i j first second hij hfirst hsecond hon hon'
    · obtain ⟨hlt, -⟩ := List.getElem?_eq_some_iff.mp hsecond
      rw [hbegin, List.length_append, List.length_singleton] at hlt
      rw [hbegin, List.getElem?_append_left (by omega)] at hfirst
      rw [hbegin, List.getElem?_append] at hsecond
      split at hsecond
      · exact hs.serial i j first second hij hfirst hsecond hon hon'
      · obtain rfl := List.mem_singleton.mp (List.mem_of_getElem? hsecond)
        exact (h.ready_of_begun hbegin hon').1 first (List.mem_of_getElem? hfirst) hon
    · rw [hset] at hfirst hsecond
      rcases getElem?_set_cases hfirst with ⟨rfl, rfl⟩ | hfirst'
      · -- who moves on is not over, and so nothing was begun behind it
        rw [hadvances.grows.errand] at hon
        rcases getElem?_set_cases hsecond with ⟨rfl, -⟩ | hsecond'
        · exact absurd hij (Nat.lt_irrefl _)
        · exact absurd ⟨_, hs.serial k j handler second hij hhandler hsecond' hon hon'⟩
            hadvances.not_over
      · rcases getElem?_set_cases hsecond with ⟨rfl, rfl⟩ | hsecond'
        · rw [hadvances.grows.errand] at hon'
          exact hs.serial i k first handler hij hfirst' hhandler hon hon'
        · exact hs.serial i j first second hij hfirst' hsecond' hon hon'

/-- A session that is ready has handled no delivery that does not decode. -/
theorem Attended.unspoiled (hs : s.Attended answers socket peer) (hready : s.Ready socket)
    {frame : Frame} (htaken : frame ∈ s.taken socket) : ¬ frame.Spoils := by
  obtain ⟨handler, hhandler, other, herrand⟩ := mem_taken.mp htaken
  have hsocket : handler.errand.socket? = some socket := by rw [herrand]; rfl
  have hruns := (hs.coherent handler hhandler hsocket).runs herrand
    (hready handler hhandler hsocket)
  cases frame with
  | data body =>
      rintro ⟨cause, hdecode⟩
      cases (Session.runs_receiveMessage_of_error hdecode hruns).1
  | inv outpoints => exact id
  | getData outpoint => exact id

theorem arrived_of_ne (hmove : ∀ bytes, move ≠ .receive socket bytes) :
    arrived socket [move] = [] := by
  cases move with
  | receive target bytes =>
      have htarget : target ≠ socket := fun heq => hmove bytes (by rw [heq])
      simp [arrived, htarget]
  | _ => rfl

/-- A step reads on in the stream, or leaves it as it is. -/
theorem Heard.step {stream : Bytes} {readings : List Reading}
    (hs : s.Heard socket peer stream readings) (hattended : s.Attended answers socket peer)
    (h : Step (fun _ => False) answers s move t) :
    ∃ later, t.Heard socket peer (stream ++ arrived socket [move]) later := by
  obtain ⟨channel, hchannel, hstream, hlimited⟩ := hs.channel
  obtain ⟨after, hafter, htends⟩ := h.tends hchannel
  have hsettled := h.keeps.settled socket hs.settled
  have halone : ∀ other, t.node.lifecycle.Active socket other → other = peer :=
    fun other hactive => hs.alone other (h.keeps.active socket other hs.settled hactive)
  have hfits : ∀ r ∈ readings, r.frame.Fits t.node.maxMessage := h.maxMessage ▸ hs.fits
  cases htends with
  | quiet hinbox hlimiter htaken hmove =>
      rw [arrived_of_ne hmove, List.append_nil]
      exact ⟨readings, hsettled, halone, hfits, ⟨after, hafter, hinbox ▸ hstream,
        hlimiter ▸ hlimited⟩, htaken.trans hs.taken, hs.unspoiled⟩
  | greets hunsettled => exact absurd hs.settled hunsettled
  | arrives bytes hinbox hlimiter htaken =>
      have harrived : arrived socket [.receive socket bytes] = bytes := by simp [arrived]
      refine ⟨readings, hsettled, halone, hfits, ⟨after, hafter, ?_, hlimiter ▸ hlimited⟩,
        htaken.trans hs.taken, hs.unspoiled⟩
      rw [harrived, hinbox, hstream, List.append_assoc]
  | reads now other frame allowed hactive hready hread hlimit htaken hmove =>
      obtain ⟨hinbox, hfit⟩ := Frame.eq_octets_append_of_read hread
      rw [arrived_of_ne hmove, List.append_nil]
      refine ⟨readings ++ [⟨now, frame, allowed⟩], hsettled, halone, ?_, ⟨after, hafter, ?_, ?_⟩,
        ?_, ?_⟩
      · exact List.forall_mem_append.mpr ⟨hfits, by simpa [h.maxMessage] using hfit⟩
      · rw [hstream, hinbox]
        simp
      · rw [Reading.limited_append, hlimited]
        dsimp only
        rw [hlimit, List.map_append]
        rfl
      · rw [htaken, hs.taken]
        cases allowed <;> simp [Reading.passed]
      · -- the session was ready, so that nothing read before was a reason to end
        rw [List.dropLast_concat]
        intro r hr hallowed
        refine hattended.unspoiled hready ?_
        rw [hs.taken]
        exact List.mem_map_of_mem (List.mem_filter.mpr ⟨hr, hallowed⟩)

end Station

end ChatRelay
