import ChatRelay.Proofs.Station.Acts
import ChatRelay.Proofs.Station.Sendings
import ChatRelay.Proofs.Watcher.Payloads

/-!
# What is cached and served is authentic

A message is cached by the handler that had it admitted, and brought back by the watcher after it
was pruned. Whatever peers send and whichever calls fail, what a node caches is a whole message
that has passed an admission, and only such messages are delivered, to peers that request them.
-/

namespace ChatRelay

open Routine (Secures)

/-- Whether a watcher caches, now and later, only what is vouched for. -/
def WatcherTask.Secured (fails : StoreCall → Prop)
    (answers : (call : LedgerCall) → call.Answer → Prop) (task : WatcherTask) (v : Vouching) :
    Prop :=
  match task with
  | .resting w => Watcher.Recalls v w.recent
  | .polling rest => Secures (Vouching.terms fails answers) rest
      (fun outcome v => Watcher.Recalls v outcome.2.recent) v

theorem WatcherTask.Secured.relied {fails : StoreCall → Prop}
    {answers : (call : LedgerCall) → call.Answer → Prop} {task : WatcherTask} {v w : Vouching}
    (h : task.Secured fails answers v) (hrely : (Vouching.terms fails answers).rely v w) :
    task.Secured fails answers w := by
  cases task with
  | resting watcher => exact Watcher.Recalls.rely h hrely
  | polling rest => exact Secures.relied h hrely

namespace Station

variable {B : OutpointStore} {fails : StoreCall → Prop}
  {answers : (call : LedgerCall) → call.Answer → Prop} {s t : Station B} {move : Move}

/-- Whether a message has been admitted when a lookup of its outpoint had shown an unspent output,
whose owner signed it. -/
def Passed (answers : (call : LedgerCall) → call.Answer → Prop) (s : Station B)
    (message : Message) : Prop :=
  ∃ handler ∈ s.handlers, ∃ d ∈ handler.decisions, d.message = message ∧
    ∃ admission, d.result = .ok admission ∧ ∃ e ∈ d.exchanges, ∃ script,
      e.said = ⟨.ledger (.output message.outpoint), .ok (some ⟨script, false⟩)⟩ ∧
      answers (.output message.outpoint) (.ok (some ⟨script, false⟩)) ∧
      OwnerSigned message script admission.script admission.owner

/-- Whether octets are those of a message of an outpoint, and nothing else, that has passed. -/
def Authentic (answers : (call : LedgerCall) → call.Answer → Prop) (s : Station B)
    (outpoint : Outpoint) (bytes : Bytes) : Prop :=
  ∃ message, Message.decode bytes = .ok message ∧ message.outpoint = outpoint ∧
    message.encode = bytes ∧ s.Passed answers message

theorem Passed.step {message : Message} (hpassed : s.Passed answers message)
    (h : Step fails answers s move t) : t.Passed answers message := by
  obtain ⟨handler, hhandler, d, hd, hadmitted⟩ := hpassed
  obtain ⟨k, hk⟩ := List.getElem?_of_mem hhandler
  obtain ⟨after, hafter, hgrows⟩ := h.handler_grows hk
  exact ⟨after, List.mem_of_getElem? hafter, d, hgrows.decisions.subset hd, hadmitted⟩

/-- What has passed stays passed. -/
theorem Authentic.step {o : Outpoint} {b : Bytes} (hauthentic : s.Authentic answers o b)
    (h : Step fails answers s move t) : t.Authentic answers o b := by
  obtain ⟨message, hdecode, houtpoint, hencode, hpassed⟩ := hauthentic
  exact ⟨message, hdecode, houtpoint, hencode, hpassed.step h⟩

theorem authentic_congr (h : t.handlers = s.handlers) :
    t.Authentic answers = s.Authentic answers := by
  funext o b
  simp only [Authentic, Passed, h]

/-- What a handler caches is authentic. -/
theorem Coherent.authentic (hs : s.Coherent fails answers) {handler : Handler}
    (hhandler : handler ∈ s.handlers) {o : Outpoint} {b : Bytes}
    {answer : StoreCall.Answer (.putPayload o b)}
    (hsaid : ⟨.store (.putPayload o b), answer⟩ ∈ handler.transcript) :
    s.Authentic answers o b := by
  have hcoherent := hs handler hhandler
  obtain ⟨d, hd, admission, hresult, rfl, rfl⟩ := hcoherent.cached hsaid
  refine ⟨d.message, Message.decode_encode d.message, rfl, rfl, handler, hhandler, d, hd, rfl,
    admission, hresult, ?_⟩
  have hdecided := hcoherent.decision d hd
  rw [hresult] at hdecided
  obtain ⟨-, -, -, e, he, script, hsaid, hsigned⟩ := hdecided.eq_ok_iff.mp rfl
  have hserved := hcoherent.served d hd e he
  rw [Exchange.Served, hsaid] at hserved
  exact ⟨e, he, script, hsaid, hserved.1, hsigned⟩

/-- The store of a node, and what has passed. -/
def vouching (answers : (call : LedgerCall) → call.Answer → Prop) (s : Station B) : Vouching :=
  ⟨s.held, s.Authentic answers⟩

variable (fails answers) in
/-- Nothing but authentic messages is cached, fetched or remembered by the watcher. -/
structure Clean (s : Station B) : Prop where
  coherent : s.Coherent fails answers
  cached : (s.vouching answers).Sound
  fetched : ∀ handler ∈ s.handlers, ∀ o b,
    ⟨.store (.payload o), .ok (some b)⟩ ∈ handler.transcript → s.Authentic answers o b
  task : s.task.Secured fails answers (s.vouching answers)

theorem clean_idle {node : Node B.State} {w : Watcher}
    (hempty : ∀ o, (B.holdings node.world).entries o = none) (hw : w.recent = []) :
    (idle node w).Clean fails answers where
  coherent := by simp [Coherent, idle]
  cached := by
    intro o b hentry
    cases (hempty o).symm.trans hentry
  fetched := by simp [idle]
  task := by simp [idle, WatcherTask.Secured, Watcher.Recalls, hw]

/-- A message gets into the store only by being cached. -/
theorem Clean.sound_step (hs : s.Clean fails answers) (h : Step fails answers s move t) :
    (t.vouching answers).Sound := by
  have hbefore : (⟨s.held, t.Authentic answers⟩ : Vouching).Sound :=
    fun o b hentry => (hs.cached o b hentry).step h
  have hbrought : ∀ {request : Request} {answer : request.Answer},
      request.Served Holdings.Performs fails answers s.held answer t.held →
      (∀ o b, request = .store (.putPayload o b) → t.Authentic answers o b) →
      (t.vouching answers).Sound := by
    intro request answer hserved hput
    exact Vouching.sound_of_served (v := ⟨s.held, t.Authentic answers⟩) hserved rfl hbefore hput
  have hcoherent := hs.coherent.step h
  rcases h.held_cases with hheld | hserves
  · rw [vouching, hheld]
    exact hbefore
  cases hserves with
  | handler after call answer hafter hsaid htask hserved =>
      refine hbrought hserved fun o b heq => ?_
      cases heq
      exact hcoherent.authentic hafter hsaid
  | admission k handler after e hhandler hasks hset hexchanges hbefore' hafter htask hserved =>
      obtain ⟨o, hdecides⟩ := (hs.coherent handler (List.mem_of_getElem? hhandler)).decides hasks
      rw [Exchange.Served, hbefore', hafter] at hserved
      refine hbrought hserved fun o' b heq => ?_
      -- a decision asks for other things
      rw [heq] at hdecides
      simp [Request.Decides] at hdecides
  | watcher request next answer htask hnext hhandlers hserved =>
      have hsecures := hs.task
      rw [htask] at hsecures
      dsimp only [WatcherTask.Secured] at hsecures
      rw [vouching, authentic_congr hhandlers]
      exact (hsecures _ ((Vouching.terms fails answers).rely_refl _) answer ⟨t.held, _⟩
        ⟨hs.cached, hserved, rfl⟩).1

/-- What is fetched from the store was cached. -/
theorem Clean.fetched_step (hs : s.Clean fails answers) (h : Step fails answers s move t)
    {after : Handler} (hafter : after ∈ t.handlers) {o : Outpoint} {b : Bytes}
    (hsaid : ⟨.store (.payload o), .ok (some b)⟩ ∈ after.transcript) : t.Authentic answers o b := by
  obtain ⟨k, hk⟩ := List.getElem?_of_mem hafter
  have hbefore : ∀ handler, s.handlers[k]? = some handler →
      ⟨.store (.payload o), .ok (some b)⟩ ∈ handler.transcript → t.Authentic answers o b :=
    fun handler hhandler hsaid =>
      (hs.fetched handler (List.mem_of_getElem? hhandler) o b hsaid).step h
  cases h.past hk with
  | new errand hnone hbegins => cases hsaid
  | silent handler _ hhandler herrand htranscript haudience =>
      exact hbefore handler hhandler (htranscript ▸ hsaid)
  | said handler _ said hhandler herrand htranscript haudience heffect =>
      rw [htranscript] at hsaid
      rcases List.mem_append.mp hsaid with hsaid | hnew
      · exact hbefore handler hhandler hsaid
      obtain rfl := List.mem_singleton.mp hnew
      cases heffect with
      | store call answer hserved =>
          have hperforms := hserved.performed
          exact (hs.cached o b (Option.join_eq_some_iff.mp (Except.ok.inj hperforms.1).symm)).step h

/-- The watcher goes on to cache only what is vouched for, whatever the others do. -/
theorem Clean.task_step (hs : s.Clean fails answers) (h : Step fails answers s move t) :
    t.task.Secured fails answers (t.vouching answers) := by
  have hrely : (Vouching.terms fails answers).rely (s.vouching answers) (t.vouching answers) :=
    fun o b hauthentic => hauthentic.step h
  have hothers := hs.task.relied hrely
  have htask := hs.task
  cases h with
  | poll w hresting =>
      rw [hresting] at htask
      exact Watcher.recalls_poll w htask
  | watch request next answer world hpolling hserved =>
      rw [hpolling] at htask
      exact (htask _ ((Vouching.terms fails answers).rely_refl _) answer
        ⟨B.holdings world, s.Authentic answers⟩ ⟨hs.cached,
          hserved.map B.holdings fun _ _ _ _ => OutpointStore.Performs.holdings, rfl⟩).2
  | rest outcome hpolling =>
      rw [hpolling] at htask
      exact htask _ ((Vouching.terms fails answers).rely_refl _)
  | _ => exact hothers

theorem Clean.step (hs : s.Clean fails answers) (h : Step fails answers s move t) :
    t.Clean fails answers where
  coherent := hs.coherent.step h
  cached := hs.sound_step h
  fetched _ hafter _ _ hsaid := hs.fetched_step h hafter hsaid
  task := hs.task_step h

/-- What a run of a node keeps about what it caches and sends. -/
theorem clean_of_reaches {node : Node B.State} {w : Watcher} {permits maxMessage : Nat}
    {world : B.State} (hnode : Node.start? permits maxMessage world = some node)
    (hempty : ∀ o, (B.holdings node.world).entries o = none) (hw : w.recent = [])
    (h : Reaches fails answers (idle node w) s) : s.Clean fails answers ∧ s.Posted ∧ s.Traced := by
  induction h with
  | refl =>
      exact ⟨clean_idle hempty hw, posted_idle (Node.fresh_of_start? hnode) w, traced_idle node w⟩
  | tail _ hstep ih =>
      obtain ⟨hclean, hposted, htraced⟩ := ih
      obtain ⟨move, hstep⟩ := hstep
      exact ⟨hclean.step hstep, hposted.step hstep, htraced.step hstep⟩

/-- A node starts with the store that it is given. -/
theorem entries_of_start? {permits maxMessage : Nat} {world : B.State} {node : Node B.State}
    (hnode : Node.start? permits maxMessage world = some node)
    (hempty : ∀ o, (B.perform (.has o) world).1 = .ok false) (o : Outpoint) :
    (B.holdings node.world).entries o = none := by
  obtain ⟨lifecycle, -, rfl⟩ := Option.map_eq_some_iff.mp hnode
  have hhas := (B.performs (.has o) world).1
  rw [hempty o] at hhas
  exact Option.not_isSome_iff_eq_none.mp (by simpa [Holdings.recorded] using hhas.symm)

/-- A message that the store returns is authentic and its outpoint is recorded. -/
theorem Clean.payload (hs : s.Clean fails answers) {o : Outpoint} {b : Bytes}
    (hcached : (B.perform (.payload o) s.node.world).1 = .ok (some b)) :
    (B.perform (.has o) s.node.world).1 = .ok true ∧ s.Authentic answers o b := by
  have hpayload := (B.performs (.payload o) s.node.world).1
  rw [hcached] at hpayload
  have hentry := Option.join_eq_some_iff.mp (Except.ok.inj hpayload).symm
  refine ⟨?_, hs.cached o b hentry⟩
  rw [(B.performs (.has o) s.node.world).1, Holdings.recorded, hentry]
  rfl

/-- A message that is delivered is authentic, and replies to a request of the same peer. -/
theorem Clean.requested (hs : s.Clean fails answers) (htraced : s.Traced) {x : Sending}
    (hx : x ∈ s.sent) {b : Bytes} (hframe : x.frame = .data b) :
    ∃ k handler peer o, x.cause = .reply k ∧ s.handlers[k]? = some handler ∧
      handler.errand = .session x.socket peer (.getData o) ∧ s.Authentic answers o b := by
  obtain ⟨k, hcause⟩ := htraced.delivery hx hframe
  obtain ⟨handler, hhandler, hsocket, hsaid⟩ := htraced.reply x hx k hcause
  have hmem := List.mem_of_getElem? hhandler
  rcases (hs.coherent handler hmem).replied hsaid with
    ⟨socket, peer, outpoints, herrand, o, ho, hreply⟩ |
    ⟨socket, peer, o, body, herrand, hreply, hfetched⟩
  · cases hframe.symm.trans hreply
  · obtain rfl := Frame.data.inj (hframe.symm.trans hreply)
    obtain rfl : socket = x.socket := by simpa [herrand, Errand.socket?] using hsocket
    exact ⟨k, handler, peer, o, hcause, hhandler, herrand,
      hs.fetched handler hmem o b hfetched⟩

/-- Whatever arrives at a node that starts with an empty store, and whatever fails: each message it
caches is authentic and its outpoint is recorded, and what it sends are greetings and frames, where
a delivery is an authentic message that replies to a request of the same peer. -/
theorem cached_and_delivered_authentic {permits maxMessage : Nat} {world : B.State}
    {node : Node B.State} {settings : WatcherSettings}
    (hnode : Node.start? permits maxMessage world = some node)
    (hempty : ∀ o, (B.perform (.has o) world).1 = .ok false)
    (h : Reaches fails answers (idle node (Watcher.start settings)) s) :
    (∀ o b, (B.perform (.payload o) s.node.world).1 = .ok (some b) →
        (B.perform (.has o) s.node.world).1 = .ok true ∧ s.Authentic answers o b) ∧
      (∀ (socket : Nat) (channel : Channel), s.node.channels[socket]? = some channel →
        channel.outbox.reverse.map .ok = (.ok Handshake.greeting : Except WireError Bytes) ::
          (s.sentOn socket).map (·.frame.serialize)) ∧
      ∀ x ∈ s.sent, ∀ b, x.frame = .data b → ∃ k handler peer o, x.cause = .reply k ∧
        s.handlers[k]? = some handler ∧ handler.errand = .session x.socket peer (.getData o) ∧
        s.Authentic answers o b := by
  obtain ⟨hclean, hposted, htraced⟩ :=
    clean_of_reaches hnode (entries_of_start? hnode hempty) rfl h
  refine ⟨fun o b hcached => hclean.payload hcached, fun socket channel hchannel => ?_,
    fun x hx b hframe => hclean.requested htraced hx hframe⟩
  exact hposted.outbox socket channel.outbox (by simp [hchannel])

theorem cached_and_delivered_authentic_sample :
    (MemoryStore.backend.perform (.payload sampleOutpoint) relayed.node.world).1 =
        .ok (some sampleMessage.encode) ∧
      relayed.Authentic (fun _ _ => True) sampleOutpoint sampleMessage.encode ∧
      ∃ x ∈ relayed.sent, x.frame = .data sampleMessage.encode ∧
        ∃ k handler peer o, x.cause = .reply k ∧ relayed.handlers[k]? = some handler ∧
          handler.errand = .session x.socket peer (.getData o) := by
  have hstart : Node.start? 2 65536 sampleNode.world = some sampleNode := rfl
  have hreaches : Reaches (fun _ => True) (fun _ _ => True) sample relayed :=
    reaches_acts (fun _ => trivial) (sampleMeeting ++ sampleRelay ++ sampleReturn)
  have hpayload : (MemoryStore.backend.perform (.payload sampleOutpoint) relayed.node.world).1 =
      .ok (some sampleMessage.encode) := by decide +kernel
  have hsent : ⟨1, .data sampleMessage.encode, .reply 1⟩ ∈ relayed.sent := by decide +kernel
  obtain ⟨hcached, -, hdelivered⟩ :=
    cached_and_delivered_authentic hstart (fun _ => rfl) hreaches
  obtain ⟨k, handler, peer, o, hcause, hhandler, herrand, -⟩ :=
    hdelivered ⟨1, .data sampleMessage.encode, .reply 1⟩ hsent sampleMessage.encode rfl
  exact ⟨hpayload, (hcached _ _ hpayload).2, _, hsent, rfl, k, handler, peer, o, hcause, hhandler,
    herrand⟩

end Station

end ChatRelay
