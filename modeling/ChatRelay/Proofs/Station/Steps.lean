import ChatRelay.Proofs.Station.Connections
import ChatRelay.Proofs.Station.Handlers

/-!
# What a step of a node does

A step begins a handler, moves one on or leaves all of them as they are. The store changes only by a
request, and what a handler says comes with what it is said about.
-/

namespace ChatRelay

variable {B : OutpointStore} {fails : StoreCall → Prop}
  {answers : (call : LedgerCall) → call.Answer → Prop}

namespace Station

variable {s t : Station B} {move : Move}

/-- A step begins a handler, moves one on, or leaves the handlers as they are. -/
theorem Step.handlers (h : Step fails answers s move t) :
    t.handlers = s.handlers ∨ (∃ errand, t.handlers = s.handlers ++ [.begin errand]) ∨
      ∃ k handler after, s.handlers[k]? = some handler ∧
        handler.Advances fails answers after ∧ t.handlers = s.handlers.set k after := by
  cases h with
  | take socket peer frame node hreads => exact .inr (.inl ⟨_, rfl⟩)
  | submit message => exact .inr (.inl ⟨_, rfl⟩)
  | store k handler call next answer world hhandler hstage hserved =>
      exact .inr (.inr ⟨k, handler, _, hhandler,
        .hear (.store call) answer next hstage (by simp), rfl⟩)
  | decide k handler message next hhandler hstage =>
      exact .inr (.inr ⟨k, handler, _, hhandler, .decide message next hstage, rfl⟩)
  | proceed k handler run after exchanges next slots world serve hserve hhandler hstage hstep =>
      obtain ⟨hafter, -⟩ := AdmissionRun.goes_of_step hstep
      refine .inr (.inr ⟨k, handler, _, hhandler, .proceed next hstage ?_ ?_ (·.step hstep)
        fun e => AdmissionRun.served_of_exchanged hserve, rfl⟩)
      · rw [hafter]
      · rw [hafter]
  | decided k handler run exchanges next result hhandler hstage hphase =>
      exact .inr (.inr ⟨k, handler, _, hhandler, .conclude next result hstage hphase, rfl⟩)
  | reply k handler frame next socket node hhandler hstage hsocket hsent =>
      exact .inr (.inr ⟨k, handler, _, hhandler,
        .hear (.reply frame) true next hstage (by simp), rfl⟩)
  | unanswered k handler frame next hhandler hstage =>
      exact .inr (.inr ⟨k, handler, _, hhandler,
        .hear (.reply frame) false next hstage (by simp), rfl⟩)
  | announce k handler source outpoint next hhandler hstage =>
      exact .inr (.inr ⟨k, handler, _, hhandler, .announce source outpoint _ next hstage, rfl⟩)
  | _ => exact .inl rfl

theorem getElem?_set_cases {α : Type} {xs : List α} {i j : Nat} {x y : α}
    (h : (xs.set i x)[j]? = some y) : (i = j ∧ y = x) ∨ xs[j]? = some y := by
  rw [List.getElem?_set] at h
  split at h
  next heq =>
    split at h
    · exact .inl ⟨heq, (Option.some.inj h).symm⟩
    · cases h
  next => exact .inr h

/-- Where a handler comes from. -/
theorem Step.handler_cases (h : Step fails answers s move t) {k : Nat} {after : Handler}
    (hafter : t.handlers[k]? = some after) :
    s.handlers[k]? = some after ∨
      (∃ handler, s.handlers[k]? = some handler ∧ handler.Advances fails answers after) ∨
      ∃ errand, after = .begin errand := by
  rcases h.handlers with hsame | ⟨errand, hbegin⟩ | ⟨j, handler, moved, hhandler, hadvances, hset⟩
  · exact .inl (hsame ▸ hafter)
  · rw [hbegin, List.getElem?_append] at hafter
    split at hafter
    · exact .inl hafter
    · exact .inr (.inr ⟨errand, (List.mem_singleton.mp (List.mem_of_getElem? hafter))⟩)
  · rw [hset] at hafter
    rcases getElem?_set_cases hafter with ⟨rfl, rfl⟩ | hsame
    · exact .inr (.inl ⟨handler, hhandler, hadvances⟩)
    · exact .inl hsame

theorem Step.handler_grows (h : Step fails answers s move t) {k : Nat} {handler : Handler}
    (hhandler : s.handlers[k]? = some handler) :
    ∃ after, t.handlers[k]? = some after ∧ handler.Grows after := by
  rcases h.handlers with hsame | ⟨errand, hbegin⟩ | ⟨j, moving, moved, hmoving, hadvances, hset⟩
  · exact ⟨handler, hsame ▸ hhandler, .refl handler⟩
  · obtain ⟨hlt, -⟩ := List.getElem?_eq_some_iff.mp hhandler
    exact ⟨handler, by rw [hbegin, List.getElem?_append_left hlt, hhandler], .refl handler⟩
  · obtain ⟨hlt, -⟩ := List.getElem?_eq_some_iff.mp hhandler
    by_cases hjk : j = k
    · subst hjk
      obtain rfl := Option.some.inj (hmoving.symm.trans hhandler)
      exact ⟨moved, by rw [hset, List.getElem?_set_self hlt], hadvances.grows⟩
    · exact ⟨handler, by rw [hset, List.getElem?_set_ne hjk, hhandler], .refl handler⟩

variable (fails answers) in
/-- A request that is served in a step, and who has asked for it. -/
inductive Serves (s t : Station B) : Prop
  | handler (after : Handler) (call : StoreCall) (answer : call.Answer)
      (hafter : after ∈ t.handlers) (hsaid : ⟨.store call, answer⟩ ∈ after.transcript)
      (htask : t.task = s.task)
      (hserved : Request.Served Holdings.Performs fails answers (.store call) s.held answer t.held)
  | admission (k : Nat) (handler after : Handler) (e : Exchange)
      (hhandler : s.handlers[k]? = some handler) (hasks : handler.Asks e.said.question)
      (hset : t.handlers = s.handlers.set k after)
      (hexchanges : after.exchanges = handler.exchanges ++ [e]) (hbefore : e.before = s.held)
      (hafter : e.after = t.held) (htask : t.task = s.task) (hserved : e.Served fails answers)
  | watcher (request : Request)
      (next : request.Answer → Routine Request.Answer (Watcher.Outcome PollSummary))
      (answer : request.Answer) (htask : s.task = .polling (.ask request next))
      (hnext : t.task = .polling (next answer)) (hhandlers : t.handlers = s.handlers)
      (hserved : request.Served Holdings.Performs fails answers s.held answer t.held)

theorem mem_set_self {α : Type} {xs : List α} {k : Nat} {x : α} (h : xs[k]? = some x) (y : α) :
    y ∈ xs.set k y := by
  obtain ⟨hlt, -⟩ := List.getElem?_eq_some_iff.mp h
  exact List.mem_of_getElem? (List.getElem?_set_self hlt)

/-- What the store holds stays as it is unless a request is served. -/
theorem Step.held_cases (h : Step fails answers s move t) :
    t.held = s.held ∨ Serves fails answers s t := by
  have hview : ∀ {request : Request} {v w : B.State} {answer : request.Answer},
      request.Served B.Performs fails answers v answer w →
      request.Served Holdings.Performs fails answers (B.holdings v) answer (B.holdings w) :=
    fun hserved => hserved.map B.holdings fun _ _ _ _ => OutpointStore.Performs.holdings
  cases h with
  | greet socket late => exact .inl (congrArg B.holdings (Node.attends_greet ..).world)
  | take socket peer frame node hreads =>
      cases hreads
      exact .inl rfl
  | drop socket peer frame node hreads =>
      cases hreads
      exact .inl rfl
  | store k handler call next answer world hhandler hstage hserved =>
      exact .inr (.handler _ call answer (mem_set_self hhandler _) (by simp [Handler.hear]) rfl
        (hview hserved))
  | proceed k handler run after exchanges next slots world serve hserve hhandler hstage hstep =>
      obtain ⟨-, hgoes⟩ := AdmissionRun.goes_of_step hstep
      generalize hphase : run.phase = phase at hgoes
      generalize after.phase = phase' at hgoes
      cases hgoes with
      | ask slot request rest =>
          refine .inr (.admission k handler _ ⟨⟨request, (serve request s.node.world).1⟩,
            B.holdings s.node.world, B.holdings (serve request s.node.world).2⟩ hhandler
            ⟨run, exchanges, next, slot, rest, hstage, hphase⟩ rfl ?_ rfl rfl rfl
            (hview (hserve request)))
          simp [Handler.exchanges, hstage, AdmissionRun.exchanged, hphase]
      | _ => exact .inl rfl
  | reply k handler frame next socket node hhandler hstage hsocket hsent =>
      obtain ⟨-, bytes, -, rfl⟩ := Node.sent_of_send hsent
      exact .inl rfl
  | dispatch j dispatch node hdispatch hfate hsent =>
      obtain ⟨-, bytes, -, rfl⟩ := Node.sent_of_send hsent
      exact .inl rfl
  | watch request next answer world htask hserved =>
      exact .inr (.watcher request next answer htask rfl rfl (hview hserved))
  | _ => exact .inl rfl

variable (fails answers) in
/-- What happens in a step in which handler `k` says something. -/
inductive Effect (s : Station B) (move : Move) (t : Station B) (k : Nat) (after : Handler) :
    Answered SessionRequest.Answer → Prop
  | store (call : StoreCall) (answer : call.Answer)
      (hserved :
        Request.Served Holdings.Performs fails answers (.store call) s.held answer t.held) :
      Effect s move t k after ⟨.store call, answer⟩
  | decide (message : Message) (result : Except Rejection Admission) :
      Effect s move t k after ⟨.decide message, result⟩
  | reply (frame : Frame) (socket : Nat) (hsocket : after.errand.socket? = some socket)
      (hsent : t.sent = s.sent ++ [⟨socket, frame, .reply k⟩]) :
      Effect s move t k after ⟨.reply frame, true⟩
  | unanswered (frame : Frame) (hmove : move = .disturb) :
      Effect s move t k after ⟨.reply frame, false⟩
  | announce (source : Option PeerId) (outpoint : Outpoint)
      (haudience : after.audience = s.node.lifecycle.registry.entries)
      (hdispatches : t.dispatches = s.dispatches ++
        (after.audience.filter fun entry => some entry.1 ≠ source).map
          fun entry => ⟨k, ⟨entry.1, entry.2, outpoint⟩, .waiting⟩) :
      Effect s move t k after ⟨.announce source outpoint, ()⟩

/-- Whether an errand may be begun: a session's peer is active. -/
def Begins (s : Station B) : Errand → Prop
  | .session socket peer _ => s.node.lifecycle.Active socket peer
  | .submission _ => True

variable (fails answers) in
/-- Where a handler comes from: it is new, or says nothing, or says one thing more. -/
inductive Past (s : Station B) (move : Move) (t : Station B) (k : Nat) : Handler → Prop
  | new (errand : Errand) (hnone : s.handlers[k]? = none) (hbegins : s.Begins errand) :
      Past s move t k (.begin errand)
  | silent (handler after : Handler) (hhandler : s.handlers[k]? = some handler)
      (herrand : after.errand = handler.errand)
      (htranscript : after.transcript = handler.transcript)
      (haudience : after.audience = handler.audience) : Past s move t k after
  | said (handler after : Handler) (said : Answered SessionRequest.Answer)
      (hhandler : s.handlers[k]? = some handler) (herrand : after.errand = handler.errand)
      (htranscript : after.transcript = handler.transcript ++ [said])
      (haudience : after.audience = handler.audience ∨
        after.audience = s.node.lifecycle.registry.entries)
      (heffect : Effect fails answers s move t k after said) : Past s move t k after

theorem Step.past (h : Step fails answers s move t) {k : Nat} {after : Handler}
    (hafter : t.handlers[k]? = some after) : Past fails answers s move t k after := by
  -- a step moves one handler on, or begins one; all others are as they were
  have hsame : ∀ {after : Handler}, s.handlers[k]? = some after →
      Past fails answers s move t k after :=
    fun hk => .silent _ _ hk rfl rfl rfl
  have hbegun : ∀ errand, s.Begins errand →
      (s.handlers ++ [Handler.begin errand])[k]? = some after →
        Past fails answers s move t k after := by
    intro errand hbegins hbegin
    rw [List.getElem?_append] at hbegin
    split at hbegin
    · exact hsame hbegin
    next hnew =>
      obtain rfl := List.mem_singleton.mp (List.mem_of_getElem? hbegin)
      exact .new errand (List.getElem?_eq_none (Nat.le_of_not_lt hnew)) hbegins
  cases h with
  | take socket peer frame node hreads =>
      cases hreads with
      | intro now channel rest limiter hactive =>
          exact hbegun (.session socket peer frame) hactive hafter
  | submit message => exact hbegun (.submission message) trivial hafter
  | store j handler call next answer world hhandler hstage hserved =>
      rcases getElem?_set_cases hafter with ⟨rfl, rfl⟩ | hk
      · exact .said handler _ _ hhandler rfl rfl (.inl rfl) (.store call answer
          (hserved.map B.holdings fun _ _ _ _ => OutpointStore.Performs.holdings))
      · exact hsame hk
  | decide j handler message next hhandler hstage =>
      rcases getElem?_set_cases hafter with ⟨rfl, rfl⟩ | hk
      · exact .silent handler _ hhandler rfl rfl rfl
      · exact hsame hk
  | proceed j handler run moved exchanges next slots world serve hserve hhandler hstage hstep =>
      rcases getElem?_set_cases hafter with ⟨rfl, rfl⟩ | hk
      · exact .silent handler _ hhandler rfl rfl rfl
      · exact hsame hk
  | decided j handler run exchanges next result hhandler hstage hphase =>
      rcases getElem?_set_cases hafter with ⟨rfl, rfl⟩ | hk
      · exact .said handler _ _ hhandler rfl rfl (.inl rfl) (.decide _ result)
      · exact hsame hk
  | reply j handler frame next socket node hhandler hstage hsocket hsent =>
      rcases getElem?_set_cases hafter with ⟨rfl, rfl⟩ | hk
      · exact .said handler _ _ hhandler rfl rfl (.inl rfl) (.reply frame socket hsocket rfl)
      · exact hsame hk
  | unanswered j handler frame next hhandler hstage =>
      rcases getElem?_set_cases hafter with ⟨rfl, rfl⟩ | hk
      · exact .said handler _ _ hhandler rfl rfl (.inl rfl) (.unanswered frame rfl)
      · exact hsame hk
  | announce j handler source outpoint next hhandler hstage =>
      rcases getElem?_set_cases hafter with ⟨rfl, rfl⟩ | hk
      · exact .said handler _ _ hhandler rfl rfl (.inr rfl) (.announce source outpoint rfl rfl)
      · exact hsame hk
  | _ => exact hsame hafter

/-- Nothing has been asked for a decision from one state to another. -/
def Unasked (s t : Station B) : Prop :=
  ∀ (k : Nat) (after : Handler), t.handlers[k]? = some after →
    (s.handlers[k]? = none ∧ after.exchanges = []) ∨
      ∃ handler, s.handlers[k]? = some handler ∧ after.exchanges = handler.exchanges

/-- What is asked for decisions is asked by one handler at a time. -/
theorem Step.exchanges (h : Step fails answers s move t) :
    Unasked s t ∨
      ∃ k handler after e, s.handlers[k]? = some handler ∧ t.handlers = s.handlers.set k after ∧
        after.exchanges = handler.exchanges ++ [e] ∧ e.before = s.held ∧ e.after = t.held ∧
        e.Served fails answers := by
  have hkept : ∀ {j : Nat} {handler moved : Handler}, s.handlers[j]? = some handler →
      t.handlers = s.handlers.set j moved → moved.exchanges = handler.exchanges →
      Unasked s t := by
    intro j handler moved hhandler hset hsame k after hafter
    rw [hset] at hafter
    rcases getElem?_set_cases hafter with ⟨rfl, rfl⟩ | hk
    · exact .inr ⟨handler, hhandler, hsame⟩
    · exact .inr ⟨after, hk, rfl⟩
  have hbegun : ∀ errand, t.handlers = s.handlers ++ [Handler.begin errand] → Unasked s t := by
    intro errand hbegin k after hafter
    rw [hbegin, List.getElem?_append] at hafter
    split at hafter
    · exact .inr ⟨after, hafter, rfl⟩
    next hnew =>
      obtain rfl := List.mem_singleton.mp (List.mem_of_getElem? hafter)
      exact .inl ⟨List.getElem?_eq_none (Nat.le_of_not_lt hnew), rfl⟩
  cases h with
  | take socket peer frame node hreads => exact .inl (hbegun _ rfl)
  | submit message => exact .inl (hbegun _ rfl)
  | store j handler call next answer world hhandler hstage hserved =>
      exact .inl (hkept hhandler rfl (by simp [Handler.exchanges, Handler.hear, hstage]))
  | decide j handler message next hhandler hstage =>
      exact .inl (hkept hhandler rfl (by simp [Handler.exchanges, hstage]))
  | proceed j handler run moved exchanges next slots world serve hserve hhandler hstage hstep =>
      obtain ⟨-, hgoes⟩ := AdmissionRun.goes_of_step hstep
      generalize hphase : run.phase = phase at hgoes
      generalize moved.phase = phase' at hgoes
      -- of all phases, only a run inside its slot asks something
      cases hgoes with
      | ask slot request rest =>
          refine .inr ⟨j, handler, _, ⟨⟨request, (serve request s.node.world).1⟩,
            B.holdings s.node.world, B.holdings (serve request s.node.world).2⟩, hhandler, rfl, ?_,
            rfl, rfl, ?_⟩
          · simp [Handler.exchanges, hstage, AdmissionRun.exchanged, hphase]
          · exact (hserve request).map B.holdings fun _ _ _ _ => OutpointStore.Performs.holdings
      | _ =>
          refine .inl (hkept hhandler rfl ?_)
          simp [Handler.exchanges, hstage, AdmissionRun.exchanged, hphase]
  | decided j handler run exchanges next result hhandler hstage hphase =>
      exact .inl (hkept hhandler rfl (by simp [Handler.exchanges, Handler.conclude, hstage]))
  | reply j handler frame next socket node hhandler hstage hsocket hsent =>
      exact .inl (hkept hhandler rfl (by simp [Handler.exchanges, Handler.hear, hstage]))
  | unanswered j handler frame next hhandler hstage =>
      exact .inl (hkept hhandler rfl (by simp [Handler.exchanges, Handler.hear, hstage]))
  | announce j handler source outpoint next hhandler hstage =>
      exact .inl (hkept hhandler rfl (by simp [Handler.exchanges, Handler.announce, hstage]))
  | _ => exact .inl fun k after hafter => .inr ⟨after, hafter, rfl⟩

/-- What a handler has asked it had asked before, or it is the one that asks something now. -/
theorem Step.exchange_cases (h : Step fails answers s move t) :
    ∃ k, ∀ (j : Nat) (after : Handler), t.handlers[j]? = some after → ∀ e ∈ after.exchanges,
      (∃ handler, s.handlers[j]? = some handler ∧ e ∈ handler.exchanges) ∨
        j = k ∧ e.before = s.held ∧ e.after = t.held ∧ e.Served fails answers := by
  rcases h.exchanges with
    hunasked | ⟨k, asking, asked, new, hasking, hset, hmore, hbefore, hlater, hserved⟩
  · refine ⟨0, fun j after hafter e he => .inl ?_⟩
    rcases hunasked j after hafter with ⟨-, hnil⟩ | ⟨handler, hhandler, hsame⟩
    · rw [hnil] at he
      cases he
    · exact ⟨handler, hhandler, hsame ▸ he⟩
  · refine ⟨k, fun j after hafter e he => ?_⟩
    rw [hset] at hafter
    rcases getElem?_set_cases hafter with ⟨rfl, rfl⟩ | hsame
    · rw [hmore] at he
      rcases List.mem_append.mp he with hold | hnew
      · exact .inl ⟨asking, hasking, hold⟩
      · obtain rfl := List.mem_singleton.mp hnew
        exact .inr ⟨rfl, hbefore, hlater, hserved⟩
    · exact .inl ⟨after, hsame, he⟩

variable (fails answers) in
/-- Every handler is on its errand. -/
def Coherent (s : Station B) : Prop := ∀ handler ∈ s.handlers, handler.Coherent fails answers

theorem Coherent.step (hs : s.Coherent fails answers) (h : Step fails answers s move t) :
    t.Coherent fails answers := by
  intro after hafter
  obtain ⟨k, hk⟩ := List.getElem?_of_mem hafter
  rcases h.handler_cases hk with hsame | ⟨handler, hhandler, hadvances⟩ | ⟨errand, rfl⟩
  · exact hs after (List.mem_of_getElem? hsame)
  · exact (hs handler (List.mem_of_getElem? hhandler)).advance hadvances
  · exact Handler.coherent_begin errand

end Station

end ChatRelay
