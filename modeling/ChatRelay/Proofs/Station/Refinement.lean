import ChatRelay.Proofs.Station.Handlers
import ChatRelay.Proofs.Station.Turns

/-!
# Turns are runs of the station

A node that moves by turns brings one task to its end before another goes on. Expanded question by
question, each turn is a run of the node's station, and so is any sequence of turns.
-/

namespace ChatRelay

/-- The handler while its message is on its way to a decision. -/
def Handler.await (handler : Handler) (run : AdmissionRun) (exchanges : List Exchange)
    (next : Except Rejection Admission → Routine SessionRequest.Answer Ending) : Handler :=
  { handler with stage := .deciding run exchanges next }

/-- Deciding alone leaves nobody inside a slot. -/
theorem Admission.occupied_decideAlone {σ : Type}
    {serve : (request : Request) → σ → request.Answer × σ} {message : Message}
    {claimed : Option OwnerKey} {slots after : Slots} {world world' : σ}
    {result : Except Rejection Admission} (h : slots.occupied = [])
    (halone : decideAlone serve message claimed slots world = (result, after, world')) :
    after.occupied = [] := by
  have hafter : after.occupied = (decideAlone serve message claimed slots world).2.1.occupied := by
    rw [halone]
  rw [hafter]
  simp [decideAlone, Slots.leave, Slots.enter, h]

namespace Station

variable {B : OutpointStore} {fails : StoreCall → Prop}
  {answers : (call : LedgerCall) → call.Answer → Prop}
  {serve : (request : Request) → B.State → request.Answer × B.State} {s : Station B} {k : Nat}
  {handler after : Handler}

/-- The station after a handler has gone on, and with it the node. -/
def resume (s : Station B) (k : Nat) (handler : Handler) (node : Node B.State) : Station B :=
  { s with node, handlers := s.handlers.set k handler }

theorem getElem?_resume (h : s.handlers[k]? = some handler) (node : Node B.State) :
    (s.resume k after node).handlers[k]? = some after := by
  obtain ⟨hlt, -⟩ := List.getElem?_eq_some_iff.mp h
  exact List.getElem?_set_self hlt

/-- A handler goes on from where it has come. -/
theorem reaches_tail {before : Handler} {node node' : Node B.State} {move : Move}
    (h : Reaches fails answers s (s.resume k before node))
    (hstep : Step fails answers (s.resume k before node) move
      ((s.resume k before node).resume k after node')) :
    Reaches fails answers s (s.resume k after node') := by
  have hsame : (s.resume k before node).resume k after node' = s.resume k after node' := by
    simp [resume]
  exact h.tail ⟨move, hsame ▸ hstep⟩

/-! ## Decisions -/

theorem reaches_conclude {run : AdmissionRun} {exchanges : List Exchange}
    {next : Except Rejection Admission → Routine SessionRequest.Answer Ending}
    {node : Node B.State} {result : Except Rejection Admission}
    (hhandler : s.handlers[k]? = some handler)
    (h : Reaches fails answers s (s.resume k (handler.await run exchanges next) node))
    (hphase : run.phase = .finished result) :
    Reaches fails answers s
      (s.resume k (handler.conclude ⟨run.message, exchanges, result⟩ (next result)) node) :=
  reaches_tail h (.decided _ k (handler.await run exchanges next) run exchanges next result
    (getElem?_resume hhandler node) rfl hphase)

variable (hserves : ∀ (request : Request) (world : B.State),
  request.Served B.Performs fails answers world (serve request world).1 (serve request world).2)

include hserves

theorem reaches_proceed {run moved : AdmissionRun} {exchanges : List Exchange}
    {next : Except Rejection Admission → Routine SessionRequest.Answer Ending}
    {node : Node B.State} {slots : Slots} {world : B.State}
    (hhandler : s.handlers[k]? = some handler)
    (h : Reaches fails answers s (s.resume k (handler.await run exchanges next) node))
    (hstep : (⟨node.slots, node.world, [run]⟩ : Admissions B.State).step serve 0 =
      ⟨slots, world, [moved]⟩) :
    ∃ asked, Reaches fails answers s
      (s.resume k (handler.await moved asked next) { node with slots, world }) := by
  exact ⟨exchanges ++ run.exchanged serve node.world, reaches_tail h
    (.proceed _ k (handler.await run exchanges next) run moved exchanges next slots world serve
      (fun request => hserves request _) (getElem?_resume hhandler node) rfl hstep)⟩

/-- A run inside its slot comes to the end of its decision. -/
theorem reaches_inside (routine : Routine Request.Answer (Except Rejection Admission))
    {message : Message} {claimed : Option OwnerKey} {slot : Nat} {exchanges : List Exchange}
    {next : Except Rejection Admission → Routine SessionRequest.Answer Ending}
    {node : Node B.State} (hhandler : s.handlers[k]? = some handler)
    (h : Reaches fails answers s
      (s.resume k (handler.await ⟨message, claimed, .inside slot routine⟩ exchanges next) node)) :
    ∃ asked, Reaches fails answers s
      (s.resume k
        (handler.await ⟨message, claimed,
          .inside slot (.done (routine.run serve node.world).1)⟩ asked next)
        { node with world := (routine.run serve node.world).2 }) := by
  induction routine generalizing node exchanges with
  | done result => exact ⟨exchanges, h⟩
  | ask request rest ih =>
      obtain ⟨asked, hasked⟩ := reaches_proceed hserves hhandler h (Admissions.step_asking rfl rfl)
      exact ih _ hasked

/-- When nobody is inside a slot, a message comes to its decision as if it were alone. -/
theorem reaches_decided {message : Message}
    {next : Except Rejection Admission → Routine SessionRequest.Answer Ending}
    (hhandler : s.handlers[k]? = some handler)
    (hstage : handler.stage = .running (.ask (.decide message) next))
    (hfree : s.node.slots.occupied = []) {result : Except Rejection Admission} {slots : Slots}
    {world : B.State}
    (halone : Admission.decideAlone serve message none s.node.slots s.node.world =
      (result, slots, world)) :
    ∃ asked, Reaches fails answers s
      (s.resume k (handler.conclude ⟨message, asked, result⟩ (next result))
        { s.node with slots, world }) := by
  have hbegun : Reaches fails answers s
      (s.resume k (handler.await ⟨message, none, .arriving⟩ [] next) s.node) :=
    .single ⟨.work, .decide s k handler message next hhandler hstage⟩
  generalize htake : s.node.slots.take message.outpoint = place
  obtain ⟨slot, taken⟩ := place
  rw [Admission.decideAlone, htake] at halone
  obtain ⟨rfl, hplace⟩ := Prod.mk.inj halone
  obtain ⟨rfl, rfl⟩ := Prod.mk.inj hplace
  have hunoccupied : slot ∉ taken.occupied := by
    have hoccupied : (s.node.slots.take message.outpoint).2.occupied = [] :=
      Slots.occupied_take.trans hfree
    rw [htake] at hoccupied
    exact hoccupied ▸ List.not_mem_nil
  -- it takes its slot, enters, asks, leaves and tidies up, with nobody in its way
  obtain ⟨asked, harrived⟩ : ∃ asked, Reaches fails answers s (s.resume k
      (handler.await ⟨message, none, .waiting slot⟩ asked next)
      { s.node with slots := taken }) := by
    refine reaches_proceed hserves hhandler hbegun ?_
    rw [Admissions.step_arriving rfl rfl]
    dsimp only
    rw [htake]
    rfl
  obtain ⟨asked, hentered⟩ := reaches_proceed hserves hhandler harrived
    (Admissions.step_waiting rfl rfl hunoccupied)
  obtain ⟨asked, hinside⟩ := reaches_inside hserves _ hhandler hentered
  obtain ⟨asked, hleft⟩ := reaches_proceed hserves hhandler hinside
    (Admissions.step_deciding rfl rfl)
  obtain ⟨asked, htidied⟩ := reaches_proceed hserves hhandler hleft
    (Admissions.step_leaving rfl rfl)
  exact ⟨asked, reaches_conclude hhandler htidied rfl⟩

/-! ## Routines -/

/-- Whether a station is where a node is between two turns: nobody is inside a slot, and what waits
to be sent is what the node has still to announce. -/
structure Mirrors (s : Station B) (node : Node B.State) : Prop where
  same : ∃ queue, s.node = { node with announcements := queue }
  free : node.slots.occupied = []
  aligned : node.channels.length = node.lifecycle.sockets.length
  waiting : (s.dispatches.filter (·.fate = .waiting)).map (·.announcement) = node.announcements

/-- A question of a handler is answered as the node answers it. -/
theorem reaches_served {node : Node B.State} {question : SessionRequest}
    {next : question.Answer → Routine SessionRequest.Answer Ending} (hs : s.Mirrors node)
    (hhandler : s.handlers[k]? = some handler)
    (hstage : handler.stage = .running (.ask question next)) :
    ∃ t after, Reaches fails answers s t ∧
      t.Mirrors (node.serveSession serve handler.errand.socket? question).2 ∧
      t.handlers = s.handlers.set k after ∧ after.errand = handler.errand ∧
      after.stage =
        .running (next (node.serveSession serve handler.errand.socket? question).1) := by
  obtain ⟨queue, hnode⟩ := hs.same
  cases question with
  | store call =>
      have hserved := hserves (.store call) s.node.world
      refine ⟨_, _, .single ⟨.work, .store s k handler call next _ _ hhandler hstage hserved⟩,
        ⟨⟨queue, ?_⟩, hs.free, hs.aligned, hs.waiting⟩, rfl, rfl, ?_⟩
      · rw [hnode]
        rfl
      · rw [hnode]
        rfl
  | decide message =>
      obtain ⟨result, slots, world, halone⟩ : ∃ result slots world,
          Admission.decideAlone serve message none node.slots node.world =
            (result, slots, world) := ⟨_, _, _, rfl⟩
      have halone' : Admission.decideAlone serve message none s.node.slots s.node.world =
          (result, slots, world) := by
        rw [hnode]
        exact halone
      have hfree : s.node.slots.occupied = [] := by
        rw [hnode]
        exact hs.free
      obtain ⟨asked, hreaches⟩ := reaches_decided hserves hhandler hstage hfree halone'
      simp only [Node.serveSession, halone]
      refine ⟨_, _, hreaches, ⟨⟨queue, ?_⟩, ?_, hs.aligned, hs.waiting⟩, rfl, rfl, rfl⟩
      · rw [resume, hnode]
      · exact Admission.occupied_decideAlone hs.free halone
  | reply frame =>
      have hunsent : ∃ t after, Reaches fails answers s t ∧ t.Mirrors node ∧
          t.handlers = s.handlers.set k after ∧ after.errand = handler.errand ∧
          after.stage = .running (next false) :=
        ⟨_, _, .single ⟨.disturb, .unanswered s k handler frame next hhandler hstage⟩,
          ⟨⟨queue, hnode⟩, hs.free, hs.aligned, hs.waiting⟩, rfl, rfl, rfl⟩
      cases hsocket : handler.errand.socket? with
      | none => exact hunsent
      | some socket =>
          simp only [Node.serveSession]
          generalize hsent : node.send socket frame = outcome
          obtain ⟨sent, sentNode⟩ := outcome
          cases sent with
          | false =>
              obtain rfl := Node.unsent_of_send hsent
              exact hunsent
          | true =>
              have hsent' : s.node.send socket frame =
                  (true, { sentNode with announcements := queue }) := by
                rw [hnode]
                exact Node.send_announcements hsent queue
              refine ⟨_, _, .single ⟨.work, .reply s k handler frame next socket _ hhandler hstage
                hsocket hsent'⟩, ⟨⟨queue, rfl⟩, ?_, ?_, ?_⟩, rfl, rfl, rfl⟩
              all_goals
                obtain ⟨-, bytes, -, rfl⟩ := Node.sent_of_send hsent
              · exact hs.free
              · simpa [Node.mapChannel] using hs.aligned
              · exact hs.waiting
  | announce source outpoint =>
      refine ⟨_, _, .single ⟨.work, .announce s k handler source outpoint next hhandler hstage⟩,
        ⟨⟨queue, hnode⟩, hs.free, hs.aligned, ?_⟩, rfl, rfl, rfl⟩
      have hregistry : s.node.lifecycle.registry = node.lifecycle.registry := by rw [hnode]
      simp only [Node.serveSession, List.filter_append, List.map_append, hs.waiting, hregistry]
      simp [List.filter_map, Function.comp_def]

/-- A handler comes to its end as the node runs its routine. -/
theorem reaches_run (routine : Routine SessionRequest.Answer Ending) {node : Node B.State}
    (hs : s.Mirrors node) (hhandler : s.handlers[k]? = some handler)
    (hstage : handler.stage = .running routine) :
    ∃ t after, Reaches fails answers s t ∧
      t.Mirrors (node.perform serve handler.errand.socket? routine).2 ∧
      t.handlers = s.handlers.set k after ∧ after.errand = handler.errand ∧
      after.stage = .running (.done (node.perform serve handler.errand.socket? routine).1) := by
  induction routine generalizing s handler node with
  | done ending =>
      obtain ⟨hlt, rfl⟩ := List.getElem?_eq_some_iff.mp hhandler
      exact ⟨s, _, .refl, hs, (List.set_getElem_self hlt).symm, rfl, hstage⟩
  | ask question next ih =>
      obtain ⟨t, heard, hreaches, ht, hhandlers, herrand, hheard⟩ :=
        reaches_served hserves hs hhandler hstage
      obtain ⟨hlt, -⟩ := List.getElem?_eq_some_iff.mp hhandler
      have hmoved : t.handlers[k]? = some heard := by
        rw [hhandlers, List.getElem?_set_self hlt]
      obtain ⟨u, after, hrest, hu, hset, hkept, hover⟩ := ih _ ht hmoved hheard
      rw [herrand] at hu hover hkept
      refine ⟨u, after, hreaches.trans hrest, hu, ?_, hkept, hover⟩
      rw [hset, hhandlers, List.set_set]

/-- A new handler comes to its end. -/
theorem reaches_begun {node : Node B.State} {earlier : List Handler} {errand : Errand}
    (hs : s.Mirrors node) (hbegun : s.handlers = earlier ++ [.begin errand]) :
    ∃ t finished, Reaches fails answers s t ∧
      t.Mirrors (node.perform serve errand.socket? errand.routine).2 ∧
      t.handlers = earlier ++ [finished] ∧ finished.errand = errand ∧
      finished.stage = .running (.done (node.perform serve errand.socket? errand.routine).1) := by
  have hhandler : s.handlers[earlier.length]? = some (.begin errand) := by
    rw [hbegun, List.getElem?_concat_length]
  obtain ⟨t, finished, hreaches, ht, hhandlers, herrand, hover⟩ :=
    reaches_run hserves errand.routine hs hhandler rfl
  exact ⟨t, finished, hreaches, ht, by simp [hhandlers, hbegun], herrand, hover⟩

/-! ## Turns -/

/-- Whether a station is where a node is between two turns, and every session that goes on has
handled what it took. -/
structure Rests (s : Station B) (node : Node B.State) : Prop extends s.Mirrors node where
  attended : ∀ handler ∈ s.handlers, ∀ socket, handler.errand.socket? = some socket →
    node.lifecycle.Settled socket ∧
      ∀ peer, node.lifecycle.Active socket peer → handler.stage = .running (.done (.session none))

/-- A station that a session's turn has led to: whoever is there now was there before, or has
handled the session's frame to the turn's end. A turn that ends the session has handled a frame to
that end, or has left the station where it was. -/
structure Handled (s t : Station B)
    (serve : (request : Request) → B.State → request.Answer × B.State)
    (now socket : Nat) (peer : PeerId) (reason : Option CloseReason) : Prop where
  handlers : ∀ handler ∈ t.handlers, handler ∈ s.handlers ∨
    handler.errand.socket? = some socket ∧ handler.stage = .running (.done (.session reason))
  ended : ∀ cause, reason = some cause →
    (t = s ∧ s.node.turn serve now socket peer = (some reason, s.node)) ∨
      ∃ handler ∈ t.handlers, handler.errand.socket? = some socket ∧
        handler.stage = .running (.done (.session reason))

/-- A session's turn ends as it does for the node. -/
theorem reaches_handled {node after : Node B.State} {now socket : Nat} {peer : PeerId}
    {reason : Option CloseReason} (hs : s.Rests node) (hactive : node.lifecycle.Active socket peer)
    (hturn : node.turn serve now socket peer = (some reason, after)) :
    ∃ t, Reaches fails answers s t ∧ t.Mirrors after ∧
      s.Handled t serve now socket peer reason := by
  obtain ⟨queue, hnode⟩ := hs.same
  have hsame : s.node.turn serve now socket peer = (some reason, s.node) →
      ∃ t, Reaches fails answers s t ∧ t.Mirrors node ∧
        s.Handled t serve now socket peer reason :=
    fun hidle => ⟨s, .refl, hs.toMirrors, fun _ => .inl, fun _ _ => .inl ⟨rfl, hidle⟩⟩
  unfold Node.turn at hturn
  split at hturn
  next hcancelled =>
    cases hturn
    exact hsame (by simp [hnode, Node.turn, hcancelled])
  next halive =>
    split at hturn
    next => cases hturn
    next channel hchannel =>
      split at hturn
      next shortage hread =>
        split at hturn
        next hended =>
          split at hturn
          next hfailure =>
            cases hturn
            exact hsame (by simp [hnode, Node.turn, halive, hchannel, hread, hended, hfailure])
          next cause hfailure =>
            cases hturn
            exact hsame (by simp [hnode, Node.turn, halive, hchannel, hread, hended, hfailure])
        next => cases hturn
      next cause hread =>
        cases hturn
        exact hsame (by simp [hnode, Node.turn, halive, hchannel, hread])
      next frame rest hread =>
        generalize hlimit : channel.limiter.check now frame.kind = checked at hturn
        obtain ⟨allowed, limiter⟩ := checked
        -- the station reads the frame that the node reads
        have hreads : s.Reads socket peer frame allowed
            (s.node.mapChannel socket fun c => { c with inbox := rest, limiter }) := by
          refine .intro now channel rest limiter ?_ ?_ (fun handler hhandler hsocket =>
            (hs.attended handler hhandler socket hsocket).2 peer hactive) ?_ ?_ hlimit
          all_goals
            rw [hnode]
          · exact hactive
          · exact halive
          · exact hchannel
          · exact hread
        have haligned : (node.mapChannel socket fun c =>
            { c with inbox := rest, limiter }).channels.length = node.lifecycle.sockets.length :=
          List.length_modify .. |>.trans hs.aligned
        have hread : ∃ other,
            s.node.mapChannel socket (fun c => { c with inbox := rest, limiter }) =
              { node.mapChannel socket fun c => { c with inbox := rest, limiter } with
                announcements := other } := by
          refine ⟨queue, ?_⟩
          rw [hnode]
          rfl
        cases allowed with
        | false =>
            cases hturn
            exact ⟨_, .single ⟨.disturb, .drop s socket peer frame _ hreads⟩,
              ⟨hread, hs.free, haligned, hs.waiting⟩, fun _ => .inl, nofun⟩
        | true =>
            obtain ⟨t, finished, hreaches, ht, hhandlers, herrand, hover⟩ := reaches_begun hserves
              (⟨hread, hs.free, haligned, hs.waiting⟩ : Mirrors
                { s with
                  node := s.node.mapChannel socket fun c => { c with inbox := rest, limiter }
                  handlers := s.handlers ++ [.begin (.session socket peer frame)] } _) rfl
            rw [Errand.routine, Node.perform_map] at ht hover
            obtain ⟨hreason, rfl⟩ := Prod.mk.inj hturn
            have hfinished : finished.errand.socket? = some socket ∧
                finished.stage = .running (.done (.session reason)) := by
              refine ⟨by rw [herrand]; rfl, ?_⟩
              rw [hover, ← Option.some.inj hreason]
              rfl
            refine ⟨t, .head ⟨.work, .take s socket peer frame _ hreads⟩ hreaches, ht, ?_, ?_⟩
            · rw [hhandlers]
              refine List.forall_mem_append.mpr ⟨fun _ => .inl, ?_⟩
              simpa using .inr hfinished
            · exact fun cause _ => .inr ⟨finished, by simp [hhandlers], hfinished⟩

omit hserves in
/-- Connections change below a station as they do below the node. -/
theorem Rests.keep {t : Station B} {node after : Node B.State} (hs : s.Rests node)
    (hkeeps : node.lifecycle.Keeps after.lifecycle) (ht : t.Mirrors after)
    (hhandlers : t.handlers = s.handlers) : t.Rests after where
  toMirrors := ht
  attended handler hhandler socket hsocket := by
    obtain ⟨hsettled, hover⟩ := hs.attended handler (hhandlers ▸ hhandler) socket hsocket
    exact ⟨hkeeps.settled socket hsettled, fun peer hactive =>
      hover peer (hkeeps.active socket peer hsettled hactive)⟩

omit hserves in
/-- The first announcement that waits is sent, or its peer is disconnected. -/
theorem reaches_announced {node after : Node B.State} (hs : s.Rests node)
    (hnext : node.announceNext = some after) : ∃ t, Reaches fails answers s t ∧ t.Rests after := by
  obtain ⟨queue, hnode⟩ := hs.same
  have hwaiting := hs.waiting
  unfold Node.announceNext at hnext
  split at hnext
  next => cases hnext
  next announcement rest hannouncements =>
    rw [hannouncements, List.map_eq_cons_iff] at hwaiting
    obtain ⟨d, others, hfilter, rfl, hothers⟩ := hwaiting
    obtain ⟨before, later, hdispatches, hbefore, hwaits, hlater⟩ :=
      List.filter_eq_cons_iff.mp hfilter
    have hfate : d.fate = .waiting := of_decide_eq_true hwaits
    have hdispatch : s.dispatches[before.length]? = some d := by simp [hdispatches]
    -- whatever becomes of the dispatch, it does not wait any more
    have hleft : ∀ fate, fate ≠ .waiting →
        ((s.dispatches.set before.length { d with fate }).filter (·.fate = .waiting)).map
          (·.announcement) = rest := by
      intro fate hnot
      have hnone : before.filter (·.fate = .waiting) = [] := List.filter_eq_nil_iff.mpr hbefore
      simp [hdispatches, hnone, hnot, hlater, hothers]
    obtain rfl := Option.some.inj hnext
    unfold Node.announce
    generalize hsent : { node with announcements := rest }.send d.announcement.socket
      (.inv [d.announcement.outpoint]) = outcome
    obtain ⟨sent, sentNode⟩ := outcome
    have hsent' : s.node.send d.announcement.socket (.inv [d.announcement.outpoint]) =
        (sent, { sentNode with announcements := queue }) := by
      rw [hnode]
      exact Node.send_announcements hsent queue
    cases sent with
    | false =>
        obtain rfl := Node.unsent_of_send hsent
        refine ⟨_, .single ⟨.disturb, .undelivered s _ d hdispatch hfate⟩,
          hs.keep (Lifecycle.calm_depart _ _).keeps
            ⟨⟨queue, ?_⟩, hs.free, hs.aligned, hleft _ (by simp)⟩ rfl⟩
        dsimp only
        rw [hnode]
        rfl
    | true =>
        obtain ⟨-, bytes, -, rfl⟩ := Node.sent_of_send hsent
        exact ⟨_, .single ⟨.work, .dispatch s _ d _ hdispatch hfate hsent'⟩,
          hs.keep (.refl _) ⟨⟨queue, rfl⟩, hs.free, List.length_modify .. |>.trans hs.aligned,
            hleft _ (by simp)⟩ rfl⟩

/-- A session that ends is over, and its socket is no more active. -/
theorem reaches_left {node after : Node B.State} {now socket : Nat} {peer : PeerId}
    {reason : CloseReason} (hs : s.Rests node) (hactive : node.lifecycle.Active socket peer)
    (hturn : node.turn serve now socket peer = (some (some reason), after)) :
    ∃ t, Reaches fails answers s t ∧ t.Rests (after.leave socket) := by
  obtain ⟨t, hreaches, ht, hhandled⟩ := reaches_handled hserves hs hactive hturn
  obtain ⟨hlifecycle, -⟩ := Node.turn_sockets hturn
  obtain ⟨queue, hnode⟩ := ht.same
  obtain ⟨lifecycle, hended, hcalm, hlength, hclosed⟩ := Lifecycle.ended_of_active hactive
  rw [← hlifecycle] at hended hcalm hlength
  have hleave : after.leave socket = { after with lifecycle } := by
    simp [Node.leave, Node.advance, hended]
  have hstep : t.node.lifecycle.step? (.ended socket) = some lifecycle := by
    rw [hnode]
    exact hended
  have hfollow : t.node.follow lifecycle = { t.node with lifecycle } := by
    refine Node.follow_eq ?_
    rw [hnode]
    exact Nat.le_of_eq (hlength.trans ht.aligned.symm)
  refine ⟨_, hreaches.tail ⟨.disturb, .connect t (.ended socket) lifecycle (by simp) hstep⟩, ?_⟩
  rw [hleave, hfollow]
  refine ⟨⟨⟨queue, by dsimp only; rw [hnode]⟩, ht.free, ht.aligned.trans hlength.symm, ht.waiting⟩,
    fun handler hhandler other hother => ?_⟩
  rcases hhandled.handlers handler hhandler with hold | ⟨hsocket, -⟩
  · obtain ⟨hsettled, hover⟩ := hs.attended handler hold other hother
    rw [← hlifecycle] at hsettled hover
    exact ⟨hcalm.settled other hsettled, fun peer hactive =>
      hover peer (hcalm.active other peer hactive)⟩
  · obtain rfl := Option.some.inj (hsocket.symm.trans hother)
    obtain ⟨sock, hsock, hstage⟩ := hactive
    refine ⟨hcalm.settled socket ?_, fun peer hactive => absurd hactive (hclosed peer)⟩
    rw [hlifecycle]
    exact ⟨sock, hsock, by simp [hstage]⟩

omit hserves in
/-- A station whose node has exchanged greetings is where the node is then. -/
theorem Rests.greet {node : Node B.State} (hs : s.Rests node) (socket : Nat) (late : Bool) :
    Rests { s with node := (s.node.greet socket late).2 } (node.greet socket late).2 := by
  obtain ⟨queue, hnode⟩ := hs.same
  have hkeeps := (Node.attends_greet node socket late).lifecycle
  have haligned := Node.aligned_greet socket late hs.aligned
  obtain ⟨lifecycle, channels, hgreet⟩ := Node.greet_eq node socket late
  have hafter : (node.greet socket late).2 = { node with lifecycle, channels } :=
    hgreet node.announcements
  refine hs.keep hkeeps ⟨⟨queue, ?_⟩, ?_, haligned, ?_⟩ rfl
  · dsimp only
    rw [hnode, hgreet, hafter]
  · rw [hafter]
    exact hs.free
  · rw [hafter]
    exact hs.waiting

/-- Whatever a node does in one go is a run of its station. -/
theorem reaches_turn {node after : Node B.State} (hs : s.Rests node) (h : node.Turn serve after) :
    ∃ t, Reaches fails answers s t ∧ t.Rests after := by
  obtain ⟨queue, hnode⟩ := hs.same
  have haligned := h.aligned hs.aligned
  cases h with
  | connect event lifecycle hevent hstep =>
      have hkeeps := Lifecycle.keeps_of_step? hstep
      have hstep' : s.node.lifecycle.step? event = some lifecycle := by
        rw [hnode]
        exact hstep
      refine ⟨_, .single ⟨.disturb, .connect s event lifecycle hevent hstep'⟩,
        hs.keep hkeeps ⟨⟨queue, ?_⟩, hs.free, haligned, hs.waiting⟩ rfl⟩
      rw [hnode]
      rfl
  | greet socket late =>
      exact ⟨_, .single ⟨.disturb, .greet s socket late⟩, hs.greet socket late⟩
  | receive socket bytes =>
      refine ⟨_, .single ⟨.receive socket bytes, .receive s socket bytes⟩, hs.keep (.refl _)
        ⟨⟨queue, ?_⟩, hs.free, haligned, hs.waiting⟩ rfl⟩
      rw [hnode]
      rfl
  | endStream socket =>
      refine ⟨_, .single ⟨.disturb, .endStream s socket⟩, hs.keep (.refl _)
        ⟨⟨queue, ?_⟩, hs.free, haligned, hs.waiting⟩ rfl⟩
      rw [hnode]
      rfl
  | handle now socket peer _ hactive hturn =>
      obtain ⟨t, hreaches, ht, hhandled⟩ := reaches_handled hserves hs hactive hturn
      obtain ⟨hlifecycle, -⟩ := Node.turn_sockets hturn
      refine ⟨t, hreaches, ht, fun handler hhandler socket' hsocket' => ?_⟩
      rw [hlifecycle]
      rcases hhandled.handlers handler hhandler with hold | ⟨hsocket, hover⟩
      · exact hs.attended handler hold socket' hsocket'
      · obtain rfl := Option.some.inj (hsocket.symm.trans hsocket')
        obtain ⟨sock, hsock, hstage⟩ := hactive
        exact ⟨⟨sock, hsock, by simp [hstage]⟩, fun _ _ => hover⟩
  | leave now socket peer reason _ hactive hturn => exact reaches_left hserves hs hactive hturn
  | announce _ hnext => exact reaches_announced hs hnext
  | submit message =>
      obtain ⟨t, finished, hreaches, ht, hhandlers, herrand, hover⟩ := reaches_begun hserves
        (⟨⟨queue, hnode⟩, hs.free, hs.aligned, hs.waiting⟩ :
          Mirrors { s with handlers := s.handlers ++ [.begin (.submission message)] } node) rfl
      rw [Errand.routine, Node.perform_map] at ht
      refine ⟨t, .head ⟨.submit message, .submit s message⟩ hreaches, ht, ?_⟩
      rw [hhandlers, (Node.perform_sockets serve _ _ _).1]
      refine List.forall_mem_append.mpr ⟨hs.attended, ?_⟩
      simp [herrand, Errand.socket?]

theorem reaches_of_turns {node after : Node B.State} (hs : s.Rests node)
    (h : Relation.ReflTransGen (Node.Turn serve) node after) :
    ∃ t, Reaches fails answers s t ∧ t.Rests after := by
  induction h with
  | refl => exact ⟨s, .refl, hs⟩
  | tail _ hturn ih =>
      obtain ⟨t, hreaches, ht⟩ := ih
      obtain ⟨u, hrest, hu⟩ := reaches_turn hserves ht hturn
      exact ⟨u, hreaches.trans hrest, hu⟩

omit hserves in
theorem rests_idle {permits maxMessage : Nat} {world : B.State} {node : Node B.State}
    (h : Node.start? permits maxMessage world = some node) (w : Watcher) :
    (idle node w).Rests node := by
  obtain ⟨lifecycle, hlifecycle, rfl⟩ := Option.map_eq_some_iff.mp h
  unfold Lifecycle.start? at hlifecycle
  split at hlifecycle
  · cases hlifecycle
    exact ⟨⟨⟨[], rfl⟩, rfl, rfl, rfl⟩, by simp [idle]⟩
  · cases hlifecycle

/-- From the start on, a node that moves by turns is where a run of its station has come. -/
theorem reaches_of_start {permits maxMessage : Nat} {world : B.State} {start node : Node B.State}
    (hstart : Node.start? permits maxMessage world = some start) (w : Watcher)
    (h : Relation.ReflTransGen (Node.Turn serve) start node) :
    ∃ t, Reaches fails answers (idle start w) t ∧ t.Rests node :=
  reaches_of_turns hserves (rests_idle hstart w) h

end Station

end ChatRelay
