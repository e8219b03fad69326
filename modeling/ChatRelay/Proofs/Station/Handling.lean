import ChatRelay.Proofs.Station.Errands
import ChatRelay.Proofs.Station.Acts

/-!
# What handling a message leaves behind

To handle a message its outpoint is recorded when it is admitted, and the message is cached by a
call of its own. If that call fails, the outpoint is recorded without the message, nothing is
announced, and the message cannot be sent again. This is the only way in which a message is left
half recorded: every other failure leaves the outpoint's entry as it was.
-/

namespace ChatRelay

open Routine (Comes)

variable {σ α : Type} {o : Outpoint} {view : σ → Holdings}
  {serve : (request : Request) → σ → request.Answer × σ}

theorem Holdings.recorded_of_entries {held : Holdings} {entry : Option Bytes}
    (h : held.entries o = some entry) : held.recorded o := by
  rw [recorded, h]
  rfl

/-! ## Services that leave an outpoint alone -/

/-- Requests are served by a store and a ledger that may fail at any of them. Others may act before
each request, but not on the outpoint. -/
def Undisturbed (o : Outpoint) (view : σ → Holdings)
    (serve : (request : Request) → σ → request.Answer × σ) : Prop :=
  ∀ (request : Request) (s : σ), ∃ held : Holdings, held.entries o = (view s).entries o ∧
    request.Served Holdings.Performs (fun _ => True) (fun _ _ => True) held (serve request s).1
      (view (serve request s).2)

/-- Exchanges follow each other without a change of the outpoint's entry in between. -/
def Linked (o : Outpoint) : Holdings → List Exchange → Holdings → Prop
  | first, [], last => last.entries o = first.entries o
  | first, e :: rest, last => e.before.entries o = first.entries o ∧ Linked o e.after rest last

theorem Undisturbed.exists_exchanges (hserve : Undisturbed o view serve)
    (routine : Routine Request.Answer α) (world : σ) :
    ∃ log : List Exchange, (∀ e ∈ log, e.Served (fun _ => True) fun _ _ => True) ∧
      Comes routine (log.map (·.said)) (.done (routine.run serve world).1) ∧
      Linked o (view world) log (view (routine.run serve world).2) := by
  induction routine generalizing world with
  | done result => exact ⟨[], by simp, .refl _, rfl⟩
  | ask request next ih =>
      obtain ⟨held, hsame, hserved⟩ := hserve request world
      obtain ⟨log, hlog, hcomes, hlinked⟩ := ih _ (serve request world).2
      refine ⟨⟨⟨request, (serve request world).1⟩, held, view (serve request world).2⟩ :: log,
        ?_, .head hcomes, hsame, hlinked⟩
      exact List.forall_mem_cons.mpr ⟨hserved, hlog⟩

/-- A decision records an outpoint that was not recorded, or leaves its entry as it was. -/
theorem Undisturbed.decideAlone {message : Message}
    (hserve : Undisturbed message.outpoint view serve) (slots : Slots) (world : σ) :
    let decided := Admission.decideAlone serve message none slots world
    (∃ rejection, decided.1 = .error rejection ∧
        (view decided.2.2).entries message.outpoint = (view world).entries message.outpoint) ∨
      ∃ admission, decided.1 = .ok admission ∧ admission.outpoint = message.outpoint ∧
        (view world).entries message.outpoint = none ∧
        (view decided.2.2).entries message.outpoint = some none := by
  obtain ⟨log, hserved, hcomes, hlinked⟩ :=
    hserve.exists_exchanges (Admission.decide message none) world
  simp only [Admission.decideAlone]
  generalize (Admission.decide message none).run serve world = run at hcomes hlinked ⊢
  obtain ⟨result, after⟩ := run
  have hdecided := Admission.decided_of_comes hserved hcomes
  cases hdecided with
  | @known answer rejection first hfirst h =>
      obtain ⟨hbefore, hafter⟩ := hlinked
      exact .inl ⟨rejection, rfl, hafter.trans hbefore⟩
  | @refused answer rejection first second hfirst h =>
      obtain ⟨hbefore, hbetween, hafter⟩ := hlinked
      exact .inl ⟨rejection, rfl, hafter.trans (hbetween.trans hbefore)⟩
  | @unrecorded admission script answer rejection first second third hfirst hsigned hthird h =>
      obtain ⟨hbefore, hbetween, hlast, hafter⟩ := hlinked
      exact .inl ⟨rejection, rfl, hafter.trans (hlast.trans (hbetween.trans hbefore))⟩
  | @admitted admission script first second third hfirst houtpoint hsigned hthird =>
      obtain ⟨hbefore, hbetween, hlast, hafter⟩ := hlinked
      have hnew : first.entries message.outpoint = none := by
        simpa [Holdings.recorded] using hfirst
      have hentered : (third.enter message.outpoint none).entries message.outpoint = some none := by
        simp
      exact .inr ⟨admission, rfl, houtpoint, hbefore.symm.trans hnew, Eq.trans hafter hentered⟩

/-- A recorded outpoint is given the message, or the store fails. -/
theorem Undisturbed.putPayload (hserve : Undisturbed o view serve) {world : σ}
    {entry : Option Bytes}
    (hrecorded : (view world).entries o = some entry) (payload : Bytes) :
    ((serve (.store (.putPayload o payload)) world).1 = .ok true ∧
        (view (serve (.store (.putPayload o payload)) world).2).entries o = some (some payload)) ∨
      ∃ cause, (serve (.store (.putPayload o payload)) world).1 = .error cause ∧
        (view (serve (.store (.putPayload o payload)) world).2).entries o = some entry := by
  obtain ⟨held, hsame, hserved⟩ := hserve (.store (.putPayload o payload)) world
  rw [hrecorded] at hsame
  have hheld : held.recorded o := Holdings.recorded_of_entries hsame
  rcases hserved.store with ⟨hanswer, hafter⟩ | ⟨⟨cause, -, hanswer⟩, hafter⟩
  · rw [if_pos hheld] at hafter
    rw [hheld] at hanswer
    exact .inl ⟨hanswer, by simp [hafter]⟩
  · exact .inr ⟨cause, hanswer, by rw [hafter, hsame]⟩

/-! ## Handling -/

/-- Announcements of an outpoint to every registered peer but the source. -/
def Node.notices (node : Node σ) (source : Option PeerId) (outpoint : Outpoint) :
    List Announcement :=
  (node.lifecycle.registry.entries.filter fun entry => some entry.1 ≠ source).map
    fun entry => ⟨entry.1, entry.2, outpoint⟩

/-- The message is admitted, and then the store fails to cache it. -/
def Node.CacheFails (serve : (request : Request) → σ → request.Answer × σ) (message : Message)
    (node : Node σ) : Prop :=
  let decided := Admission.decideAlone serve message none node.slots node.world
  (∃ admission, decided.1 = .ok admission) ∧
    ∃ cause, (serve (.store (.putPayload message.outpoint message.encode)) decided.2.2).1 =
      .error cause

/-- A message that is carried is decided, and passed on once it is admitted. -/
theorem Errand.Carries.routine_eq {errand : Errand} {message : Message}
    (h : errand.Carries message) :
    ∃ (conclude : Except Rejection Admission → Ending) (outpoint : Admission → Outpoint),
      (∀ admission, admission.outpoint = message.outpoint →
        outpoint admission = message.outpoint) ∧
      (errand = .submission message → conclude = .submission) ∧
      errand.routine = do
        match ← Session.ask (.decide message) with
        | .error rejection => return conclude (.error rejection)
        | .ok admission => do
          Session.broadcast errand.source (outpoint admission) message.encode
          return conclude (.ok admission) := by
  cases errand with
  | submission submitted =>
      obtain rfl : submitted = message := h
      refine ⟨.submission, Admission.outpoint, fun _ => id, fun _ => rfl, ?_⟩
      simp only [Errand.routine, Session.submit, map_bind]
      congr 1
      funext decision
      cases decision with
      | error rejection => rfl
      | ok admission => simp [Errand.source]
  | session socket peer frame =>
      cases frame with
      | data body =>
          have hdecode : Message.decode body = .ok message := h
          refine ⟨fun _ => .session none, fun _ => message.outpoint, fun _ _ => rfl, ?_, ?_⟩
          · intro hsubmission
            cases hsubmission
          · simp only [Errand.routine, Session.handle, Session.receiveMessage, hdecode,
              ← Message.encode_of_decode hdecode, map_bind]
            congr 1
            funext decision
            cases decision with
            | error rejection => rfl
            | ok admission => simp [Errand.source]
      | inv outpoints => exact h.elim
      | getData outpoint => exact h.elim

namespace Node

variable {node : Node σ} {socket : Option Nat} {message : Message}
  {decision : Except Rejection Admission} {slots : Slots} {world : σ}

theorem perform_bind {β : Type} (routine : Routine SessionRequest.Answer α)
    (next : α → Routine SessionRequest.Answer β) :
    node.perform serve socket (routine >>= next) =
      (node.perform serve socket routine).2.perform serve socket
        (next (node.perform serve socket routine).1) :=
  Routine.run_seq ..

theorem perform_decide
    (h : Admission.decideAlone serve message none node.slots node.world =
      (decision, slots, world)) :
    node.perform serve socket (Session.ask (.decide message)) =
      (decision, { node with slots, world }) := by
  simp only [perform, Session.ask, Routine.run_ask, Routine.run_done, serveSession, h]

/-- A node caches a message and announces it, or it does neither. -/
theorem perform_broadcast (source : Option PeerId) (outpoint : Outpoint) (payload : Bytes) :
    (node.perform serve socket (Session.broadcast source outpoint payload)).2 =
      { node with
        world := (serve (.store (.putPayload outpoint payload)) node.world).2
        announcements := node.announcements ++
          if (serve (.store (.putPayload outpoint payload)) node.world).1 = .ok true then
            node.notices source outpoint
          else [] } := by
  simp only [perform, Session.broadcast, Session.ask, Routine.run_seq, Routine.run_ask,
    Routine.run_done, serveSession]
  rcases (serve (.store (.putPayload outpoint payload)) node.world).1 with cause | known
  · simp
  · cases known <;> simp [serveSession, notices]

theorem cacheFails_iff
    (h : Admission.decideAlone serve message none node.slots node.world =
      (decision, slots, world)) :
    node.CacheFails serve message ↔ (∃ admission, decision = .ok admission) ∧
      ∃ cause, (serve (.store (.putPayload message.outpoint message.encode)) world).1 =
        .error cause := by
  simp only [CacheFails, h]

end Node

/-- How a message fares when it is handled: it is turned away, or cached and announced, or recorded
and no more. -/
inductive Node.Handled (serve : (request : Request) → σ → request.Answer × σ)
    (view : σ → Holdings) (message : Message) (source : Option PeerId) (node after : Node σ) :
    Except Rejection Admission → Prop
  | rejected (rejection : Rejection) (hcalls : ¬ node.CacheFails serve message)
      (hentry : (view after.world).entries message.outpoint =
        (view node.world).entries message.outpoint)
      (hsilent : after.announcements = node.announcements) :
      Handled serve view message source node after (.error rejection)
  | relayed (admission : Admission) (hcalls : ¬ node.CacheFails serve message)
      (hcached : (view after.world).entries message.outpoint = some (some message.encode))
      (hannounced : after.announcements =
        node.announcements ++ node.notices source message.outpoint) :
      Handled serve view message source node after (.ok admission)
  | uncached (admission : Admission) (hcalls : node.CacheFails serve message)
      (hnew : (view node.world).entries message.outpoint = none)
      (hrecorded : (view after.world).entries message.outpoint = some none)
      (hsilent : after.announcements = node.announcements) :
      Handled serve view message source node after (.ok admission)

theorem Errand.Carries.handled {errand : Errand} {message : Message} (h : errand.Carries message)
    (hserve : Undisturbed message.outpoint view serve) (node : Node σ) :
    let decision := (Admission.decideAlone serve message none node.slots node.world).1
    (errand = .submission message →
        (node.perform serve errand.socket? errand.routine).1 = .submission decision) ∧
      Node.Handled serve view message errand.source node
        (node.perform serve errand.socket? errand.routine).2 decision := by
  obtain ⟨conclude, outpoint, houtpoint, hsubmission, hroutine⟩ := h.routine_eq
  have hcases := hserve.decideAlone node.slots node.world
  generalize hdecided : Admission.decideAlone serve message none node.slots node.world = decided
    at hcases
  obtain ⟨decision, slots, world⟩ := decided
  dsimp only
  rw [hroutine, Node.perform_bind, Node.perform_decide hdecided]
  rcases hcases with ⟨rejection, hresult, hentry⟩ | ⟨admission, hresult, ho, hnew, hrecorded⟩
  · obtain rfl : decision = .error rejection := hresult
    refine ⟨fun hsubmitted => ?_, .rejected rejection ?_ hentry rfl⟩
    · rw [hsubmission hsubmitted]
      rfl
    · rw [Node.cacheFails_iff hdecided]
      rintro ⟨⟨admission, hadmitted⟩, -⟩
      cases hadmitted
  · obtain rfl : decision = .ok admission := hresult
    dsimp only
    rw [Node.perform_bind]
    refine ⟨fun hsubmitted => ?_, ?_⟩
    · rw [hsubmission hsubmitted]
      rfl
    · rw [houtpoint admission ho, Node.perform_broadcast]
      rcases hserve.putPayload hrecorded message.encode with
        ⟨hanswer, hcached⟩ | ⟨cause, hanswer, hkept⟩
      · refine .relayed admission ?_ hcached ?_
        · rw [Node.cacheFails_iff hdecided]
          rintro ⟨-, cause, hcause⟩
          cases hanswer.symm.trans hcause
        · exact congrArg (node.announcements ++ ·) (if_pos hanswer)
      · refine .uncached admission ?_ hnew hkept ?_
        · exact (Node.cacheFails_iff hdecided).mpr ⟨⟨admission, rfl⟩, cause, hanswer⟩
        · refine (congrArg (node.announcements ++ ·) (if_neg ?_)).trans (List.append_nil _)
          rw [hanswer]
          exact nofun

/-! ## A store that fails to cache -/

/-- The backend, with a ledger that tells the truth about a chain and with calls that fail. -/
def OutpointStore.serveFailing (B : OutpointStore) (failing : StoreCall → Bool) (c : Chain) :
    (request : Request) → B.State → request.Answer × B.State
  | .store call, s =>
    if failing call then (.error (.databaseOperation "no space left"), s) else B.perform call s
  | .ledger call, s => (c.answer call, s)

theorem OutpointStore.undisturbed_serveFailing (B : OutpointStore) (failing : StoreCall → Bool)
    (c : Chain) (o : Outpoint) : Undisturbed o B.holdings (B.serveFailing failing c) := by
  intro request s
  refine ⟨B.holdings s, rfl, ?_⟩
  cases request with
  | ledger call => exact ⟨trivial, rfl⟩
  | store call =>
      simp only [serveFailing]
      split
      · exact .inr ⟨trivial, ⟨_, fun outpoint => by simp, rfl⟩, rfl⟩
      · exact .inl (B.performs call s)

section

variable (B : OutpointStore) {failing : StoreCall → Bool} {c : Chain} {node : Node B.State}
  {message : Message}

/-- A message whose outpoint is recorded is turned away when it is submitted. -/
theorem OutpointStore.resubmitted (hasked : failing (.has message.outpoint) = false)
    (h : (B.holdings node.world).recorded message.outpoint) :
    (node.perform (B.serveFailing failing c) none (Errand.submission message).routine).1 =
      .submission (.error .alreadySeen) := by
  have hseen : (B.serveFailing failing c (.store (.has message.outpoint)) node.world).1 =
      .ok true := by
    simp only [serveFailing, hasked]
    rw [if_neg (by simp), (B.performs (.has message.outpoint) node.world).1, h]
  have hdecided : (Admission.decideAlone (B.serveFailing failing c) message none node.slots
      node.world).1 = .error .alreadySeen := by
    simp only [Admission.decideAlone, Admission.decide, askStore, Routine.run_seq, Routine.run_ask,
      Routine.run_done, hseen]
    rfl
  have hcarries : (Errand.submission message).Carries message := rfl
  have hending := (hcarries.handled (B.undisturbed_serveFailing failing c _) node).1 rfl
  rw [hdecided] at hending
  exact hending

/-- A submission that the store fails to cache is reported as admitted, and its outpoint is recorded
without it. With nothing failing any more, it is turned away when it is submitted again. -/
theorem OutpointStore.submitted_of_cacheFails
    (hfails : node.CacheFails (B.serveFailing failing c) message) :
    let routine := (Errand.submission message).routine
    let first := node.perform (B.serveFailing failing c) none routine
    let second := first.2.perform (B.serveFailing (fun _ => false) c) none routine
    (∃ admission, first.1 = .submission (.ok admission)) ∧
      (B.holdings node.world).entries message.outpoint = none ∧
      (B.holdings first.2.world).entries message.outpoint = some none ∧
      first.2.announcements = node.announcements ∧
      second.1 = .submission (.error .alreadySeen) := by
  have hcarries : (Errand.submission message).Carries message := rfl
  obtain ⟨hending, hhandled⟩ :=
    hcarries.handled (B.undisturbed_serveFailing failing c message.outpoint) node
  obtain ⟨⟨admission, hadmitted⟩, -⟩ := id hfails
  rw [hadmitted] at hending hhandled
  cases hhandled with
  | relayed admission hcalls => exact absurd hfails hcalls
  | uncached admission hcalls hnew hrecorded hsilent =>
      exact ⟨⟨admission, hending rfl⟩, hnew, hrecorded, hsilent,
        B.resubmitted rfl (Holdings.recorded_of_entries hrecorded)⟩

end

/-- A node with an empty store and one peer. -/
def sampleHost : Node MemoryStore.backend.State :=
  let node := Station.sampleNode
  { node with lifecycle := { node.lifecycle with registry := .ofList [(⟨1⟩, 0)] } }

def failsToCache : StoreCall → Bool
  | .putPayload _ _ => true
  | _ => false

theorem admitted_failsToCache :
    (Admission.decideAlone (MemoryStore.backend.serveFailing failsToCache sampleChain)
      sampleMessage none sampleHost.slots sampleHost.world).1 = .ok Admission.sampleAdmission := by
  have hnew : MemoryStore.backend.serveFailing failsToCache sampleChain
      (.store (.has sampleMessage.outpoint)) sampleHost.world =
        (.ok false, sampleHost.world) := rfl
  have hshown : MemoryStore.backend.serveFailing failsToCache sampleChain
      (.ledger (.output sampleMessage.outpoint)) sampleHost.world =
        (.ok (some ⟨Admission.sampleScript, false⟩), sampleHost.world) := rfl
  have hadded : (MemoryStore.backend.serveFailing failsToCache sampleChain
      (.store (.add sampleMessage.outpoint)) sampleHost.world).1 = .ok () := rfl
  simp only [Admission.decideAlone, Admission.decide, askStore, askLedger, Routine.run_seq,
    Routine.run_ask, Routine.run_done, hnew, hshown,
    Admission.judge_of_ownerSigned Admission.sampleMessage_signed, hadded]
  rfl

theorem cacheFails_failsToCache :
    sampleHost.CacheFails (MemoryStore.backend.serveFailing failsToCache sampleChain)
      sampleMessage :=
  ⟨⟨_, admitted_failsToCache⟩, _, rfl⟩

/-! ## Half recorded messages -/

/-- A message is left half recorded exactly if the store admits it and then fails to cache it: else
its outpoint is recorded with it or has the entry that it had. Just then a submission is reported
as admitted although it is not cached and announced. -/
theorem Errand.Carries.half_recorded_iff {errand : Errand} {message : Message}
    (h : errand.Carries message) (hserve : Undisturbed message.outpoint view serve)
    (node : Node σ) :
    let handled := node.perform serve errand.socket? errand.routine
    (¬ ((view handled.2.world).entries message.outpoint = some (some message.encode) ∨
        (view handled.2.world).entries message.outpoint =
          (view node.world).entries message.outpoint) ↔ node.CacheFails serve message) ∧
      ∀ admission, errand = .submission message → handled.1 = .submission (.ok admission) →
        (¬ ((view handled.2.world).entries message.outpoint = some (some message.encode) ∧
          handled.2.announcements =
            node.announcements ++ node.notices none message.outpoint) ↔
          node.CacheFails serve message) := by
  intro handled
  obtain ⟨hending, hhandled⟩ := h.handled hserve node
  generalize (Admission.decideAlone serve message none node.slots node.world).1 = decision
    at hending hhandled
  cases hhandled with
  | rejected rejection hcalls hentry hsilent =>
      refine ⟨by simp only [handled, hentry, hcalls, or_true, not_true_eq_false], ?_⟩
      intro admission hsubmission hadmitted
      cases (hending hsubmission).symm.trans hadmitted
  | relayed admission hcalls hcached hannounced =>
      refine ⟨by simp only [handled, hcached, hcalls, true_or, not_true_eq_false], ?_⟩
      rintro admission rfl hadmitted
      simp only [handled, hcached, hcalls, hannounced, Errand.source, and_self, not_true_eq_false]
  | uncached admission hcalls hnew hrecorded hsilent =>
      refine ⟨by simp [handled, hrecorded, hnew, hcalls], ?_⟩
      intro admission hsubmission hadmitted
      simp [handled, hrecorded, hcalls]

/-- A peer delivers a message that the store fails to cache. -/
theorem half_recorded_iff_delivered :
    let serve := MemoryStore.backend.serveFailing failsToCache sampleChain
    let errand := Errand.session 0 ⟨1⟩ (.data sampleMessage.encode)
    errand.Carries sampleMessage ∧
      Undisturbed sampleOutpoint MemoryStore.backend.holdings serve ∧
      ¬ ((MemoryStore.backend.holdings
            (sampleHost.perform serve errand.socket? errand.routine).2.world).entries
            sampleOutpoint = some (some sampleMessage.encode) ∨
          (MemoryStore.backend.holdings
            (sampleHost.perform serve errand.socket? errand.routine).2.world).entries
            sampleOutpoint =
          (MemoryStore.backend.holdings sampleHost.world).entries sampleOutpoint) := by
  intro serve errand
  have hcarries : errand.Carries sampleMessage := Message.decode_encode sampleMessage
  have hserve : Undisturbed sampleOutpoint MemoryStore.backend.holdings serve :=
    OutpointStore.undisturbed_serveFailing _ _ _ _
  exact ⟨hcarries, hserve,
    (hcarries.half_recorded_iff hserve sampleHost).1.mpr cacheFails_failsToCache⟩

/-- The store fails to cache a submitted message: the only peer is told nothing, and the message
cannot be sent again. -/
theorem submission_half_recorded :
    let routine := (Errand.submission sampleMessage).routine
    let first := sampleHost.perform
      (MemoryStore.backend.serveFailing failsToCache sampleChain) none routine
    let second := first.2.perform
      (MemoryStore.backend.serveFailing (fun _ => false) sampleChain) none routine
    (∃ admission, first.1 = .submission (.ok admission)) ∧
      (MemoryStore.backend.holdings sampleHost.world).entries sampleOutpoint = none ∧
      (MemoryStore.backend.holdings first.2.world).entries sampleOutpoint = some none ∧
      first.2.announcements = [] ∧
      sampleHost.notices none sampleOutpoint = [⟨⟨1⟩, 0, sampleOutpoint⟩] ∧
      second.1 = .submission (.error .alreadySeen) := by
  obtain ⟨hadmitted, hnew, hrecorded, hsilent, hagain⟩ :=
    MemoryStore.backend.submitted_of_cacheFails cacheFails_failsToCache
  exact ⟨hadmitted, hnew, hrecorded, hsilent, rfl, hagain⟩

end ChatRelay
