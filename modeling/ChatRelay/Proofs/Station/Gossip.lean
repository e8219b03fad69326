import ChatRelay.Proofs.Station.Announcements

/-!
# A node among sound nodes

As long as nothing disturbs a node, no store call fails, and nobody hands it another message that
its ledger would accept, a node admits, caches and announces one message. What it has recorded and
cached stays so, and what its handlers were told stays true.
-/

namespace ChatRelay

/-- Whether nothing that a ledger may show makes a message valid. -/
def Message.Unsigned (answers : (call : LedgerCall) → call.Answer → Prop) (message : Message) :
    Prop :=
  ∀ script kind owner, answers (.output message.outpoint) (.ok (some ⟨script, false⟩)) →
    ¬ OwnerSigned message script kind owner

/-- Whether a ledger always shows the output of a message unspent, with a script whose owner signed
it. -/
structure Message.Owned (answers : (call : LedgerCall) → call.Answer → Prop) (message : Message)
    (script : Bytes) : Prop where
  shown : ∀ answer, answers (.output message.outpoint) answer →
    answer = .ok (some ⟨script, false⟩)
  signed : ∃ kind owner, OwnerSigned message script kind owner

/-- Whether an errand is about message `m` only: it may be requested only where it is cached, and
other messages are not valid. The peers are those that are registered. -/
def Errand.Proper (answers : (call : LedgerCall) → call.Answer → Prop) (m : Message)
    (registered : List (PeerId × Nat)) (cached : Prop) : Errand → Prop
  | .submission message => message = m ∨ message.Unsigned answers
  | .session socket peer frame => (peer, socket) ∈ registered ∧
    (frame = .inv [m.outpoint] ∨ frame = .getData m.outpoint ∧ cached ∨ frame = .data m.encode)

/-- Whether an outpoint was recorded for a decision of a handler. -/
def Handler.Adds (handler : Handler) (o : Outpoint) : Prop :=
  ∃ e ∈ handler.exchanges, e.said = ⟨.store (.add o), .ok ()⟩ ∧ e.after.recorded o

variable {answers : (call : LedgerCall) → call.Answer → Prop} {m : Message}
  {registered : List (PeerId × Nat)} {cached : Prop} {script : Bytes}

/-! ## Handlers -/

namespace Errand.Proper

variable {handler : Handler} (h : handler.errand.Proper answers m registered cached)
  (hcoherent : handler.Coherent (fun _ => False) answers)

theorem mono {later : Prop} {errand : Errand} (h : errand.Proper answers m registered cached)
    (hlater : cached → later) : errand.Proper answers m registered later := by
  cases errand with
  | submission message => exact h
  | session socket peer frame =>
      exact ⟨h.1, h.2.imp_right fun h => h.imp_left fun h => ⟨h.1, hlater h.2⟩⟩

include h hcoherent

/-- No other message is admitted. -/
theorem only {d : Decision} (hd : d ∈ handler.decisions) {admission : Admission}
    (hresult : d.result = .ok admission) : d.message = m := by
  have hcarries := hcoherent.carries hd
  cases herrand : handler.errand with
  | submission message =>
      rw [herrand] at h hcarries
      obtain rfl : message = d.message := hcarries
      refine h.resolve_right fun hunsigned => ?_
      obtain ⟨-, -, -, e, he, script, hsaid, hsigned⟩ :=
        (hcoherent.decision d hd).eq_ok_iff.mp hresult
      have hserved := hcoherent.served d hd e he
      rw [Exchange.Served, hsaid] at hserved
      exact hunsigned script _ _ hserved.1 hsigned
  | session socket peer frame =>
      rw [herrand] at h hcarries
      rcases h.2 with rfl | ⟨rfl, -⟩ | rfl
      · exact hcarries.elim
      · exact hcarries.elim
      · exact Except.ok.inj (Eq.symm hcarries |>.trans (Message.decode_encode m))

/-- Only message `m` is cached. -/
theorem cached_eq {o : Outpoint} {b : Bytes} {answer : StoreCall.Answer (.putPayload o b)}
    (hsaid : ⟨.store (.putPayload o b), answer⟩ ∈ handler.transcript) :
    o = m.outpoint ∧ b = m.encode ∧
      ∃ d ∈ handler.decisions, d.message = m ∧ ∃ admission, d.result = .ok admission := by
  obtain ⟨d, hd, admission, hresult, rfl, rfl⟩ := hcoherent.cached hsaid
  obtain rfl := h.only hcoherent hd hresult
  exact ⟨rfl, rfl, d, hd, rfl, admission, hresult⟩

end Errand.Proper

namespace Handler

variable {handler : Handler}

theorem mem_exchanges {d : Decision} (hd : d ∈ handler.decisions) {e : Exchange}
    (he : e ∈ d.exchanges) : e ∈ handler.exchanges :=
  List.mem_append_left _ (List.mem_flatMap.mpr ⟨d, hd, he⟩)

variable (hcoherent : handler.Coherent (fun _ => False) answers)

include hcoherent

/-- A message that was admitted has been recorded. -/
theorem Coherent.adds {d : Decision} (hd : d ∈ handler.decisions) {admission : Admission}
    (hresult : d.result = .ok admission) : handler.Adds d.message.outpoint := by
  have hdecided := hcoherent.decision d hd
  rw [hresult] at hdecided
  generalize hlog : d.exchanges = log at hdecided
  cases hdecided with
  | admitted hfirst houtpoint hsigned hthird =>
      refine ⟨_, mem_exchanges hd (hlog ▸ List.mem_cons_of_mem _ (List.mem_cons_of_mem _
        List.mem_cons_self)), rfl, by simp⟩

/-- When an owned message has been decided, its outpoint is recorded or was found to be. -/
theorem Coherent.found {d : Decision} (hd : d ∈ handler.decisions)
    (howned : d.message.Owned answers script) :
    ∃ e ∈ handler.exchanges, e.before.recorded d.message.outpoint ∨
      e.after.recorded d.message.outpoint := by
  have hdecided := hcoherent.decision d hd
  have hserved := hcoherent.served d hd
  have hmem : ∀ e ∈ d.exchanges, e ∈ handler.exchanges := fun e he => mem_exchanges hd he
  generalize d.exchanges = log, d.result = result at hdecided hserved hmem
  obtain ⟨kind, owner, hsigned⟩ := howned.signed
  cases hdecided with
  | known hfirst hrejects =>
      cases hrejects with
      | unread =>
          rcases hserved _ List.mem_cons_self with hperforms | ⟨hfails, -⟩
          · cases hperforms.1
          · exact hfails.elim
      | seen => exact ⟨_, hmem _ List.mem_cons_self, .inl (hfirst rfl)⟩
  | refused hfirst hrejects =>
      have hshown := hserved _ (List.mem_cons_of_mem _ List.mem_cons_self)
      obtain rfl := howned.shown _ hshown.1
      exact absurd hrejects (Admission.not_rejects_of_ownerSigned hsigned)
  | unrecorded hfirst hsigned' hthird hrejects =>
      cases hrejects with
      | raced =>
          exact ⟨_, hmem _ (List.mem_cons_of_mem _ (List.mem_cons_of_mem _ List.mem_cons_self)),
            .inl (hthird _ rfl)⟩
      | unrecorded hcause =>
          rcases hserved _ (List.mem_cons_of_mem _ (List.mem_cons_of_mem _ List.mem_cons_self)) with
            hperforms | ⟨hfails, -⟩
          · rw [Holdings.performs_add] at hperforms
            split at hperforms
            · exact absurd (Except.error.inj hperforms.1) (hcause _)
            · cases hperforms.1
          · exact hfails.elim
  | admitted hfirst houtpoint hsigned' hthird =>
      exact ⟨_, hmem _ (List.mem_cons_of_mem _ (List.mem_cons_of_mem _ List.mem_cons_self)),
        .inr (by simp)⟩

end Handler

/-! ## Nodes -/

namespace Station

variable {B : OutpointStore} {s t : Station B} {move : Move}

/-- Whether a message is cached for its outpoint. -/
def Caches (s : Station B) (m : Message) : Prop :=
  s.held.entries m.outpoint = some (some m.encode)

theorem Caches.recorded (h : s.Caches m) : s.held.recorded m.outpoint := by
  rw [Holdings.recorded, h]
  rfl

/-- Whether what a handler was told is so, and its calls succeeded. -/
def Confirms (s : Station B) (m : Message) : Answered SessionRequest.Answer → Prop
  | ⟨.store (.has o), answer⟩ =>
    o = m.outpoint → answer = .ok true ∧ s.held.recorded m.outpoint ∨ answer = .ok false
  | ⟨.store (.payload _), answer⟩ => answer = .ok (some m.encode)
  | ⟨.store (.putPayload _ _), answer⟩ => answer = .ok true ∧ s.Caches m
  | ⟨.reply _, sent⟩ => sent = true
  | _ => True

/-- What is so of a node that is not disturbed and gossips one message. -/
structure Gossips (answers : (call : LedgerCall) → call.Answer → Prop) (m : Message)
    (s : Station B) : Prop where
  coherent : s.Coherent (fun _ => False) answers
  accounted : s.Accounted
  posted : s.Posted
  traced : s.Traced
  resting : ∃ w, s.task = .resting w
  errands : ∀ handler ∈ s.handlers,
    handler.errand.Proper answers m s.node.lifecycle.registry.entries (s.Caches m)
  witnessed : ∀ handler ∈ s.handlers, ∀ e ∈ handler.exchanges,
    e.before.recorded m.outpoint ∨ e.after.recorded m.outpoint → s.held.recorded m.outpoint
  added : s.held.recorded m.outpoint → ∃ handler ∈ s.handlers, handler.Adds m.outpoint
  once : ∀ (j k : Nat) (first second : Handler), s.handlers[j]? = some first →
    s.handlers[k]? = some second → first.Adds m.outpoint → second.Adds m.outpoint → j = k
  cached : ∀ b, s.held.entries m.outpoint = some (some b) → b = m.encode
  confirmed : ∀ handler ∈ s.handlers, ∀ said ∈ handler.transcript, s.Confirms m said
  audience : ∀ handler ∈ s.handlers, ∀ source o,
    ⟨.announce source o, ()⟩ ∈ handler.transcript →
    handler.audience = s.node.lifecycle.registry.entries
  fates : ∀ d ∈ s.dispatches, d.fate ≠ .failed

theorem gossips_idle {node : Node B.State} (h : node.Fresh) (w : Watcher)
    (hnew : ¬ (B.holdings node.world).recorded m.outpoint) : (idle node w).Gossips answers m where
  coherent := by simp [Coherent, idle]
  accounted := accounted_idle h w
  posted := posted_idle h w
  traced := traced_idle node w
  resting := ⟨w, rfl⟩
  errands := by simp [idle]
  witnessed := by simp [idle]
  added hrecorded := absurd hrecorded hnew
  once := by simp [idle]
  cached b hentry := by
    refine absurd (Holdings.recorded_iff.mpr fun hnone => ?_) hnew
    cases hnone.symm.trans hentry
  confirmed := by simp [idle]
  audience := by simp [idle]
  fates := by simp [idle]

/-- What an undisturbed step leaves as it is. -/
theorem Step.undisturbed {fails : StoreCall → Prop} (h : Step fails answers s move t)
    (hmove : move ≠ .disturb) : t.node.lifecycle = s.node.lifecycle ∧
      t.node.maxMessage = s.node.maxMessage ∧ t.task = s.task := by
  cases h with
  | take socket peer frame node hreads =>
      cases hreads
      exact ⟨rfl, rfl, rfl⟩
  | reply k handler frame next socket node hhandler hstage hsocket hsent =>
      obtain ⟨-, bytes, -, rfl⟩ := Node.sent_of_send hsent
      exact ⟨rfl, rfl, rfl⟩
  | dispatch j dispatch node hdispatch hfate hsent =>
      obtain ⟨-, bytes, -, rfl⟩ := Node.sent_of_send hsent
      exact ⟨rfl, rfl, rfl⟩
  | receive => exact ⟨rfl, rfl, rfl⟩
  | submit => exact ⟨rfl, rfl, rfl⟩
  | store => exact ⟨rfl, rfl, rfl⟩
  | decide => exact ⟨rfl, rfl, rfl⟩
  | proceed => exact ⟨rfl, rfl, rfl⟩
  | decided => exact ⟨rfl, rfl, rfl⟩
  | announce => exact ⟨rfl, rfl, rfl⟩
  | _ => exact absurd rfl hmove

/-- What is asked for decisions stays in the logs of the handlers. -/
theorem Step.exchanges_mono {fails : StoreCall → Prop} (h : Step fails answers s move t)
    {handler : Handler} (hhandler : handler ∈ s.handlers) :
    ∃ after ∈ t.handlers, handler.exchanges ⊆ after.exchanges := by
  obtain ⟨k, hk⟩ := List.getElem?_of_mem hhandler
  obtain ⟨after, hafter, -⟩ := h.handler_grows hk
  refine ⟨after, List.mem_of_getElem? hafter, ?_⟩
  rcases h.exchanges with hunasked | ⟨j, asking, asked, e, hasking, hset, hmore, -⟩
  · rcases hunasked k after hafter with ⟨hnone, -⟩ | ⟨before, hbefore, hsame⟩
    · cases hnone.symm.trans hk
    · obtain rfl := Option.some.inj (hk.symm.trans hbefore)
      rw [hsame]
      exact List.Subset.refl _
  · rw [hset] at hafter
    rcases getElem?_set_cases hafter with ⟨rfl, rfl⟩ | hsame
    · obtain rfl := Option.some.inj (hk.symm.trans hasking)
      simp [hmore]
    · obtain rfl := Option.some.inj (hk.symm.trans hsame)
      exact List.Subset.refl _

/-- The outpoint is added only by a handler that finds it unrecorded. -/
theorem Step.adds_cases (h : Step (fun _ => False) answers s move t) {o : Outpoint} :
    ∃ k, ∀ (j : Nat) (after : Handler), t.handlers[j]? = some after → after.Adds o →
      (∃ handler, s.handlers[j]? = some handler ∧ handler.Adds o) ∨
        j = k ∧ ¬ s.held.recorded o := by
  obtain ⟨k, hcases⟩ := h.exchange_cases
  refine ⟨k, fun j after hafter hadds => ?_⟩
  obtain ⟨e, he, hsaid, hrecorded⟩ := hadds
  rcases hcases j after hafter e he with ⟨handler, hhandler, hold⟩ | ⟨rfl, hbefore, -, hserved⟩
  · exact .inl ⟨handler, hhandler, e, hold, hsaid, hrecorded⟩
  · rw [Exchange.Served, hsaid, hbefore] at hserved
    exact .inr ⟨rfl, hserved.added.1⟩

/-- An outpoint's entry changes when it is recorded, and when its message is cached. -/
theorem Gossips.entry (hs : s.Gossips answers m) (h : Step (fun _ => False) answers s move t)
    (herrands : ∀ handler ∈ t.handlers, handler.errand.Proper answers m registered cached) :
    t.held.entries m.outpoint = s.held.entries m.outpoint ∨
      (s.held.entries m.outpoint = none ∧ t.held.entries m.outpoint = some none ∧
        ∃ handler ∈ t.handlers, handler.Adds m.outpoint) ∨
      t.Caches m ∧ s.held.recorded m.outpoint := by
  have hcoherent := hs.coherent.step h
  rcases h.held_cases with hheld | hserves
  · exact .inl (by rw [hheld])
  cases hserves with
  | watcher request next answer htask hnext hhandlers hserved =>
      obtain ⟨w, hresting⟩ := hs.resting
      cases hresting.symm.trans htask
  | handler after call answer hafter hsaid htask hserved =>
      have hperforms := hserved.resolve_right fun hfailed => hfailed.1
      -- a session reads the store and caches; it never adds or removes
      have hwarrants := (hcoherent after hafter).begins.warrants hsaid
      cases call with
      | has o => exact .inl (by rw [hperforms.2])
      | payload o => exact .inl (by rw [hperforms.2])
      | putPayload o b =>
          obtain ⟨rfl, rfl, -⟩ := (herrands after hafter).cached_eq (hcoherent after hafter) hsaid
          have hheld := hperforms.2
          split at hheld
          next hrecorded => exact .inr (.inr ⟨by simp [Caches, hheld], hrecorded⟩)
          next => exact .inl (by rw [hheld])
      | _ => cases hwarrants
  | admission k handler after e hhandler hasks hset hexchanges hbefore hafter htask hserved =>
      obtain ⟨o, hdecides⟩ := (hs.coherent handler (List.mem_of_getElem? hhandler)).decides hasks
      have hmem : e ∈ after.exchanges := by simp [hexchanges]
      rw [Exchange.Served, hbefore, hafter] at hserved
      obtain ⟨⟨question, answer⟩, before, later⟩ := e
      obtain rfl : later = t.held := hafter
      -- a decision asks for the outpoint's record and output, and adds it
      rcases hdecides with heq | heq | heq
      · obtain rfl : question = _ := heq
        exact .inl (by rw [(hserved.resolve_right fun hfailed => hfailed.1).2])
      · obtain rfl : question = _ := heq
        exact .inl (by rw [hserved.2])
      · obtain rfl : question = _ := heq
        have hperforms := Holdings.performs_add.mp (hserved.resolve_right fun hfailed => hfailed.1)
        split at hperforms
        next => exact .inl (by rw [hperforms.2])
        next hnew =>
          obtain ⟨rfl, hheld⟩ := hperforms
          by_cases ho : m.outpoint = o
          · subst ho
            refine .inr (.inl ⟨?_, by simp [hheld], after, ?_, _, hmem, rfl, by simp [hheld]⟩)
            · simpa [Holdings.recorded] using hnew
            · rw [hset]
              exact mem_set_self hhandler after
          · exact .inl (by simp [hheld, ho])

namespace Gossips

variable (hs : s.Gossips answers m) (h : Step (fun _ => False) answers s move t)
  (hmove : move ≠ .disturb)
  (hbegun : ∀ (k : Nat) (errand : Errand), s.handlers[k]? = none →
    t.handlers[k]? = some (.begin errand) →
    errand.Proper answers m s.node.lifecycle.registry.entries (s.Caches m))

include hs h hbegun

theorem errands_step {after : Handler} (hafter : after ∈ t.handlers) :
    after.errand.Proper answers m s.node.lifecycle.registry.entries (s.Caches m) := by
  obtain ⟨k, hk⟩ := List.getElem?_of_mem hafter
  cases h.past hk with
  | new errand hnone hbegins => exact hbegun k errand hnone hk
  | silent handler _ hhandler herrand htranscript haudience =>
      exact herrand ▸ hs.errands handler (List.mem_of_getElem? hhandler)
  | said handler _ said hhandler herrand htranscript haudience heffect =>
      exact herrand ▸ hs.errands handler (List.mem_of_getElem? hhandler)

/-- What is recorded stays recorded. -/
theorem recorded_step (hrecorded : s.held.recorded m.outpoint) : t.held.recorded m.outpoint := by
  rcases hs.entry h fun _ => hs.errands_step h hbegun with hsame | ⟨hnone, -⟩ | ⟨hcaches, -⟩
  · rwa [Holdings.recorded, hsame]
  · rw [Holdings.recorded, hnone] at hrecorded
    cases hrecorded
  · exact hcaches.recorded

/-- What is cached stays cached. -/
theorem caches_step (hcaches : s.Caches m) : t.Caches m := by
  rcases hs.entry h fun _ => hs.errands_step h hbegun with hsame | ⟨hnone, -⟩ | ⟨hcaches, -⟩
  · exact hsame.trans hcaches
  · cases hnone.symm.trans hcaches
  · exact hcaches

theorem confirms_step {said : Answered SessionRequest.Answer} (hsaid : s.Confirms m said) :
    t.Confirms m said := by
  obtain ⟨question, answer⟩ := said
  match question, answer, hsaid with
  | .store (.has o), answer, hsaid =>
      exact fun ho => (hsaid ho).imp_left fun h' => ⟨h'.1, hs.recorded_step h hbegun h'.2⟩
  | .store (.putPayload o b), answer, hsaid => exact ⟨hsaid.1, hs.caches_step h hbegun hsaid.2⟩
  | .store (.payload o), answer, hsaid => exact hsaid
  | .reply frame, sent, hsaid => exact hsaid
  | .store (.add o), _, _ => trivial
  | .store (.remove o), _, _ => trivial
  | .store (.prune o), _, _ => trivial
  | .store .outpoints, _, _ => trivial
  | .store .size, _, _ => trivial
  | .store .watermark, _, _ => trivial
  | .store (.setWatermark o), _, _ => trivial
  | .decide message, _, _ => trivial
  | .announce source o, _, _ => trivial

/-- Outpoint entries that a decision found stay recorded. -/
theorem witnessed_step {after : Handler} (hafter : after ∈ t.handlers) {e : Exchange}
    (he : e ∈ after.exchanges)
    (hrecorded : e.before.recorded m.outpoint ∨ e.after.recorded m.outpoint) :
    t.held.recorded m.outpoint := by
  obtain ⟨k, hk⟩ := List.getElem?_of_mem hafter
  obtain ⟨j, hcases⟩ := h.exchange_cases
  rcases hcases k after hk e he with ⟨handler, hhandler, hold⟩ | ⟨-, hbefore, hafter, -⟩
  · exact hs.recorded_step h hbegun
      (hs.witnessed handler (List.mem_of_getElem? hhandler) e hold hrecorded)
  · rcases hrecorded with hrecorded | hrecorded
    · exact hs.recorded_step h hbegun (hbefore ▸ hrecorded)
    · exact hafter ▸ hrecorded

theorem added_step (hrecorded : t.held.recorded m.outpoint) :
    ∃ handler ∈ t.handlers, handler.Adds m.outpoint := by
  have hbefore : s.held.recorded m.outpoint → ∃ handler ∈ t.handlers, handler.Adds m.outpoint := by
    intro hrecorded
    obtain ⟨handler, hhandler, e, he, hadded⟩ := hs.added hrecorded
    obtain ⟨after, hafter, hsubset⟩ := h.exchanges_mono hhandler
    exact ⟨after, hafter, e, hsubset he, hadded⟩
  rcases hs.entry h fun _ => hs.errands_step h hbegun with hsame | ⟨-, -, hadds⟩ | ⟨-, hold⟩
  · rw [Holdings.recorded, hsame] at hrecorded
    exact hbefore hrecorded
  · exact hadds
  · exact hbefore hold

omit h hbegun in
theorem recorded_of_adds {handler : Handler} (hhandler : handler ∈ s.handlers)
    (hadds : handler.Adds m.outpoint) : s.held.recorded m.outpoint := by
  obtain ⟨e, he, -, hrecorded⟩ := hadds
  exact hs.witnessed handler hhandler e he (.inr hrecorded)

omit hbegun in
/-- At most one handler adds the outpoint. -/
theorem once_step {i j : Nat} {first second : Handler} (hfirst : t.handlers[i]? = some first)
    (hsecond : t.handlers[j]? = some second) (hadds : first.Adds m.outpoint)
    (hadds' : second.Adds m.outpoint) : i = j := by
  -- who adds finds the outpoint unrecorded, which it is no more once somebody has added it
  obtain ⟨k, hcases⟩ := h.adds_cases (o := m.outpoint)
  rcases hcases i first hfirst hadds with ⟨x, hx, hxadds⟩ | ⟨rfl, hnew⟩
  · rcases hcases j second hsecond hadds' with ⟨y, hy, hyadds⟩ | ⟨rfl, hnew⟩
    · exact hs.once i j x y hx hy hxadds hyadds
    · exact absurd (hs.recorded_of_adds (List.mem_of_getElem? hx) hxadds) hnew
  · rcases hcases j second hsecond hadds' with ⟨y, hy, hyadds⟩ | ⟨rfl, -⟩
    · exact absurd (hs.recorded_of_adds (List.mem_of_getElem? hy) hyadds) hnew
    · rfl

theorem cached_step {b : Bytes} (hentry : t.held.entries m.outpoint = some (some b)) :
    b = m.encode := by
  rcases hs.entry h fun _ => hs.errands_step h hbegun with hsame | ⟨-, hnew, -⟩ | ⟨hcaches, -⟩
  · exact hs.cached b (hsame ▸ hentry)
  · cases hnew.symm.trans hentry
  · exact Option.some.inj (Option.some.inj (hentry.symm.trans hcaches))

include hmove

/-- What a handler is told is so. -/
theorem confirmed_step (howned : m.Owned answers script) {after : Handler}
    (hafter : after ∈ t.handlers) {said : Answered SessionRequest.Answer}
    (hsaid : said ∈ after.transcript) : t.Confirms m said := by
  have hcoherent := hs.coherent.step h after hafter
  have hproper := hs.errands_step h hbegun hafter
  obtain ⟨k, hk⟩ := List.getElem?_of_mem hafter
  have hbefore : ∀ handler, s.handlers[k]? = some handler → said ∈ handler.transcript →
      t.Confirms m said := fun handler hhandler hsaid =>
    hs.confirms_step h hbegun (hs.confirmed handler (List.mem_of_getElem? hhandler) said hsaid)
  cases h.past hk with
  | new errand hnone hbegins => cases hsaid
  | silent handler _ hhandler herrand htranscript haudience =>
      exact hbefore handler hhandler (htranscript ▸ hsaid)
  | said handler _ new hhandler herrand htranscript haudience heffect =>
      have hmem := hsaid
      rw [htranscript] at hsaid
      rcases List.mem_append.mp hsaid with hold | hnew
      · exact hbefore handler hhandler hold
      obtain rfl := List.mem_singleton.mp hnew
      cases heffect with
      | decide => trivial
      | announce => trivial
      | reply => rfl
      | unanswered frame hdisturb => exact absurd hdisturb hmove
      | store call answer hserved =>
          have hperforms := hserved.resolve_right fun hfailed => hfailed.1
          cases call with
          | has o =>
              intro ho
              subst ho
              have hanswer := hperforms.1
              cases hrecorded : s.held.recorded m.outpoint with
              | true => exact .inl ⟨hrecorded ▸ hanswer, hs.recorded_step h hbegun hrecorded⟩
              | false => exact .inr (hrecorded ▸ hanswer)
          | payload o =>
              cases hcoherent.begins.warrants hmem with
              | fetch hfetch =>
                  rw [hfetch] at hproper
                  rcases hproper.2 with heq | ⟨heq, hcaches⟩ | heq
                  · cases heq
                  · obtain rfl := Frame.getData.inj heq
                    have hanswer := hperforms.1
                    rw [hcaches] at hanswer
                    exact hanswer
                  · cases heq
          | putPayload o b =>
              -- the message was admitted before, so its outpoint is still recorded
              obtain ⟨rfl, rfl, d, hd, rfl, -⟩ := hproper.cached_eq hcoherent hmem
              obtain ⟨e, he, hfound⟩ := hcoherent.found hd howned
              have hrecorded : s.held.recorded d.message.outpoint := by
                rw [← hserved.recorded_eq (o := d.message.outpoint) id (by simp)]
                exact hs.witnessed_step h hbegun hafter he hfound
              have hheld := hperforms.2
              rw [if_pos hrecorded] at hheld
              exact ⟨hrecorded ▸ hperforms.1, by simp [Caches, hheld]⟩
          | _ => trivial

omit hs hbegun in
theorem audience_step (hs : s.Gossips answers m) {after : Handler} (hafter : after ∈ t.handlers)
    {source : Option PeerId} {o : Outpoint}
    (hsaid : ⟨.announce source o, ()⟩ ∈ after.transcript) :
    after.audience = t.node.lifecycle.registry.entries := by
  rw [(h.undisturbed hmove).1]
  obtain ⟨k, hk⟩ := List.getElem?_of_mem hafter
  cases h.past hk with
  | new errand hnone hbegins => cases hsaid
  | silent handler _ hhandler herrand htranscript haudience =>
      rw [haudience]
      exact hs.audience handler (List.mem_of_getElem? hhandler) source o (htranscript ▸ hsaid)
  | said handler _ new hhandler herrand htranscript haudience heffect =>
      rcases haudience with hsame | hregistered
      · rw [htranscript] at hsaid
        rcases List.mem_append.mp hsaid with hold | hnew
        · rw [hsame]
          exact hs.audience handler (List.mem_of_getElem? hhandler) source o hold
        · obtain rfl := List.mem_singleton.mp hnew
          cases heffect with
          | announce _ _ haudience hdispatches => exact haudience
      · exact hregistered

/-- An undisturbed step keeps a node gossiping. -/
theorem step (howned : m.Owned answers script) : t.Gossips answers m where
  coherent := hs.coherent.step h
  accounted := hs.accounted.step (hs.coherent.step h) h
  posted := hs.posted.step h
  traced := hs.traced.step h
  resting := (h.undisturbed hmove).2.2 ▸ hs.resting
  errands after hafter := by
    rw [(h.undisturbed hmove).1]
    exact (hs.errands_step h hbegun hafter).mono (hs.caches_step h hbegun)
  witnessed after hafter e he hrecorded := hs.witnessed_step h hbegun hafter he hrecorded
  added hrecorded := hs.added_step h hbegun hrecorded
  once _ _ _ _ hfirst hsecond hadds hadds' := hs.once_step h hfirst hsecond hadds hadds'
  cached _ hentry := hs.cached_step h hbegun hentry
  confirmed after hafter said hsaid := hs.confirmed_step h hmove hbegun howned hafter hsaid
  audience after hafter source o hsaid := audience_step h hmove hs hafter hsaid
  fates d hd hfailed := by
    rcases h.dispatched hd with ⟨before, hbefore, -, -, hfate⟩ | ⟨-, hwaiting⟩
    · rcases hfate hfailed with hold | ⟨hdisturb, -⟩
      · exact hs.fates before hbefore hold
      · exact hmove hdisturb
    · cases hfailed.symm.trans hwaiting

end Gossips

end Station

end ChatRelay
