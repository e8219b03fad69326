import ChatRelay.Proofs.Backends.Memory
import ChatRelay.Proofs.Watcher.Rechecking
import ChatRelay.Proofs.Watcher.Reorganization
import ChatRelay.Rpc.Client

/-!
# What replies say of outputs

An output is looked up by a remote call. A reply whose body is a response without an error gives a
result, which may be null, or none at all; the client takes both for the report that there is no
unspent output, and whatever the status. What a watcher with headers only removes are the outpoints
whose replies are taken so.
-/

namespace ChatRelay.Rpc

/-! ## Bodies -/

/-- The tree of a body. A byte-order mark before it is skipped. -/
def bodyTree? (body : String) : Option Json.Tree :=
  Json.readTree <|
    match body.toList with
    | '\ufeff' :: rest => String.ofList rest
    | _ => body

theorem read?_eq (body : String) :
    Response.read? body = (bodyTree? body).bind Response.ofTree? := rfl

theorem value?_eq_null {depth : Nat} {tree : Json.Tree} :
    tree.value? depth = some .null ↔ tree = .null := by
  cases tree with
  | null => simp [Json.Tree.value?]
  | array items => by_cases h : depth ≤ 1 <;> simp [Json.Tree.value?, h]
  | object fields => by_cases h : depth ≤ 1 <;> simp [Json.Tree.value?, h]
  | _ => simp [Json.Tree.value?]

section

variable {α : Type} {read : Json.Tree → Option α} {member : Option Json.Tree}

theorem optional?_eq_none :
    optional? read member = some none ↔ member = none ∨ member = some .null := by
  unfold optional?
  split <;> simp_all

theorem optional?_eq_some {x : α} : optional? read member = some (some x) ↔
    ∃ tree, member = some tree ∧ tree ≠ .null ∧ read tree = some x := by
  unfold optional?
  split <;> simp_all

end

/-- A result is taken for none exactly if it is null. -/
theorem outputOf_eq_none {value : Json} : outputOf value = .ok none ↔ value = .null := by
  constructor
  · intro h
    unfold outputOf at h
    split at h
    · rfl
    · split at h
      · cases h
      · split at h <;> cases h
  · rintro rfl
    rfl

theorem outputOf_eq_some {value : Json} {output : LedgerOutput} :
    outputOf value = .ok (some output) ↔ ∃ digits script, outputScript? value = some digits ∧
      Hex.decode digits = .ok script ∧ output = ⟨script, false⟩ := by
  constructor
  · intro h
    unfold outputOf at h
    split at h
    · cases h
    split at h
    · cases h
    next digits hdigits =>
      split at h
      next script hscript =>
        exact ⟨digits, script, hdigits, hscript, (Option.some.inj (Except.ok.inj h)).symm⟩
      · cases h
  · rintro ⟨digits, script, hdigits, hscript, rfl⟩
    have hnull : value ≠ .null := by
      rintro rfl
      cases hdigits
    unfold outputOf
    split
    · exact absurd rfl hnull
    · simp only [hdigits, hscript]

/-! ## Replies -/

namespace Reply

variable {reply : Reply}

/-- The body is a response with this result, if it has one, and reports no error. -/
def Gives (reply : Reply) (result : Option Json.Tree) : Prop :=
  ∃ tree error, bodyTree? reply.text = some tree ∧
    pair? "result" "error" tree = some (result, error) ∧ (error = none ∨ error = some .null)

/-- The result is there and it is null. -/
def ReportsNone (reply : Reply) : Prop := reply.Gives (some .null)

/-- There is no result. -/
def Silent (reply : Reply) : Prop := reply.Gives none

/-- The result describes an output. -/
def Describes (reply : Reply) (script : Bytes) : Prop :=
  ∃ tree value digits, reply.Gives (some tree) ∧ tree.value? depth = some value ∧
    outputScript? value = some digits ∧ Hex.decode digits = .ok script

def ReportsFault (reply : Reply) (fault : Fault) : Prop :=
  ∃ tree result error, bodyTree? reply.text = some tree ∧
    pair? "result" "error" tree = some (result, some error) ∧ Fault.ofTree? error = some fault

def Success (reply : Reply) : Prop := 200 ≤ reply.status ∧ reply.status < 300

instance (reply : Reply) : Decidable reply.Success := inferInstanceAs (Decidable (_ ∧ _))

end Reply

/-- What a lookup comes to. -/
def lookedUp (reply : Option Reply) : Except LedgerError (Option LedgerOutput) :=
  (outcome "gettxout" reply).bind outputOf

namespace Reply

variable {reply : Reply}

/-- The result in a body, if it has one. -/
def result? (reply : Reply) : Option Json.Tree :=
  ((bodyTree? reply.text).bind (pair? "result" "error")).bind (·.1)

theorem Gives.result?_eq {result : Option Json.Tree} (h : reply.Gives result) :
    reply.result? = result := by
  obtain ⟨tree, error, htree, hpair, -⟩ := h
  simp [result?, htree, hpair]

theorem Silent.not_reportsNone (h : reply.Silent) : ¬ reply.ReportsNone := by
  intro h'
  cases h.result?_eq.symm.trans h'.result?_eq

theorem Gives.not_reportsFault {result : Option Json.Tree} (h : reply.Gives result)
    (fault : Fault) : ¬ reply.ReportsFault fault := by
  obtain ⟨tree, error, htree, hpair, herror⟩ := h
  rintro ⟨tree', result', error', htree', hpair', hfault⟩
  obtain rfl := Option.some.inj (htree.symm.trans htree')
  have heq := congrArg Prod.snd (Option.some.inj (hpair.symm.trans hpair'))
  rcases herror with rfl | rfl
  · cases heq
  · obtain rfl := Option.some.inj heq
    cases hfault

theorem ofTree?_eq_some {tree : Json.Tree} {response : Response} :
    Response.ofTree? tree = some response ↔
      ∃ result error, pair? "result" "error" tree = some (result, error) ∧
        optional? (Json.Tree.value? depth) result = some response.result ∧
        optional? Fault.ofTree? error = some response.error := by
  obtain ⟨result, error⟩ := response
  simp [Response.ofTree?, Option.bind_eq_some_iff]

/-- A lookup succeeds with what the result of a response without an error is read as. -/
theorem lookedUp_eq_ok {output : Option LedgerOutput} :
    lookedUp (some reply) = .ok output ↔ ∃ result value, reply.Gives result ∧
      optional? (Json.Tree.value? depth) result = some value ∧
      outputOf (value.getD .null) = .ok output := by
  unfold lookedUp outcome
  dsimp only
  rw [read?_eq]
  constructor
  · intro h
    cases hresponse : (bodyTree? reply.text).bind Response.ofTree? with
    | none =>
        simp only [hresponse] at h
        cases h
    | some response =>
        obtain ⟨tree, htree, hread⟩ := Option.bind_eq_some_iff.mp hresponse
        obtain ⟨result, error, hpair, hresult, herror⟩ := ofTree?_eq_some.mp hread
        simp only [hresponse] at h
        cases hfault : response.error with
        | some fault =>
            rw [hfault] at h
            cases h
        | none =>
            rw [hfault] at h herror
            have hgives : reply.Gives result :=
              ⟨tree, error, htree, hpair, optional?_eq_none.mp herror⟩
            exact ⟨result, response.result, hgives, hresult, h⟩
  · rintro ⟨result, value, ⟨tree, error, htree, hpair, herror⟩, hvalue, houtput⟩
    have hread : Response.ofTree? tree = some ⟨value, none⟩ :=
      ofTree?_eq_some.mpr ⟨result, error, hpair, hvalue, optional?_eq_none.mpr herror⟩
    simp only [htree, Option.bind_some, hread]
    exact houtput

/-- A lookup finds no output where the result is null, and also where there is none. -/
theorem lookedUp_eq_none :
    lookedUp (some reply) = .ok none ↔ reply.ReportsNone ∨ reply.Silent := by
  rw [lookedUp_eq_ok]
  constructor
  · rintro ⟨result, value, hgives, hvalue, houtput⟩
    have hnull := outputOf_eq_none.mp houtput
    cases value with
    | none =>
        rcases optional?_eq_none.mp hvalue with rfl | rfl
        · exact .inr hgives
        · exact .inl hgives
    | some value =>
        obtain rfl : value = .null := hnull
        obtain ⟨tree, -, hne, hread⟩ := optional?_eq_some.mp hvalue
        exact absurd (value?_eq_null.mp hread) hne
  · rintro (hgives | hgives)
    · exact ⟨_, none, hgives, optional?_eq_none.mpr (.inr rfl), rfl⟩
    · exact ⟨_, none, hgives, optional?_eq_none.mpr (.inl rfl), rfl⟩

/-- A lookup finds an output where the result describes one. -/
theorem lookedUp_eq_some {output : LedgerOutput} :
    lookedUp (some reply) = .ok (some output) ↔
      ∃ script, reply.Describes script ∧ output = ⟨script, false⟩ := by
  rw [lookedUp_eq_ok]
  constructor
  · rintro ⟨result, value, hgives, hvalue, houtput⟩
    obtain ⟨digits, script, hdigits, hscript, rfl⟩ := outputOf_eq_some.mp houtput
    cases value with
    | none => cases hdigits
    | some value =>
        obtain ⟨tree, rfl, -, hread⟩ := optional?_eq_some.mp hvalue
        exact ⟨script, ⟨tree, value, digits, hgives, hread, hdigits, hscript⟩, rfl⟩
  · rintro ⟨script, ⟨tree, value, digits, hgives, hread, hdigits, hscript⟩, rfl⟩
    have hne : tree ≠ .null := by
      rintro rfl
      obtain rfl := Option.some.inj hread
      cases hdigits
    exact ⟨_, some value, hgives, optional?_eq_some.mpr ⟨tree, rfl, hne, hread⟩,
      outputOf_eq_some.mpr ⟨digits, script, hdigits, hscript, rfl⟩⟩

/-- What is expected of the answer that a lookup takes from a reply: only a null result is a report
that there is no output, and a status of failure makes the lookup fail if the body tells no
error. -/
structure Trusted (reply : Reply) (answer : Except LedgerError (Option LedgerOutput)) : Prop where
  reported : answer = .ok none → reply.ReportsNone
  failed : ¬ reply.Success → (∀ fault, ¬ reply.ReportsFault fault) → ∃ cause, answer = .error cause

/-- A reply that a lookup succeeds with. -/
def Usable (reply : Reply) : Prop :=
  reply.ReportsNone ∨ reply.Silent ∨ ∃ script, reply.Describes script

theorem usable_iff : reply.Usable ↔ ∃ output, lookedUp (some reply) = .ok output := by
  constructor
  · rintro (h | h | ⟨script, h⟩)
    · exact ⟨none, lookedUp_eq_none.mpr (.inl h)⟩
    · exact ⟨none, lookedUp_eq_none.mpr (.inr h)⟩
    · exact ⟨_, lookedUp_eq_some.mpr ⟨script, h, rfl⟩⟩
  · rintro ⟨output, h⟩
    cases output with
    | none => exact or_assoc.mp (.inl (lookedUp_eq_none.mp h))
    | some output =>
        obtain ⟨script, hdescribes, -⟩ := lookedUp_eq_some.mp h
        exact .inr (.inr ⟨script, hdescribes⟩)

theorem Usable.not_reportsFault (h : reply.Usable) (fault : Fault) :
    ¬ reply.ReportsFault fault := by
  rcases h with hgives | hgives | ⟨script, tree, value, digits, hgives, -⟩ <;>
    exact hgives.not_reportsFault fault

/-- The status enters nowhere, and a result that is not there is taken for null: what is expected of
a lookup holds unless that matters. -/
theorem trusted_iff : reply.Trusted (lookedUp (some reply)) ↔
    ¬ reply.Silent ∧ (reply.Success ∨ ¬ reply.Usable) := by
  constructor
  · intro h
    refine ⟨fun hsilent => ?_, ?_⟩
    · exact hsilent.not_reportsNone (h.reported (lookedUp_eq_none.mpr (.inr hsilent)))
    · by_cases hsuccess : reply.Success
      · exact .inl hsuccess
      · refine .inr fun husable => ?_
        obtain ⟨output, houtput⟩ := usable_iff.mp husable
        obtain ⟨cause, hcause⟩ := h.failed hsuccess husable.not_reportsFault
        cases houtput.symm.trans hcause
  · rintro ⟨hspeaks, huse⟩
    refine ⟨fun h => (lookedUp_eq_none.mp h).resolve_right hspeaks, fun hfailure _ => ?_⟩
    have hunusable := huse.resolve_left hfailure
    cases hlooked : lookedUp (some reply) with
    | error cause => exact ⟨cause, rfl⟩
    | ok output => exact absurd (usable_iff.mpr ⟨output, hlooked⟩) hunusable

end Reply

/-! ## Polls with headers only -/

/-- The call that looks an outpoint up. -/
def outputCall (o : Outpoint) : Call :=
  ⟨"gettxout", [.string o.displayTxid, .ofNat o.index.toNat, .bool false]⟩

/-- A ledger whose node gives these replies. A poll with headers only makes no call twice. -/
def ledgerFrom (replies : Call → Option Reply) (call : LedgerCall) : call.Answer :=
  ((perform call).run (fun question (_ : Unit) => (replies question, ())) ()).1

theorem ledgerFrom_output (replies : Call → Option Reply) (o : Outpoint) :
    ledgerFrom replies (.output o) = lookedUp (replies (outputCall o)) := by
  simp only [ledgerFrom, perform, output, call, Routine.run_seq, Routine.run_ask, Routine.run_done,
    Routine.run_pure, lookedUp]
  rw [← outputCall]
  cases outcome "gettxout" (replies (outputCall o)) <;> rfl

variable {replies : Call → Option Reply} {o : Outpoint}

/-- An outpoint is taken to be gone exactly if the reply reports that, or does not give a result. -/
theorem gone_ledgerFrom : Watcher.gone (ledgerFrom replies) o ↔
    ∃ reply, replies (outputCall o) = some reply ∧ (reply.ReportsNone ∨ reply.Silent) := by
  rw [Watcher.gone, ledgerFrom_output]
  cases replies (outputCall o) with
  | none => simp [lookedUp, outcome, Except.bind]
  | some reply =>
      cases hlooked : lookedUp (some reply) with
      | error cause => simp [← Reply.lookedUp_eq_none, hlooked]
      | ok output =>
          cases output with
          | none => simp [← Reply.lookedUp_eq_none, hlooked]
          | some output =>
              obtain ⟨script, -, rfl⟩ := Reply.lookedUp_eq_some.mp hlooked
              simp [← Reply.lookedUp_eq_none, hlooked]

/-- A lookup answers as is expected of it exactly if the reply gives a result, and has a status of
success or is not usable. A poll with headers only removes no outpoint without a report that there
is no unspent output, except where it comes to remove outpoints and some recorded one has a reply
without a result, or with a null result and a status of failure. -/
theorem reported_iff (replies : Call → Option Reply) (B : OutpointStore) (w : Watcher)
    (hheaders : ¬ w.settings.fullBlocks) (s : B.State) :
    let ledger := ledgerFrom replies
    let held := B.holdings s
    let after := B.holdings (w.poll.run (B.serveWith ledger) s).2
    (∀ o reply, replies (outputCall o) = some reply →
      (reply.Trusted (ledger (.output o)) ↔
        ¬ reply.Silent ∧ (reply.Success ∨ ¬ reply.Usable))) ∧
      ((∀ o, held.recorded o → ¬ after.recorded o →
          ∃ reply, replies (outputCall o) = some reply ∧ reply.ReportsNone ∧ reply.Success) ↔
        ¬ (Watcher.Rechecks ledger w held ∧
          ∃ o reply, held.recorded o ∧ replies (outputCall o) = some reply ∧
            (reply.Silent ∨ reply.ReportsNone ∧ ¬ reply.Success))) := by
  intro ledger held after
  refine ⟨fun o reply hreply => ?_, ?_⟩
  · change reply.Trusted (ledgerFrom replies (.output o)) ↔ _
    rw [ledgerFrom_output, hreply]
    exact Reply.trusted_iff
  have hremoved (o : Outpoint) (hrecorded : held.recorded o) :
      ¬ after.recorded o ↔ Watcher.Rechecks ledger w held ∧
        ∃ reply, replies (outputCall o) = some reply ∧ (reply.ReportsNone ∨ reply.Silent) := by
    rw [Watcher.removed_iff hheaders hrecorded, gone_ledgerFrom]
  constructor
  · rintro h ⟨hrechecks, o, reply, hrecorded, hreply, hunreported⟩
    have hgone : reply.ReportsNone ∨ reply.Silent := hunreported.elim .inr fun h => .inl h.1
    obtain ⟨reply', hreply', hreports, hsuccess⟩ :=
      h o hrecorded ((hremoved o hrecorded).mpr ⟨hrechecks, reply, hreply, hgone⟩)
    obtain rfl := Option.some.inj (hreply.symm.trans hreply')
    rcases hunreported with hsilent | ⟨-, hfailure⟩
    · exact hsilent.not_reportsNone hreports
    · exact hfailure hsuccess
  · intro h o hrecorded hgone
    obtain ⟨hrechecks, reply, hreply, htaken⟩ := (hremoved o hrecorded).mp hgone
    rw [not_and, not_exists] at h
    have hreported := h hrechecks o
    rw [not_exists] at hreported
    have hnot := fun hunreported => hreported reply ⟨hrecorded, hreply, hunreported⟩
    have hspeaks := htaken.resolve_right fun hsilent => hnot (.inl hsilent)
    refine ⟨reply, hreply, hspeaks, Decidable.of_not_not fun hfailure => ?_⟩
    exact hnot (.inr ⟨hspeaks, hfailure⟩)

/-! ## A node behind a proxy -/

/-- A node at height 5 that answers every lookup by the same reply. -/
def nodeAnswering (reply : Reply) (call : Call) : Option Reply :=
  if call.method = "getblockcount" then some ⟨200, "\x7b\"result\":5\x7d"⟩ else some reply

/-- The report that there is no unspent output. -/
def spentReport : Reply := ⟨200, "\x7b\"result\":null,\"error\":null,\"id\":1\x7d"⟩

/-- What a proxy says when it does not reach the node. -/
def proxyReport : Reply := ⟨503, "\x7b\"message\":\"upstream unavailable\"\x7d"⟩

/-- A watcher with headers only that has come to height 4. -/
def headersWatcher : Watcher := ⟨⟨6, false⟩, some 4, []⟩

/-- A store in which one outpoint is recorded. -/
def oneRecorded : MemoryStore.backend.State :=
  (MemoryStore.backend.perform (.add (numbered 1)) ⟨MemoryStore.empty, MemoryStore.sound_empty⟩).2

/-- What is recorded after a poll with a node that answers every lookup by a reply. -/
def heldAfter (reply : Reply) : Holdings :=
  MemoryStore.backend.holdings (headersWatcher.poll.run
    (MemoryStore.backend.serveWith (ledgerFrom (nodeAnswering reply))) oneRecorded).2

theorem eq_ok_of_toOption {ε α : Type} {answer : Except ε α} {x : α}
    (h : answer.toOption = some x) : answer = .ok x := by
  cases answer with
  | error cause => cases h
  | ok y => exact congrArg Except.ok (Option.some.inj h)

theorem reportsNone_spentReport : spentReport.ReportsNone := by
  have hspeaks : spentReport.result?.isSome := by decide +kernel
  have hnone : lookedUp (some spentReport) = .ok none := eq_ok_of_toOption (by decide +kernel)
  refine (Reply.lookedUp_eq_none.mp hnone).resolve_right fun hsilent => ?_
  rw [Reply.Gives.result?_eq hsilent] at hspeaks
  cases hspeaks

theorem silent_proxyReport : proxyReport.Silent := by
  have hsilent : proxyReport.result?.isNone := by decide +kernel
  have hnone : lookedUp (some proxyReport) = .ok none := eq_ok_of_toOption (by decide +kernel)
  refine (Reply.lookedUp_eq_none.mp hnone).resolve_left fun hreports => ?_
  rw [Reply.Gives.result?_eq hreports] at hsilent
  cases hsilent

theorem reported_iff_spent :
    ¬ headersWatcher.settings.fullBlocks ∧ ¬ (heldAfter spentReport).recorded (numbered 1) ∧
      spentReport.Trusted (ledgerFrom (nodeAnswering spentReport) (.output (numbered 1))) ∧
      ∀ o, (MemoryStore.backend.holdings oneRecorded).recorded o →
        ¬ (heldAfter spentReport).recorded o → ∃ reply,
          nodeAnswering spentReport (outputCall o) = some reply ∧ reply.ReportsNone ∧
            reply.Success := by
  have hheaders : ¬ headersWatcher.settings.fullBlocks := by decide
  have hspeaks : ¬ spentReport.Silent := fun h => h.not_reportsNone reportsNone_spentReport
  have hsuccess : spentReport.Success := by decide
  obtain ⟨htrusted, hreported⟩ := reported_iff (nodeAnswering spentReport) MemoryStore.backend
    headersWatcher hheaders oneRecorded
  refine ⟨hheaders, by decide +kernel,
    (htrusted (numbered 1) spentReport rfl).mpr ⟨hspeaks, .inl hsuccess⟩, hreported.mpr ?_⟩
  rintro ⟨-, o, reply, -, hreply, hunreported⟩
  obtain rfl : spentReport = reply := Option.some.inj hreply
  exact hunreported.elim hspeaks fun h => h.2 hsuccess

/-- The proxy's body has no result and its status is one of failure, but it is taken for the report
that the output is spent, and the outpoint is removed. -/
theorem proxyReport_removes :
    nodeAnswering proxyReport (outputCall (numbered 1)) = some proxyReport ∧
      ledgerFrom (nodeAnswering proxyReport) (.output (numbered 1)) = .ok none ∧
      ¬ proxyReport.ReportsNone ∧ ¬ proxyReport.Success ∧
      (∀ fault, ¬ proxyReport.ReportsFault fault) ∧
      (MemoryStore.backend.holdings oneRecorded).recorded (numbered 1) ∧
      ¬ (heldAfter proxyReport).recorded (numbered 1) :=
  ⟨rfl, eq_ok_of_toOption (by decide +kernel), silent_proxyReport.not_reportsNone, by decide,
    silent_proxyReport.not_reportsFault, by decide +kernel, by decide +kernel⟩

end ChatRelay.Rpc
