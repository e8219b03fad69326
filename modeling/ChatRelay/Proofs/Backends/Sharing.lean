import ChatRelay.Proofs.Backends.Durable
import ChatRelay.Proofs.Transcripts

/-!
# Operations that share a store on disk

Any number of operations share a store, and their calls on its trees may alternate in any way. A
message may stand without its outpoint for a while: a removal has taken the outpoint already, or the
outpoint went between the two looks of a put. Whoever brought that about is then still going to take
the message away or to find the outpoint recorded again. So when all operations are over, every
message has its outpoint.
-/

namespace ChatRelay

/-- An operation that has been begun, with what it has left to do. -/
structure Sharing.Task where
  call : StoreCall
  rest : Routine TreeCall.Answer call.Answer

/-- A call that an operation has made on a tree, with its answer. Operations are numbered in the
order in which they were begun. -/
structure Sharing.Access where
  operation : Nat
  said : Answered TreeCall.Answer

/-- A store on disk, the operations begun on it, and every call they have made. -/
structure Sharing where
  store : DurableStore
  tasks : List Sharing.Task
  log : List Sharing.Access

/-- What may happen next. -/
inductive Sharing.Move where
  | begin (call : StoreCall)
  /-- An operation makes its next call on a tree. -/
  | proceed (operation : Nat)
  deriving DecidableEq, Repr

/-- Whether an operation is over. -/
def Sharing.Task.IsOver (task : Sharing.Task) : Prop := ∃ result, task.rest = .done result

instance (task : Sharing.Task) : Decidable task.IsOver :=
  match h : task.rest with
  | .done result => .isTrue ⟨result, h⟩
  | .ask _ _ => .isFalse fun ⟨_, hdone⟩ => nomatch h.symm.trans hdone

namespace Sharing

/-- A store before any operation has been begun. -/
def start (store : DurableStore) : Sharing := ⟨store, [], []⟩

/-- The operation of a number makes a call. -/
def access (s : Sharing) (i : Nat) (call : StoreCall) (question : TreeCall)
    (next : question.Answer → Routine TreeCall.Answer call.Answer) : Sharing :=
  let served := DurableStore.serve question s.store
  ⟨served.2, s.tasks.set i ⟨call, next served.1⟩, s.log ++ [⟨i, question, served.1⟩]⟩

/-- A call on a tree is one step. An operation that is over, or that was never begun, does
nothing. -/
def move (s : Sharing) : Move → Sharing
  | .begin call => { s with tasks := s.tasks ++ [⟨call, DurableStore.operation call⟩] }
  | .proceed i =>
    match s.tasks[i]? with
    | some ⟨call, .ask question next⟩ => s.access i call question next
    | _ => s

def moves (s : Sharing) (sequence : List Move) : Sharing := sequence.foldl move s

variable {s : Sharing}

@[simp] theorem moves_nil : s.moves [] = s := rfl

@[simp] theorem moves_cons (m : Move) (rest : List Move) :
    s.moves (m :: rest) = (s.move m).moves rest := rfl

theorem moves_append (first second : List Move) :
    s.moves (first ++ second) = (s.moves first).moves second := List.foldl_append

/-- A move begins an operation, makes a call for one, or does nothing. -/
theorem move_cases (s : Sharing) (m : Move) :
    (∃ call, m = .begin call ∧
      s.move m = { s with tasks := s.tasks ++ [⟨call, DurableStore.operation call⟩] }) ∨
    (∃ i call question next, m = .proceed i ∧ s.tasks[i]? = some ⟨call, .ask question next⟩ ∧
      s.move m = s.access i call question next) ∨
    s.move m = s := by
  cases m with
  | begin call => exact .inl ⟨call, rfl, rfl⟩
  | proceed i =>
      unfold move
      split
      next heq => cases heq
      next j heq =>
        obtain rfl := Move.proceed.inj heq
        split
        next call question next htask => exact .inr (.inl ⟨i, call, question, next, rfl, htask, rfl⟩)
        next => exact .inr (.inr rfl)

/-- What holds at the start, when an operation begins and when one makes a call holds throughout. -/
theorem moves_induction (kept : Sharing → Prop) (hstart : kept s)
    (hbegin : ∀ s call, kept s →
      kept { s with tasks := s.tasks ++ [⟨call, DurableStore.operation call⟩] })
    (haccess : ∀ s i call question next, s.tasks[i]? = some ⟨call, .ask question next⟩ → kept s →
      kept (s.access i call question next))
    (sequence : List Move) : kept (s.moves sequence) := by
  induction sequence generalizing s with
  | nil => exact hstart
  | cons m rest ih =>
      refine ih ?_
      rcases s.move_cases m with ⟨call, -, hmove⟩ | ⟨i, call, question, next, -, htask, hmove⟩ | hmove
      · rw [hmove]
        exact hbegin s call hstart
      · rw [hmove]
        exact haccess s i call question next htask hstart
      · rw [hmove]
        exact hstart

/-- A task of the list is the one that made the call or an old one. -/
theorem getElem?_tasks_access {i j : Nat} {call : StoreCall} {question : TreeCall}
    {next : question.Answer → Routine TreeCall.Answer call.Answer}
    (htask : s.tasks[i]? = some ⟨call, .ask question next⟩) :
    (s.access i call question next).tasks[j]? =
      if i = j then some ⟨call, next (DurableStore.serve question s.store).1⟩ else s.tasks[j]? := by
  have hlt : i < s.tasks.length := (List.getElem?_eq_some_iff.mp htask).1
  change (s.tasks.set i _)[j]? = _
  rw [List.getElem?_set]
  by_cases heq : i = j
  · rw [if_pos heq, if_pos heq, if_pos hlt]
  · rw [if_neg heq, if_neg heq]

end Sharing

/-! ## Messages without outpoints -/

namespace DurableStore

/-- Every message has its outpoint. -/
def Covered (store : DurableStore) : Prop :=
  ∀ key ∈ store.messages.keys, key ∈ store.outpoints.keys

/-- Whether a key has a message but no outpoint. -/
def Stray (store : DurableStore) (key : Bytes) : Prop :=
  store.messages.contains key ∧ ¬ store.outpoints.contains key

instance (store : DurableStore) (key : Bytes) : Decidable (store.Stray key) :=
  inferInstanceAs (Decidable (_ ∧ _))

theorem covered_iff {store : DurableStore} : store.Covered ↔ ∀ key, ¬ store.Stray key := by
  simp only [Covered, Stray, Table.mem_keys, not_and, not_not]

variable {α β : Type} {key : Bytes}

/-- What is left of an operation does not leave a stray message as it is: a call takes the message
away or records its outpoint. Others may have done so before, so only a message that is still stray
counts. -/
def Settles (key : Bytes) : Routine TreeCall.Answer α → Prop
  | .done _ => False
  | .ask call next => ∀ store, store.Stray key → (serve call store).2.Stray key →
      Settles key (next (serve call store).1)

/-- An operation settles every message that one of its calls makes stray. -/
def Careful (key : Bytes) : Routine TreeCall.Answer α → Prop
  | .done _ => True
  | .ask call next =>
    (∀ store, ¬ store.Stray key → (serve call store).2.Stray key →
      Settles key (next (serve call store).1)) ∧
    ∀ answer, Careful key (next answer)

theorem Settles.bind {r : Routine TreeCall.Answer α} (h : Settles key r)
    (f : α → Routine TreeCall.Answer β) : Settles key (r >>= f) := by
  change Settles key (r.bind f)
  induction r with
  | done result => exact h.elim
  | ask call next ih => exact fun store hbefore hafter => ih _ (h store hbefore hafter)

theorem Careful.bind {r : Routine TreeCall.Answer α} {f : α → Routine TreeCall.Answer β}
    (h : Careful key r) (hf : ∀ x, Careful key (f x)) : Careful key (r >>= f) := by
  change Careful key (r.bind f)
  induction r with
  | done result => exact hf result
  | ask call next ih =>
      exact ⟨fun store hbefore hafter => (h.1 store hbefore hafter).bind f,
        fun answer => ih answer (h.2 answer)⟩

section Asking

variable {call : TreeCall} {next : call.Answer → Routine TreeCall.Answer α}

theorem Settles.ask (h : ∀ store : DurableStore, store.Stray key → (serve call store).2.Stray key →
    Settles key (next (serve call store).1)) : Settles key (askTree call >>= next) := h

theorem Careful.ask_settled
    (hcall : ∀ store : DurableStore, ¬ store.Stray key → (serve call store).2.Stray key →
      Settles key (next (serve call store).1))
    (hnext : ∀ answer, Careful key (next answer)) : Careful key (askTree call >>= next) :=
  ⟨hcall, hnext⟩

/-- A call that makes no message stray needs no care. -/
theorem Careful.ask
    (hcall : ∀ store : DurableStore, ¬ store.Stray key → ¬ (serve call store).2.Stray key)
    (hnext : ∀ answer, Careful key (next answer)) : Careful key (askTree call >>= next) :=
  .ask_settled (fun store hbefore hafter => (hcall store hbefore hafter).elim) hnext

end Asking

/-! ### What each call does to them -/

/-- Taking away an outpoint makes no message of another key stray. -/
theorem not_stray_remove_outpoint {store : DurableStore} {other : Bytes} (hne : key ≠ other)
    (h : ¬ store.Stray key) : ¬ (serve (.remove .outpoints other) store).2.Stray key := by
  simpa [Stray, serve, records, setRecords, Table.contains_erase, hne] using h

theorem not_stray_remove_message {store : DurableStore} {other : Bytes} (h : ¬ store.Stray key) :
    ¬ (serve (.remove .messages other) store).2.Stray key := by
  rintro ⟨hmessage, houtpoint⟩
  simp only [serve, records, setRecords, Table.contains_erase, Bool.and_eq_true] at hmessage
  exact h ⟨hmessage.2, houtpoint⟩

/-- A message that is removed is not stray. -/
theorem not_stray_removed (store : DurableStore) :
    ¬ (serve (.remove .messages key) store).2.Stray key := by
  simp [Stray, serve, records, setRecords, Table.contains_erase]

theorem contains_filterKeys {table : Table Bytes Bytes} {keep : Bytes → Bool} :
    (table.filterKeys keep).contains key = (keep key && table.contains key) := by
  by_cases h : keep key <;> simp [Table.contains, Table.get?_filterKeys, h]

theorem not_stray_removeBatch {store : DurableStore} {keys : List Bytes}
    (h : key ∈ keys ∨ ¬ store.Stray key) :
    ¬ (serve (.removeBatch .messages keys) store).2.Stray key := by
  rintro ⟨hmessage, houtpoint⟩
  simp only [serve, records, setRecords, contains_filterKeys, Bool.and_eq_true] at hmessage
  rcases h with hmem | hbefore
  · simp [hmem] at hmessage
  · exact hbefore ⟨hmessage.2, houtpoint⟩

/-! ### The operations -/

/-- The removals of a prune settle the messages of all its outpoints, with the removal at the
end. -/
theorem settles_pruneSteps {all : List Outpoint} (hkey : key ∈ all.map Outpoint.toBytes)
    (removed : List Pruned) (rest : List Outpoint) :
    Settles key (pruneSteps all removed rest) := by
  induction rest generalizing removed with
  | nil => exact .ask fun store _ hafter => (not_stray_removeBatch (.inl hkey) hafter).elim
  | cons first rest ih =>
      refine .ask fun store _ _ => ?_
      split
      next => exact ih removed
      next => exact .ask fun _ _ _ => ih _

theorem careful_pruneSteps {all : List Outpoint} (removed : List Pruned) {rest : List Outpoint}
    (hrest : rest ⊆ all) : Careful key (pruneSteps all removed rest) := by
  induction rest generalizing removed with
  | nil => exact .ask (fun store h => not_stray_removeBatch (.inr h)) fun _ => trivial
  | cons first rest ih =>
      obtain ⟨hfirst, hlater⟩ := List.cons_subset.mp hrest
      refine .ask_settled (fun store hbefore hafter => ?_) fun answer => ?_
      · have hkey : key = first.toBytes :=
          not_not.mp fun hne => not_stray_remove_outpoint hne hbefore hafter
        have hmem : key ∈ all.map Outpoint.toBytes := hkey ▸ List.mem_map_of_mem hfirst
        split
        next => exact settles_pruneSteps hmem removed rest
        next => exact .ask fun _ _ _ => settles_pruneSteps hmem _ rest
      · split
        next => exact ih removed hlater
        next => exact .ask (fun _ h => h) fun _ => ih _ hlater

/-- Between its two looks a put may make a message stray, and the second look settles it. -/
theorem careful_putPayload (outpoint : Outpoint) (payload : Bytes) :
    Careful key (operation (.putPayload outpoint payload)) := by
  refine .ask (fun _ h => h) fun present => ?_
  split
  next => trivial
  next =>
    refine .ask_settled (fun store hbefore hafter => ?_) fun _ =>
      .ask (fun _ h => h) fun present => ?_
    · have hkey : key = outpoint.toBytes := by
        refine not_not.mp fun hne => hbefore ?_
        simpa [Stray, serve, records, setRecords, Table.contains_insert, hne] using hafter
      subst hkey
      refine .ask fun store hstray _ => ?_
      have habsent : (serve (.contains .outpoints outpoint.toBytes) store).1 = false := by
        simpa [serve, records] using hstray.2
      rw [habsent]
      exact .ask fun store _ hafter => (not_stray_removed store hafter).elim
    · split
      next => exact .ask (fun _ h => not_stray_remove_message h) fun _ => trivial
      next => trivial

theorem careful_operation (key : Bytes) (call : StoreCall) : Careful key (operation call) := by
  cases call with
  | add outpoint =>
      refine .ask (fun store h => ?_) fun _ => trivial
      by_cases hpresent : store.outpoints.contains outpoint.toBytes
      · simpa [serve, records, hpresent] using h
      · rintro ⟨hmessage, houtpoint⟩
        simp only [serve, records, hpresent, setRecords] at hmessage houtpoint
        refine h ⟨hmessage, fun hrecorded => houtpoint ?_⟩
        simp [Table.contains_insert, hrecorded]
  | remove outpoint =>
      refine .ask_settled (fun store hbefore hafter => ?_) fun _ =>
        .ask (fun _ h => not_stray_remove_message h) fun _ => trivial
      have hkey : key = outpoint.toBytes :=
        not_not.mp fun hne => not_stray_remove_outpoint hne hbefore hafter
      subst hkey
      exact .ask fun store _ hafter => (not_stray_removed store hafter).elim
  | prune outpoints => exact (careful_pruneSteps [] (List.Subset.refl _)).bind fun _ => trivial
  | putPayload outpoint payload => exact careful_putPayload outpoint payload
  | watermark =>
      refine .ask (fun _ h => h) fun answer => ?_
      split <;> trivial
  | setWatermark height => exact .ask (fun _ h => h) fun _ => trivial
  | _ => exact .ask (fun _ h => h) fun _ => trivial

end DurableStore

/-! ## Every interleaving -/

namespace Sharing

open DurableStore

/-- Every operation is careful, and one that is under way settles the message if it is stray. -/
structure Tidy (key : Bytes) (s : Sharing) : Prop where
  careful : ∀ task ∈ s.tasks, Careful key task.rest
  settled : s.store.Stray key → ∃ (i : Nat) (task : Task),
    s.tasks[i]? = some task ∧ Settles key task.rest

variable {s : Sharing} {key : Bytes}

theorem Tidy.begin (h : s.Tidy key) (call : StoreCall) :
    Tidy key { s with tasks := s.tasks ++ [⟨call, operation call⟩] } where
  careful task htask := by
    rcases List.mem_append.mp htask with hold | hnew
    · exact h.careful task hold
    · rw [List.mem_singleton.mp hnew]
      exact careful_operation key call
  settled hstray := by
    obtain ⟨i, task, htask, hsettles⟩ := h.settled hstray
    exact ⟨i, task, List.getElem?_append_left (List.getElem?_eq_some_iff.mp htask).1 ▸ htask,
      hsettles⟩

theorem Tidy.access (h : s.Tidy key) {i : Nat} {call : StoreCall} {question : TreeCall}
    {next : question.Answer → Routine TreeCall.Answer call.Answer}
    (htask : s.tasks[i]? = some ⟨call, .ask question next⟩) :
    (s.access i call question next).Tidy key where
  careful task hmem := by
    rcases List.mem_or_eq_of_mem_set hmem with hold | rfl
    · exact h.careful task hold
    · exact (h.careful _ (List.mem_of_getElem? htask)).2 _
  settled hafter := by
    -- the caller is responsible if it made the message stray or was responsible before
    by_cases hbefore : s.store.Stray key
    · obtain ⟨j, task, hother, hsettles⟩ := h.settled hbefore
      by_cases heq : i = j
      · subst heq
        obtain rfl := Option.some.inj (htask.symm.trans hother)
        exact ⟨i, _, (getElem?_tasks_access htask).trans (if_pos rfl),
          hsettles s.store hbefore hafter⟩
      · exact ⟨j, task, (getElem?_tasks_access htask).trans ((if_neg heq).trans hother), hsettles⟩
    · exact ⟨i, _, (getElem?_tasks_access htask).trans (if_pos rfl),
        (h.careful _ (List.mem_of_getElem? htask)).1 s.store hbefore hafter⟩

theorem tidy_moves {store : DurableStore} (hstore : ¬ store.Stray key) (sequence : List Move) :
    ((start store).moves sequence).Tidy key :=
  moves_induction (Tidy key) ⟨by simp [start], fun hstray => (hstore hstray).elim⟩
    (fun _ call h => h.begin call) (fun _ _ _ _ _ htask h => h.access htask) sequence

/-- However the calls of any operations on a store alternate, whenever all operations begun are
over, every message has its outpoint. -/
theorem covered_of_over {store : DurableStore} (hstore : store.Covered) (sequence : List Move)
    (hover : ∀ task ∈ ((start store).moves sequence).tasks, task.IsOver) :
    ((start store).moves sequence).store.Covered := by
  refine covered_iff.mpr fun key hstray => ?_
  obtain ⟨i, task, htask, hsettles⟩ :=
    (tidy_moves (covered_iff.mp hstore key) sequence).settled hstray
  obtain ⟨result, hresult⟩ := hover task (List.mem_of_getElem? htask)
  rw [hresult] at hsettles
  exact hsettles

/-- The outpoint of the runs that stand as examples. -/
def runOutpoint : Outpoint := ⟨FixedBytes.replicate 32 7, 7⟩

/-- A put between whose looks the outpoint is removed. -/
def interruptedRun : List Move :=
  [.begin (.add runOutpoint), .proceed 0, .begin (.putPayload runOutpoint [1]), .proceed 1,
    .begin (.remove runOutpoint), .proceed 2, .proceed 2, .proceed 1]

/-- The message is stray until the put has looked again, and in the end there is none. -/
theorem covered_of_over_interrupted :
    ((start .empty).moves interruptedRun).store.Stray runOutpoint.toBytes ∧
      (∀ task ∈ ((start .empty).moves (interruptedRun ++ [.proceed 1, .proceed 1])).tasks,
        task.IsOver) ∧
      ((start .empty).moves (interruptedRun ++ [.proceed 1, .proceed 1])).store.Covered := by
  have hempty : DurableStore.Covered .empty := fun key hkey => hkey
  have hover : ∀ task ∈ ((start .empty).moves (interruptedRun ++ [.proceed 1, .proceed 1])).tasks,
      task.IsOver := by
    decide +kernel
  exact ⟨by decide +kernel, hover, covered_of_over hempty _ hover⟩

end Sharing

end ChatRelay
