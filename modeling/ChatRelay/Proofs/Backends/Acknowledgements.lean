import ChatRelay.Proofs.Backends.Sharing

/-!
# Acknowledged messages on disk

A put that finds its outpoint at both looks answers that the message is kept. The calls of one
operation are not held together, so an operation that began before the answer may still write under
the outpoint: a removal that has taken the outpoint before it was recorded again takes the new
message, and a put that was slower replaces it. What begins after the answer does no harm as long as
the outpoint stays recorded, for a removal takes the outpoint before the message.
-/

namespace ChatRelay

namespace DurableStore

variable {α β : Type} {key : Bytes}

/-- What an answered call has left as the message under a key, if it wrote there. -/
def written (key : Bytes) : Answered TreeCall.Answer → Option (Option Bytes)
  | ⟨.insert .messages other value, _⟩ => if other = key then some (some value) else none
  | ⟨.insertIfAbsent .messages other value, inserted⟩ =>
    if inserted = true ∧ other = key then some (some value) else none
  | ⟨.remove .messages other, _⟩ => if other = key then some none else none
  | ⟨.removeBatch .messages keys, _⟩ => if key ∈ keys then some none else none
  | _ => none

theorem get?_messages_serve (call : TreeCall) (store : DurableStore) :
    (serve call store).2.messages.get? key =
      (written key ⟨call, (serve call store).1⟩).getD (store.messages.get? key) := by
  cases call with
  | insert tree other value =>
      cases tree <;> try rfl
      by_cases h : other = key
      · simp [serve, records, setRecords, written, Table.get?_insert, h]
      · simp [serve, records, setRecords, written, Table.get?_insert, h, Ne.symm h]
  | insertIfAbsent tree other value =>
      by_cases hpresent : (store.records tree).contains other
      · cases tree <;> simp [serve, written, hpresent]
      · cases tree <;> simp only [serve, written, hpresent, setRecords] <;> try rfl
        by_cases h : other = key
        · simp [records, Table.get?_insert, h]
        · simp [records, Table.get?_insert, h, Ne.symm h]
  | remove tree other =>
      cases tree <;> try rfl
      by_cases h : other = key
      · simp [serve, records, setRecords, written, Table.get?_erase, h]
      · simp [serve, records, setRecords, written, Table.get?_erase, h, Ne.symm h]
  | removeBatch tree keys =>
      cases tree <;> try rfl
      by_cases h : key ∈ keys <;>
        simp [serve, records, setRecords, written, Table.get?_filterKeys, h]
  | _ => rfl

/-- Before an operation writes under a key it takes the outpoint of the key away. -/
def Guarded (key : Bytes) : Routine TreeCall.Answer α → Prop
  | .done _ => True
  | .ask call next =>
    (∀ store, ¬ (serve call store).2.outpoints.contains key) ∨
      ∀ answer, written key ⟨call, answer⟩ = none ∧ Guarded key (next answer)

section Asking

variable {call : TreeCall} {next : call.Answer → Routine TreeCall.Answer α}

/-- A call that writes nothing under the key is followed by what is guarded. -/
theorem Guarded.ask (hcall : ∀ answer, written key ⟨call, answer⟩ = none)
    (hnext : ∀ answer, Guarded key (next answer)) : Guarded key (askTree call >>= next) :=
  .inr fun answer => ⟨hcall answer, hnext answer⟩

/-- The removal of an outpoint guards what follows, or it is the removal of another. -/
theorem Guarded.ask_remove {other : Bytes}
    {next : Option Bytes → Routine TreeCall.Answer α}
    (hnext : other ≠ key → ∀ answer, Guarded key (next answer)) :
    Guarded key (askTree (.remove .outpoints other) >>= next) := by
  by_cases h : other = key
  · exact .inl fun store => by simp [serve, records, setRecords, Table.contains_erase, h]
  · exact .inr fun answer => ⟨rfl, hnext h answer⟩

end Asking

theorem Guarded.bind {r : Routine TreeCall.Answer α} {f : α → Routine TreeCall.Answer β}
    (h : Guarded key r) (hf : ∀ x, Guarded key (f x)) : Guarded key (r >>= f) := by
  change Guarded key (r.bind f)
  induction r with
  | done result => exact hf result
  | ask call next ih =>
      exact h.imp_right fun hrest answer => ⟨(hrest answer).1, ih answer (hrest answer).2⟩

theorem guarded_pruneSteps {all : List Outpoint} (removed : List Pruned) {rest : List Outpoint}
    (hrest : key ∈ all.map Outpoint.toBytes → key ∈ rest.map Outpoint.toBytes) :
    Guarded key (pruneSteps all removed rest) := by
  induction rest generalizing removed with
  | nil => exact .ask (fun _ => if_neg fun hkey => nomatch hrest hkey) fun _ => trivial
  | cons first rest ih =>
      refine .ask_remove fun hne answer => ?_
      have hlater : key ∈ all.map Outpoint.toBytes → key ∈ rest.map Outpoint.toBytes := fun hkey =>
        List.mem_of_ne_of_mem (Ne.symm hne) (hrest hkey)
      split
      next => exact ih removed hlater
      next => exact .ask (fun _ => rfl) fun _ => ih _ hlater

/-- Only a put of the outpoint itself writes its message without taking it away first. -/
theorem guarded_operation {outpoint : Outpoint} {call : StoreCall}
    (hcall : ∀ payload, call ≠ .putPayload outpoint payload) :
    Guarded outpoint.toBytes (operation call) := by
  cases call with
  | remove other => exact .ask_remove fun hne _ => .ask (fun _ => if_neg hne) fun _ => trivial
  | prune outpoints => exact (guarded_pruneSteps [] id).bind fun _ => trivial
  | putPayload other payload =>
      have hne : other.toBytes ≠ outpoint.toBytes := fun heq =>
        hcall payload (Outpoint.toBytes_injective heq ▸ rfl)
      refine .ask (fun _ => rfl) fun present => ?_
      split
      next => trivial
      next =>
        refine .ask (fun _ => if_neg hne) fun _ => .ask (fun _ => rfl) fun present => ?_
        split
        next => exact .ask (fun _ => if_neg hne) fun _ => trivial
        next => trivial
  | watermark =>
      refine .ask (fun _ => rfl) fun answer => ?_
      split <;> trivial
  | _ => exact .ask (fun _ => rfl) fun _ => trivial

/-- A put that answers that the message is kept has seen its outpoint, written and seen it again. -/
theorem transcript_of_acknowledged {outpoint : Outpoint} {payload : Bytes}
    {transcript : List (Answered TreeCall.Answer)}
    (h : (operation (.putPayload outpoint payload)).Comes transcript (.done (.ok true))) :
    transcript = [⟨.contains .outpoints outpoint.toBytes, true⟩,
      ⟨.insert .messages outpoint.toBytes payload, ()⟩,
      ⟨.contains .outpoints outpoint.toBytes, true⟩] := by
  have hrun := Routine.comes_done.mp h
  simp only [operation, askTree, Routine.runs_ask_bind, Routine.Recites] at hrun
  obtain ⟨present, afterFirst, rfl, hrun⟩ := hrun
  cases present with
  | false => cases hrun
  | true =>
      simp only [Bool.not_true, Bool.false_eq_true, if_false, Routine.runs_ask_bind,
        Routine.Recites] at hrun
      obtain ⟨⟨⟩, afterWrite, rfl, present, afterSecond, rfl, hrun⟩ := hrun
      cases present with
      | false =>
          rw [Bool.not_false, if_pos rfl, Routine.runs_ask_bind] at hrun
          obtain ⟨_, _, _, hrun⟩ := hrun
          cases (Routine.runs_pure.mp hrun).1
      | true =>
          obtain ⟨-, rfl⟩ := Routine.runs_pure.mp hrun
          rfl

end DurableStore

/-- Whether an operation is a put of a message for an outpoint that has answered that it is kept. -/
def Sharing.Task.acknowledges (task : Sharing.Task) (outpoint : Outpoint) (payload : Bytes) : Bool :=
  match task with
  | ⟨.putPayload other message, .done (.ok true)⟩ => other = outpoint ∧ message = payload
  | _ => false

theorem Sharing.Task.acknowledges_iff {task : Sharing.Task} {outpoint : Outpoint}
    {payload : Bytes} :
    task.acknowledges outpoint payload ↔ task = ⟨.putPayload outpoint payload, .done (.ok true)⟩ := by
  constructor
  · intro h
    unfold acknowledges at h
    split at h
    next => obtain ⟨rfl, rfl⟩ := of_decide_eq_true h; rfl
    next => cases h
  · rintro rfl
    simp [acknowledges]

namespace Sharing

open DurableStore

variable {s : Sharing} {key : Bytes} {i : Nat} {outpoint : Outpoint} {payload : Bytes}

/-! ## What the log tells -/

/-- What a log leaves as the message under a key that had `first` before. -/
def lastLeft (key : Bytes) (log : List Access) (first : Option Bytes) : Option Bytes :=
  log.foldl (fun message access => (written key access.said).getD message) first

/-- What was written last is what is left. -/
theorem lastLeft_of_last {earlier later : List Access} {access : Access} {left first : Option Bytes}
    (hwritten : written key access.said = some left)
    (hlater : ∀ a ∈ later, written key a.said = none) :
    lastLeft key (earlier ++ access :: later) first = left := by
  unfold lastLeft
  rw [List.foldl_append, List.foldl_cons, hwritten, Option.getD_some]
  clear hwritten
  induction later with
  | nil => rfl
  | cons a later ih =>
      rw [List.foldl_cons, hlater a List.mem_cons_self, Option.getD_none]
      exact ih fun b hb => hlater b (List.mem_cons_of_mem _ hb)

/-- A log in which a key is written has a last access that writes there. -/
theorem exists_last {log : List Access} (h : ∃ access ∈ log, written key access.said ≠ none) :
    ∃ earlier access later left, log = earlier ++ access :: later ∧
      written key access.said = some left ∧ ∀ a ∈ later, written key a.said = none := by
  induction log with
  | nil => simp at h
  | cons first rest ih =>
      by_cases hrest : ∃ access ∈ rest, written key access.said ≠ none
      · obtain ⟨earlier, access, later, left, rfl, hlast⟩ := ih hrest
        exact ⟨first :: earlier, access, later, left, rfl, hlast⟩
      · obtain ⟨access, hmem, hne⟩ := h
        obtain ⟨left, hleft⟩ := Option.ne_none_iff_exists'.mp hne
        rcases List.mem_cons.mp hmem with rfl | hlater
        · exact ⟨[], access, rest, left, rfl, hleft, fun a ha =>
            not_not.mp fun hwrites => hrest ⟨a, ha, hwrites⟩⟩
        · exact (hrest ⟨access, hlater, hne⟩).elim

/-- What an operation has asked so far, in order. -/
def transcript (s : Sharing) (i : Nat) : List (Answered TreeCall.Answer) :=
  (s.log.filter fun access => access.operation = i).map Access.said

/-- The log accounts for the messages and for what the operations have left to do. -/
structure Logged (first : DurableStore) (s : Sharing) : Prop where
  messages : ∀ key, s.store.messages.get? key = lastLeft key s.log (first.messages.get? key)
  begun : ∀ access ∈ s.log, access.operation < s.tasks.length
  comes : ∀ (i : Nat) (task : Task), s.tasks[i]? = some task →
    (operation task.call).Comes (s.transcript i) task.rest

theorem Logged.begin {first : DurableStore} (h : s.Logged first) (call : StoreCall) :
    Logged first { s with tasks := s.tasks ++ [⟨call, operation call⟩] } where
  messages := h.messages
  begun access haccess := by
    rw [List.length_append]
    exact Nat.lt_add_right _ (h.begun access haccess)
  comes i task htask := by
    rw [List.getElem?_append] at htask
    split at htask
    next => exact h.comes i task htask
    next hlt =>
      obtain rfl := List.mem_singleton.mp (List.mem_of_getElem? htask)
      have hnone : s.transcript i = [] := by
        simp only [transcript, List.map_eq_nil_iff, List.filter_eq_nil_iff, decide_eq_true_eq]
        rintro access haccess rfl
        exact hlt (h.begun access haccess)
      change (operation call).Comes (s.transcript i) _
      rw [hnone]
      exact .refl _

theorem Logged.access {first : DurableStore} (h : s.Logged first) {call : StoreCall}
    {question : TreeCall} {next : question.Answer → Routine TreeCall.Answer call.Answer}
    (htask : s.tasks[i]? = some ⟨call, .ask question next⟩) :
    (s.access i call question next).Logged first where
  messages key := by
    change (serve question s.store).2.messages.get? key =
      (s.log ++ [_]).foldl _ (first.messages.get? key)
    rw [get?_messages_serve, h.messages key, List.foldl_append]
    rfl
  begun access haccess := by
    change access.operation < (s.tasks.set i _).length
    rw [List.length_set]
    rcases List.mem_append.mp haccess with hold | hnew
    · exact h.begun access hold
    · rw [List.mem_singleton.mp hnew]
      exact (List.getElem?_eq_some_iff.mp htask).1
  comes j task hother := by
    rw [getElem?_tasks_access htask] at hother
    have htranscript : (s.access i call question next).transcript j = s.transcript j ++
        if i = j then [⟨question, (serve question s.store).1⟩] else [] := by
      simp only [transcript, Sharing.access, List.filter_append, List.map_append]
      split <;> simp [*]
    rw [htranscript]
    split at hother
    next heq =>
      subst heq
      obtain rfl := Option.some.inj hother
      rw [if_pos rfl]
      exact (h.comes i _ htask).ask _
    next hne =>
      rw [if_neg hne, List.append_nil]
      exact h.comes j task hother

theorem logged_moves (store : DurableStore) (sequence : List Move) :
    ((start store).moves sequence).Logged store :=
  moves_induction (Logged store)
    ⟨fun _ => rfl, fun _ h => absurd h List.not_mem_nil, fun _ _ h => by simp [start] at h⟩
    (fun _ call h => h.begin call) (fun _ _ _ _ _ htask h => h.access htask) sequence

theorem mem_log_of_mem_transcript {said : Answered TreeCall.Answer} (h : said ∈ s.transcript i) :
    ⟨i, said⟩ ∈ s.log := by
  obtain ⟨access, haccess, rfl⟩ := List.mem_map.mp h
  obtain ⟨hmem, hnumber⟩ := List.mem_filter.mp haccess
  exact of_decide_eq_true hnumber ▸ hmem

/-- An acknowledged put has written its message, and nothing else. -/
theorem Logged.put_of_acknowledges {first : DurableStore} (h : s.Logged first)
    (hanswered : ∃ task ∈ s.tasks[i]?, task.acknowledges outpoint payload) :
    ⟨i, .insert .messages outpoint.toBytes payload, ()⟩ ∈ s.log ∧
      ∀ access ∈ s.log, access.operation = i → ∀ left,
        written outpoint.toBytes access.said = some left → left = some payload := by
  obtain ⟨task, htask, hack⟩ := hanswered
  obtain rfl := Task.acknowledges_iff.mp hack
  have htranscript : s.transcript i = _ := transcript_of_acknowledged (h.comes i _ htask)
  refine ⟨mem_log_of_mem_transcript (by simp [htranscript]), ?_⟩
  rintro access hmem rfl left hwritten
  have hsaid : access.said ∈ s.transcript access.operation :=
    List.mem_map_of_mem (List.mem_filter.mpr ⟨hmem, decide_eq_true rfl⟩)
  rw [htranscript] at hsaid
  simp only [List.mem_cons, List.not_mem_nil, or_false] at hsaid
  rcases hsaid with heq | heq | heq <;> rw [heq] at hwritten
  · cases hwritten
  · exact (Option.some.inj ((if_pos rfl).symm.trans hwritten)).symm
  · cases hwritten

/-! ## After the acknowledgement -/

/-- Whether an outpoint is recorded and stays so along moves. -/
def StaysRecorded (key : Bytes) (s : Sharing) : List Move → Prop
  | [] => s.store.outpoints.contains key
  | m :: rest => s.store.outpoints.contains key ∧ StaysRecorded key (s.move m) rest

instance decidableStaysRecorded (key : Bytes) :
    (s : Sharing) → (sequence : List Move) → Decidable (s.StaysRecorded key sequence)
  | s, [] => inferInstanceAs (Decidable (s.store.outpoints.contains key = true))
  | s, m :: rest =>
    @instDecidableAnd _ _ inferInstance (decidableStaysRecorded key (s.move m) rest)

/-- An operation has put a message for an outpoint and has answered that it is kept; along the moves
that follow the outpoint stays recorded and no other put for it begins. -/
structure Acknowledged (s : Sharing) (i : Nat) (outpoint : Outpoint) (payload : Bytes)
    (following : List Move) : Prop where
  answered : ∃ task ∈ s.tasks[i]?, task.acknowledges outpoint payload
  recorded : s.StaysRecorded outpoint.toBytes following
  calm : ∀ other, .begin (.putPayload outpoint other) ∉ following

/-- What a put has answered does not change any more. -/
theorem acknowledges_moves (h : ∃ task ∈ s.tasks[i]?, task.acknowledges outpoint payload)
    (sequence : List Move) :
    ∃ task ∈ (s.moves sequence).tasks[i]?, task.acknowledges outpoint payload := by
  obtain ⟨task, htask, hack⟩ := h
  refine ⟨task, ?_, hack⟩
  refine moves_induction (fun s => task ∈ s.tasks[i]?) htask
    (fun s call hold => ?_) (fun s j call question next hother hold => ?_) sequence
  · exact (List.getElem?_append_left (List.getElem?_eq_some_iff.mp hold).1).trans hold
  · refine (getElem?_tasks_access hother).trans ((if_neg ?_).trans hold)
    rintro rfl
    obtain rfl := Option.some.inj (hold.symm.trans hother)
    cases Task.acknowledges_iff.mp hack

/-- The operations from a number on are guarded and have written nothing under a key. -/
structure Harmless (key : Bytes) (number : Nat) (s : Sharing) : Prop where
  guarded : ∀ (i : Nat) (task : Task), number ≤ i → s.tasks[i]? = some task →
    Guarded key task.rest
  unwritten : ∀ access ∈ s.log, number ≤ access.operation → written key access.said = none

theorem Harmless.move {number : Nat} (h : s.Harmless outpoint.toBytes number) {m : Move}
    (hcalm : ∀ other, m ≠ .begin (.putPayload outpoint other))
    (hrecorded : (s.move m).store.outpoints.contains outpoint.toBytes) :
    (s.move m).Harmless outpoint.toBytes number := by
  rcases s.move_cases m with ⟨call, rfl, hmove⟩ | ⟨i, call, question, next, rfl, htask, hmove⟩ | hmove
  · rw [hmove]
    refine ⟨fun i task hle hother => ?_, h.unwritten⟩
    change (s.tasks ++ [_])[i]? = _ at hother
    rw [List.getElem?_append] at hother
    split at hother
    next => exact h.guarded i task hle hother
    next =>
      obtain rfl := List.mem_singleton.mp (List.mem_of_getElem? hother)
      exact guarded_operation fun other heq => hcalm other (heq ▸ rfl)
  · rw [hmove] at hrecorded ⊢
    -- a guarded call that may be followed by a write would have taken the outpoint away
    have hguarded (hle : number ≤ i) :
        written outpoint.toBytes ⟨question, (serve question s.store).1⟩ = none ∧
          Guarded outpoint.toBytes (next (serve question s.store).1) := by
      rcases h.guarded i _ hle htask with htakes | hrest
      · exact absurd hrecorded (htakes s.store)
      · exact hrest _
    refine ⟨fun j task hle hother => ?_, fun access haccess hle => ?_⟩
    · rw [getElem?_tasks_access htask] at hother
      split at hother
      next heq =>
        obtain rfl := Option.some.inj hother
        exact (hguarded (heq ▸ hle)).2
      next => exact h.guarded j task hle hother
    · rcases List.mem_append.mp haccess with hold | hnew
      · exact h.unwritten access hold hle
      · obtain rfl := List.mem_singleton.mp hnew
        exact (hguarded hle).1
  · rw [hmove]
    exact h

theorem Harmless.moves {number : Nat} {following : List Move}
    (h : s.Harmless outpoint.toBytes number)
    (hcalm : ∀ other, .begin (.putPayload outpoint other) ∉ following)
    (hrecorded : s.StaysRecorded outpoint.toBytes following) :
    (s.moves following).Harmless outpoint.toBytes number := by
  induction following generalizing s with
  | nil => exact h
  | cons m rest ih =>
      have hnext : (s.move m).store.outpoints.contains outpoint.toBytes := by
        cases rest with
        | nil => exact hrecorded.2
        | cons => exact hrecorded.2.1
      exact ih (h.move (fun other heq => hcalm other (heq ▸ List.mem_cons_self)) hnext)
        (fun other hmem => hcalm other (List.mem_cons_of_mem _ hmem)) hrecorded.2

/-- Among the accesses to the message of an outpoint the last one comes after operation `i` has put
`payload`, is of another operation of a number below `begun`, and leaves something else. -/
def Overridden (s : Sharing) (begun i : Nat) (outpoint : Outpoint) (payload : Bytes) : Prop :=
  ∃ earlier access later left, s.log = earlier ++ access :: later ∧
    ⟨i, .insert .messages outpoint.toBytes payload, ()⟩ ∈ earlier ∧
    access.operation < begun ∧ access.operation ≠ i ∧
    written outpoint.toBytes access.said = some left ∧ left ≠ some payload ∧
    ∀ a ∈ later, written outpoint.toBytes a.said = none

/-- However the calls of any operations alternate: once a put has answered that its message is kept,
and as long as the outpoint stays recorded and no other put for it begins, the message is there
exactly if no operation that had begun before the answer has the last word on it. -/
theorem acknowledged_kept_iff {store : DurableStore} {before following : List Move}
    (h : ((start store).moves before).Acknowledged i outpoint payload following) :
    let s := (start store).moves before
    let t := s.moves following
    (DurableStore.perform (.payload outpoint) t.store).1 = .ok (some payload) ↔
      ¬ t.Overridden s.tasks.length i outpoint payload := by
  intro s t
  have hbefore : s.Logged store := logged_moves store before
  have hafter : t.Logged store := by
    have hmoves := logged_moves store (before ++ following)
    rwa [moves_append] at hmoves
  have hharmless : t.Harmless outpoint.toBytes s.tasks.length := by
    refine Harmless.moves ⟨fun j task hle htask => ?_, fun access haccess hle => ?_⟩ h.calm
      h.recorded
    · exact absurd (List.getElem?_eq_some_iff.mp htask).1 (Nat.not_lt.mpr hle)
    · exact absurd (hbefore.begun access haccess) (Nat.not_lt.mpr hle)
  have hpayload : (DurableStore.perform (.payload outpoint) t.store).1 =
      .ok (lastLeft outpoint.toBytes t.log (store.messages.get? outpoint.toBytes)) :=
    congrArg Except.ok (hafter.messages outpoint.toBytes)
  rw [hpayload, Except.ok.injEq]
  constructor
  · rintro hkept ⟨earlier, access, later, left, hlog, -, -, -, hwritten, hne, hlater⟩
    rw [hlog, lastLeft_of_last hwritten hlater] at hkept
    exact hne hkept
  · intro hnot
    by_contra hlost
    obtain ⟨hput, hown⟩ := hafter.put_of_acknowledges (acknowledges_moves h.answered following)
    have hwrites : written outpoint.toBytes
        ⟨.insert .messages outpoint.toBytes payload, ()⟩ = some (some payload) := if_pos rfl
    -- the put's own write is in the log, so there is a last one
    obtain ⟨earlier, access, later, left, hlog, hwritten, hlater⟩ :=
      exists_last ⟨_, hput, fun hnone => nomatch hnone.symm.trans hwrites⟩
    have hmem : access ∈ t.log := by simp [hlog]
    have hleft : left ≠ some payload := by
      rwa [hlog, lastLeft_of_last hwritten hlater] at hlost
    refine hnot ⟨earlier, access, later, left, hlog, ?_, ?_, ?_, hwritten, hleft, hlater⟩
    · rw [hlog] at hput
      rcases List.mem_append.mp hput with hearlier | hrest
      · exact hearlier
      · rcases List.mem_cons.mp hrest with rfl | hafterwards
        · exact absurd (Option.some.inj (hwritten.symm.trans hwrites)) hleft
        · exact nomatch (hlater _ hafterwards).symm.trans hwrites
    · refine not_le.mp fun hle => ?_
      exact nomatch (hharmless.unwritten access hmem hle).symm.trans hwritten
    · exact fun hsame => hleft (hown access hmem hsame left hwritten)

/-! ## Two runs -/

/-- A removal takes the outpoint, which is then recorded again, and a put for it is acknowledged.
The removal still has the message to take. -/
def removalRun : List Move :=
  [.begin (.add runOutpoint), .proceed 0, .begin (.remove runOutpoint), .proceed 1,
    .begin (.add runOutpoint), .proceed 2,
    .begin (.putPayload runOutpoint [1]), .proceed 3, .proceed 3, .proceed 3]

/-- A put sees the outpoint, and before it writes, another put is acknowledged. -/
def raceRun : List Move :=
  [.begin (.add runOutpoint), .proceed 0, .begin (.putPayload runOutpoint [2]), .proceed 1,
    .begin (.putPayload runOutpoint [1]), .proceed 2, .proceed 2, .proceed 2]

theorem acknowledged_removalRun :
    ((start .empty).moves removalRun).Acknowledged 3 runOutpoint [1] [.proceed 1] where
  answered := by decide +kernel
  recorded := by decide +kernel
  calm other := by simp

theorem acknowledged_raceRun :
    ((start .empty).moves raceRun).Acknowledged 2 runOutpoint [1] [.proceed 1, .proceed 1] where
  answered := by decide +kernel
  recorded := by decide +kernel
  calm other := by simp

/-- As long as the removal has not gone on, the message is there, and afterwards the removal is the
one with the last word. -/
theorem acknowledged_kept_iff_removalRun :
    let s := (start .empty).moves removalRun
    s.Acknowledged 3 runOutpoint [1] [] ∧ ¬ s.Overridden 4 3 runOutpoint [1] ∧
      s.Acknowledged 3 runOutpoint [1] [.proceed 1] ∧
      (s.moves [.proceed 1]).Overridden 4 3 runOutpoint [1] := by
  intro s
  have hanswer : s.Acknowledged 3 runOutpoint [1] [] :=
    ⟨acknowledged_removalRun.answered, acknowledged_removalRun.recorded.1, fun _ => List.not_mem_nil⟩
  refine ⟨hanswer, (acknowledged_kept_iff hanswer).mp (by decide +kernel), acknowledged_removalRun, ?_⟩
  refine not_not.mp fun hnot => ?_
  have hkept := (acknowledged_kept_iff acknowledged_removalRun).mpr hnot
  revert hkept
  decide +kernel

/-- An acknowledged message that is lost although its outpoint stays recorded and no other put for
it begins: the late removal takes it, and in the second run the slower put replaces it. -/
theorem acknowledged_lost :
    let s := (start .empty).moves removalRun
    let t := (start .empty).moves raceRun
    (s.Acknowledged 3 runOutpoint [1] [.proceed 1] ∧
      (DurableStore.perform (.payload runOutpoint) (s.moves [.proceed 1]).store).1 = .ok none) ∧
    (t.Acknowledged 2 runOutpoint [1] [.proceed 1, .proceed 1] ∧
      (DurableStore.perform (.payload runOutpoint)
        (t.moves [.proceed 1, .proceed 1]).store).1 = .ok (some [2])) := by
  refine ⟨⟨acknowledged_removalRun, ?_⟩, ⟨acknowledged_raceRun, ?_⟩⟩ <;> decide +kernel

end Sharing

end ChatRelay
