import ChatRelay.Proofs.Station.Steps

/-!
# Who sends what

A frame is sent because a handler replies with it or because a task of its own announces an
outpoint. Every reply that is said to be sent was sent, and every announcement is sent at most once.
-/

namespace ChatRelay

/-- What a dispatch has sent. -/
def Dispatch.sendings (d : Dispatch) (index : Nat) : List Sending :=
  if d.fate = .sent then
    [⟨d.announcement.socket, .inv [d.announcement.outpoint], .dispatch index⟩]
  else []

namespace Station

variable {B : OutpointStore} {fails : StoreCall → Prop}
  {answers : (call : LedgerCall) → call.Answer → Prop} {s t : Station B} {move : Move}

/-- What was sent, and why. -/
structure Traced (s : Station B) : Prop where
  reply : ∀ x ∈ s.sent, ∀ k, x.cause = .reply k → ∃ handler, s.handlers[k]? = some handler ∧
    handler.errand.socket? = some x.socket ∧ ⟨.reply x.frame, true⟩ ∈ handler.transcript
  replied : ∀ k handler, s.handlers[k]? = some handler →
    ∀ frame, ⟨.reply frame, true⟩ ∈ handler.transcript →
      ∃ socket, handler.errand.socket? = some socket ∧ ⟨socket, frame, .reply k⟩ ∈ s.sent
  dispatched : ∀ j, s.sent.filter (·.cause = .dispatch j) =
    s.dispatches[j]?.elim [] fun d : Dispatch => d.sendings j

theorem traced_idle (node : Node B.State) (w : Watcher) : (idle node w).Traced :=
  ⟨by simp [idle], by simp [idle], by simp [idle]⟩

/-- A reply that is said to be sent was so before, or is sent now. -/
theorem Step.replied (h : Step fails answers s move t) {k : Nat} {after : Handler}
    (hafter : t.handlers[k]? = some after) {frame : Frame}
    (hsaid : ⟨.reply frame, true⟩ ∈ after.transcript) :
    (∃ handler, s.handlers[k]? = some handler ∧ after.errand = handler.errand ∧
        ⟨.reply frame, true⟩ ∈ handler.transcript) ∨
      ∃ socket, after.errand.socket? = some socket ∧ ⟨socket, frame, .reply k⟩ ∈ t.sent := by
  cases h.past hafter with
  | new errand hnone hbegins => cases hsaid
  | silent handler _ hhandler herrand htranscript haudience =>
      exact .inl ⟨handler, hhandler, herrand, htranscript ▸ hsaid⟩
  | said handler _ said hhandler herrand htranscript haudience heffect =>
      rw [htranscript] at hsaid
      rcases List.mem_append.mp hsaid with hbefore | hnew
      · exact .inl ⟨handler, hhandler, herrand, hbefore⟩
      · obtain rfl := List.mem_singleton.mp hnew
        cases heffect with
        | reply frame socket hsocket hsent => exact .inr ⟨socket, hsocket, by simp [hsent]⟩

/-- A step sends nothing, a reply, or an announcement that waited. -/
theorem Step.sends (h : Step fails answers s move t) :
    (t.sent = s.sent ∧ ∀ j, t.dispatches[j]?.elim [] (fun d : Dispatch => d.sendings j) =
        s.dispatches[j]?.elim [] fun d : Dispatch => d.sendings j) ∨
      (t.dispatches = s.dispatches ∧ ∃ k socket frame,
        t.sent = s.sent ++ [⟨socket, frame, .reply k⟩] ∧ ∃ after, t.handlers[k]? = some after ∧
          after.errand.socket? = some socket ∧ ⟨.reply frame, true⟩ ∈ after.transcript) ∨
      ∃ j d, s.dispatches[j]? = some d ∧ d.fate = .waiting ∧
        t.dispatches = s.dispatches.set j { d with fate := .sent } ∧
        t.sent = s.sent ++ ({ d with fate := .sent } : Dispatch).sendings j := by
  cases h with
  | reply k handler frame next socket node hhandler hstage hsocket hsent =>
      obtain ⟨hlt, -⟩ := List.getElem?_eq_some_iff.mp hhandler
      exact .inr (.inl ⟨rfl, k, socket, frame, rfl, _, List.getElem?_set_self hlt, hsocket,
        by simp [Handler.hear]⟩)
  | dispatch j d node hdispatch hfate hsent =>
      exact .inr (.inr ⟨j, d, hdispatch, hfate, rfl, by simp [Dispatch.sendings]⟩)
  | announce k handler source outpoint next hhandler hstage =>
      refine .inl ⟨rfl, fun j => ?_⟩
      dsimp only
      rw [List.getElem?_append]
      split
      next => rfl
      next hnew =>
        -- new dispatches have sent nothing
        rw [List.getElem?_eq_none (Nat.le_of_not_lt hnew), List.getElem?_map]
        cases (s.node.lifecycle.registry.entries.filter fun entry => some entry.1 ≠ source)[
          j - s.dispatches.length]? <;> rfl
  | undelivered i d hdispatch hfate =>
      refine .inl ⟨rfl, fun j => ?_⟩
      dsimp only
      rw [List.getElem?_set]
      split
      next heq =>
        subst heq
        obtain ⟨hlt, rfl⟩ := List.getElem?_eq_some_iff.mp hdispatch
        simp [hlt, Dispatch.sendings, hfate]
      next => rfl
  | _ => exact .inl ⟨rfl, fun _ => rfl⟩

theorem Traced.step (hs : s.Traced) (h : Step fails answers s move t) : t.Traced := by
  have hold : ∀ x ∈ s.sent, ∀ k, x.cause = .reply k → ∃ handler, t.handlers[k]? = some handler ∧
      handler.errand.socket? = some x.socket ∧ ⟨.reply x.frame, true⟩ ∈ handler.transcript := by
    intro x hx k hcause
    obtain ⟨handler, hhandler, hsocket, hsaid⟩ := hs.reply x hx k hcause
    obtain ⟨after, hafter, hgrows⟩ := h.handler_grows hhandler
    exact ⟨after, hafter, hgrows.errand ▸ hsocket, hgrows.transcript.subset hsaid⟩
  have hreplied : s.sent ⊆ t.sent → ∀ k after, t.handlers[k]? = some after →
      ∀ frame, ⟨.reply frame, true⟩ ∈ after.transcript →
        ∃ socket, after.errand.socket? = some socket ∧ ⟨socket, frame, .reply k⟩ ∈ t.sent := by
    intro hsub k after hafter frame hsaid
    rcases h.replied hafter hsaid with ⟨handler, hhandler, herrand, hsaid⟩ | hnew
    · obtain ⟨socket, hsocket, hmem⟩ := hs.replied k handler hhandler frame hsaid
      exact ⟨socket, herrand ▸ hsocket, hsub hmem⟩
    · exact hnew
  -- a dispatch has sent something exactly when its fate says so
  rcases h.sends with ⟨hsent, hdispatches⟩ |
    ⟨hdispatches, k, socket, frame, hsent, after, hafter, hsocket, hsaid⟩ |
    ⟨j, d, hd, hfate, hdispatches, hsent⟩
  · exact ⟨hsent ▸ hold, hreplied (hsent ▸ List.Subset.refl _), fun j => by
      rw [hsent, hdispatches, hs.dispatched]⟩
  · refine ⟨?_, hreplied (by simp [hsent]), fun j => ?_⟩
    · rw [hsent]
      refine List.forall_mem_append.mpr ⟨hold, ?_⟩
      simp only [List.mem_singleton, forall_eq, Cause.reply.injEq]
      rintro _ rfl
      exact ⟨after, hafter, hsocket, hsaid⟩
    · rw [hsent, hdispatches, List.filter_append, hs.dispatched]
      simp
  · refine ⟨?_, hreplied (by simp [hsent]), fun i => ?_⟩
    · rw [hsent]
      exact List.forall_mem_append.mpr ⟨hold, by simp [Dispatch.sendings]⟩
    · rw [hsent, hdispatches, List.filter_append, hs.dispatched, List.getElem?_set]
      by_cases hij : j = i
      · obtain ⟨hlt, rfl⟩ := List.getElem?_eq_some_iff.mp hd
        subst hij
        simp [hlt, Dispatch.sendings, hfate]
      · simp [hij, Dispatch.sendings]

/-- What a dispatch has sent is its announcement. -/
theorem Traced.announcement (hs : s.Traced) {x : Sending} (hx : x ∈ s.sent) {j : Nat}
    (hcause : x.cause = .dispatch j) : ∃ d, s.dispatches[j]? = some d ∧ d.fate = .sent ∧
      x = ⟨d.announcement.socket, .inv [d.announcement.outpoint], .dispatch j⟩ := by
  have hmem : x ∈ s.sent.filter (·.cause = .dispatch j) :=
    List.mem_filter.mpr ⟨hx, by simp [hcause]⟩
  rw [hs.dispatched] at hmem
  cases hd : s.dispatches[j]? with
  | none => simp [hd] at hmem
  | some d =>
      rw [hd, Option.elim_some, Dispatch.sendings] at hmem
      split at hmem
      next hfate => exact ⟨d, rfl, hfate, List.mem_singleton.mp hmem⟩
      next => cases hmem

/-- A delivery is a reply. -/
theorem Traced.delivery (hs : s.Traced) {x : Sending} (hx : x ∈ s.sent) {b : Bytes}
    (hframe : x.frame = .data b) : ∃ k, x.cause = .reply k := by
  cases hcause : x.cause with
  | reply k => exact ⟨k, rfl⟩
  | dispatch j =>
      obtain ⟨d, -, -, rfl⟩ := hs.announcement hx hcause
      cases hframe

end Station

end ChatRelay
