import ChatRelay.Wire.Limits
import Mathlib.Data.List.Count
import Mathlib.Data.List.Induction

/-!
# What a budget guarantees

A kind's windows do not overlap: the next one begins more than a window's length behind the start of
the one before. So a stretch of time as long as a window meets at most two of them, and no more than
two budgets are accepted in it. An event is refused only behind a whole budget of accepted ones in
the window it falls into, and events of other kinds make no difference. The windows of a table may
be given in any unit of time.
-/

namespace ChatRelay.RateLimiter

variable {κ : Type} [DecidableEq κ] {limiter : RateLimiter κ} {now : Nat} {kind other : κ}

/-! ## One event -/

@[simp] theorem limitOf_check :
    (limiter.check now other).2.limitOf kind = limiter.limitOf kind := rfl

theorem accepted_check : (limiter.check now kind).1 ↔
    (limiter.windowAt now kind).accepted < (limiter.limitOf kind).budget := by
  simp [check]

/-- A window behind an event that falls into it. -/
def counting (limit : RateLimit) (window : RateWindow) : RateWindow :=
  if window.accepted < limit.budget then { window with accepted := window.accepted + 1 } else window

@[simp] theorem start_counting (limit : RateLimit) (window : RateWindow) :
    (counting limit window).start = window.start := by
  unfold counting
  split <;> rfl

/-- An event changes the window of its own kind only. -/
theorem get?_windows_check : (limiter.check now other).2.windows.get? kind =
    if kind = other then some (counting (limiter.limitOf other) (limiter.windowAt now other))
    else limiter.windows.get? kind := by
  simp only [check, Table.get?_insert, counting, decide_eq_true_eq]

/-! ## Runs of events -/

theorem checkAll_append (limiter : RateLimiter κ) (first second : List (Nat × κ)) :
    limiter.checkAll (first ++ second) =
      ((limiter.checkAll first).1 ++ ((limiter.checkAll first).2.checkAll second).1,
        ((limiter.checkAll first).2.checkAll second).2) := by
  induction first generalizing limiter with
  | nil => rfl
  | cons event rest ih =>
      obtain ⟨now, kind⟩ := event
      rw [List.cons_append, checkAll, checkAll]
      dsimp only
      rw [ih]
      rfl

theorem length_checkAll (limiter : RateLimiter κ) (events : List (Nat × κ)) :
    (limiter.checkAll events).1.length = events.length := by
  induction events generalizing limiter with
  | nil => rfl
  | cons event rest ih => exact congrArg (· + 1) (ih _)

theorem limitOf_checkAll (limiter : RateLimiter κ) (events : List (Nat × κ)) :
    (limiter.checkAll events).2.limitOf kind = limiter.limitOf kind := by
  induction events generalizing limiter with
  | nil => rfl
  | cons event rest ih => exact ih _

/-- Events with the answers they get. -/
def judged (limiter : RateLimiter κ) (events : List (Nat × κ)) : List ((Nat × κ) × Bool) :=
  events.zip (limiter.checkAll events).1

/-- The times at which events of a kind are accepted. -/
def acceptedAt (limiter : RateLimiter κ) (kind : κ) (events : List (Nat × κ)) : List Nat :=
  ((limiter.judged events).filter fun event => event.1.2 = kind ∧ event.2).map (·.1.1)

theorem judged_append (limiter : RateLimiter κ) (first second : List (Nat × κ)) :
    limiter.judged (first ++ second) =
      limiter.judged first ++ (limiter.checkAll first).2.judged second := by
  rw [judged, checkAll_append]
  exact List.zip_append (limiter.length_checkAll first).symm

theorem acceptedAt_append (limiter : RateLimiter κ) (kind : κ) (first second : List (Nat × κ)) :
    limiter.acceptedAt kind (first ++ second) =
      limiter.acceptedAt kind first ++ (limiter.checkAll first).2.acceptedAt kind second := by
  rw [acceptedAt, judged_append, List.filter_append, List.map_append]
  rfl

theorem acceptedAt_singleton (limiter : RateLimiter κ) (now : Nat) (kind other : κ) :
    limiter.acceptedAt kind [(now, other)] =
      if other = kind ∧ (limiter.check now other).1 then [now] else [] := by
  change List.map _ (List.filter _ [((now, other), (limiter.check now other).1)]) = _
  cases (limiter.check now other).1 <;> by_cases hkind : other = kind <;> simp [hkind]

/-! ## The running window -/

/-- What counts in an interval counts before a time in it or from that time on. -/
theorem countP_interval_le (first middle last : Nat) (times : List Nat) :
    times.countP (fun time => first ≤ time ∧ time ≤ last) ≤
      times.countP (fun time => first ≤ time ∧ time < middle) +
        times.countP (fun time => middle ≤ time) := by
  induction times with
  | nil => exact Nat.le_refl 0
  | cons time rest ih =>
      simp only [List.countP_cons, decide_eq_true_eq]
      split <;> split <;> split <;> omega

/-- What a window that runs at a time says of the times at which events were accepted until then. -/
structure Running (limit : RateLimit) (now : Nat) (accepted : List Nat) (window : RateWindow) :
    Prop where
  begun : window.start ≤ now
  lasts : now ≤ window.start + limit.window
  past : ∀ time ∈ accepted, time ≤ now
  counted : accepted.countP (fun time => window.start ≤ time) = window.accepted
  within : window.accepted ≤ limit.budget
  /-- Less than a window's length before the start, not more than one budget was accepted. -/
  earlier : ∀ first, window.start ≤ first + limit.window →
    accepted.countP (fun time => first ≤ time ∧ time < window.start) ≤ limit.budget
  bounded : ∀ first, accepted.countP (fun time => first ≤ time ∧ time ≤ first + limit.window) ≤
    2 * limit.budget

namespace Running

variable {limit : RateLimit} {later : Nat} {accepted : List Nat} {window : RateWindow}

/-- A kind's first window. -/
theorem first (limit : RateLimit) (now : Nat) : Running limit now [] ⟨now, 0⟩ where
  begun := Nat.le_refl now
  lasts := Nat.le_add_right now _
  past := nofun
  counted := rfl
  within := Nat.zero_le _
  earlier _ _ := Nat.zero_le _
  bounded _ := Nat.zero_le _

/-- Time goes on within a window. -/
theorem stay (h : Running limit now accepted window) (hlater : now ≤ later)
    (hlasts : later ≤ window.start + limit.window) : Running limit later accepted window where
  begun := Nat.le_trans h.begun hlater
  lasts := hlasts
  past time htime := Nat.le_trans (h.past time htime) hlater
  counted := h.counted
  within := h.within
  earlier := h.earlier
  bounded := h.bounded

/-- The next window begins when the one before is over. -/
theorem renew (h : Running limit now accepted window) (hlater : now ≤ later)
    (hover : window.start + limit.window < later) : Running limit later accepted ⟨later, 0⟩ where
  begun := Nat.le_refl later
  lasts := Nat.le_add_right later _
  past time htime := Nat.le_trans (h.past time htime) hlater
  counted := by
    rw [List.countP_eq_zero]
    intro time htime
    have hpast := h.past time htime
    have hlasts := h.lasts
    simp only [decide_eq_true_eq]
    omega
  within := Nat.zero_le _
  earlier first hfirst := by
    -- what is that late was accepted in the window before
    refine Nat.le_trans (List.countP_mono_left fun time _ htime => ?_) (h.counted ▸ h.within)
    have hfirst : later ≤ first + limit.window := hfirst
    simp only [decide_eq_true_eq] at htime ⊢
    omega
  bounded := h.bounded

/-- One more event is accepted. -/
theorem accept (h : Running limit now accepted window) (hleft : window.accepted < limit.budget) :
    Running limit now (accepted ++ [now]) ⟨window.start, window.accepted + 1⟩ where
  begun := h.begun
  lasts := h.lasts
  past time htime := by
    rcases List.mem_append.mp htime with htime | htime
    · exact h.past time htime
    · exact Nat.le_of_eq (List.mem_singleton.mp htime)
  counted := by simp [List.countP_append, h.counted, h.begun]
  within := hleft
  earlier first hfirst := by
    have hbegun := h.begun
    have hearlier := h.earlier first hfirst
    rw [List.countP_append, List.countP_singleton, if_neg]
    · exact hearlier
    · simp only [decide_eq_true_eq]
      omega
  bounded first := by
    rw [List.countP_append, List.countP_singleton]
    split
    next hnow =>
      -- what counts was accepted before the running window or in it
      have hnow : first ≤ now ∧ now ≤ first + limit.window := of_decide_eq_true hnow
      have hbegun := h.begun
      have hearlier := h.earlier first (by omega)
      have hsplit := countP_interval_le first window.start (first + limit.window) accepted
      have hcounted := h.counted
      omega
    next => exact h.bounded first

end Running

variable {events : List (Nat × κ)}

/-- What a limiter holds of a kind behind some events, of which the last of the kind was at time
`last`. -/
def Holds (limiter : RateLimiter κ) (kind : κ) (events : List (Nat × κ)) (last : Nat) : Prop :=
  match (limiter.checkAll events).2.windows.get? kind with
  | none => limiter.acceptedAt kind events = []
  | some window => (window.start, kind) ∈ events ∧
      Running (limiter.limitOf kind) last (limiter.acceptedAt kind events) window

/-- The window that the next event falls into. -/
theorem Holds.next {last : Nat} (h : limiter.Holds kind events last) (hlast : last ≤ now) :
    let window := (limiter.checkAll events).2.windowAt now kind
    (window.start, kind) ∈ events ++ [(now, kind)] ∧
      Running (limiter.limitOf kind) now (limiter.acceptedAt kind events) window := by
  cases hwindow : (limiter.checkAll events).2.windows.get? kind with
  | none =>
      simp only [Holds, hwindow] at h
      simp only [windowAt, hwindow, h]
      exact ⟨by simp, .first _ now⟩
  | some window =>
      simp only [Holds, hwindow] at h
      simp only [windowAt, hwindow, limitOf_checkAll]
      split
      next hover =>
        exact ⟨by simp, h.2.renew hlast (by omega)⟩
      next hlasts =>
        exact ⟨List.mem_append_left _ h.1, h.2.stay hlast (by omega)⟩

/-- An event of another kind changes nothing. -/
theorem Holds.ignore {last : Nat} (h : limiter.Holds kind events last) (hother : other ≠ kind) :
    limiter.Holds kind (events ++ [(now, other)]) last := by
  have hwindows : (limiter.checkAll (events ++ [(now, other)])).2.windows.get? kind =
      (limiter.checkAll events).2.windows.get? kind := by
    rw [checkAll_append]
    exact get?_windows_check.trans (if_neg hother.symm)
  have haccepted : limiter.acceptedAt kind (events ++ [(now, other)]) =
      limiter.acceptedAt kind events := by
    rw [acceptedAt_append, acceptedAt_singleton, if_neg fun h => hother h.1, List.append_nil]
  unfold Holds at h ⊢
  rw [hwindows, haccepted]
  split at h
  · exact h
  · exact ⟨List.mem_append_left _ h.1, h.2⟩

/-- An event of the kind is counted in the window that it falls into. -/
theorem Holds.judge {last : Nat} (h : limiter.Holds kind events last) (hlast : last ≤ now) :
    limiter.Holds kind (events ++ [(now, kind)]) now := by
  obtain ⟨hbegun, hrunning⟩ := h.next hlast
  have hwindows : (limiter.checkAll (events ++ [(now, kind)])).2.windows.get? kind =
      some (counting (limiter.limitOf kind) ((limiter.checkAll events).2.windowAt now kind)) := by
    rw [checkAll_append, ← limitOf_checkAll limiter events]
    exact get?_windows_check.trans (if_pos rfl)
  unfold Holds
  have haccepted : ((limiter.checkAll events).2.check now kind).1 ↔
      ((limiter.checkAll events).2.windowAt now kind).accepted < (limiter.limitOf kind).budget := by
    rw [accepted_check, limitOf_checkAll]
  rw [hwindows, acceptedAt_append, acceptedAt_singleton]
  generalize (limiter.checkAll events).2.windowAt now kind = window at hbegun hrunning haccepted
  dsimp only
  rw [start_counting]
  refine ⟨hbegun, ?_⟩
  by_cases hleft : window.accepted < (limiter.limitOf kind).budget
  · rw [if_pos ⟨rfl, haccepted.mpr hleft⟩, counting, if_pos hleft]
    exact hrunning.accept hleft
  · rw [if_neg fun h => hleft (haccepted.mp h.2), List.append_nil, counting, if_neg hleft]
    exact hrunning

/-- Behind events in their order a limiter holds what it should of each kind. -/
theorem exists_holds (limits : Table κ RateLimit) (kind : κ)
    (hsorted : events.Pairwise fun a b => a.1 ≤ b.1) :
    ∃ last, Holds ⟨limits, .empty⟩ kind events last ∧
      ∀ now, (∀ event ∈ events, event.1 ≤ now) → last ≤ now := by
  induction events using List.reverseRecOn with
  | nil => exact ⟨0, rfl, fun now _ => Nat.zero_le now⟩
  | append_singleton events event ih =>
      obtain ⟨hbefore, -, hordered⟩ := List.pairwise_append.mp hsorted
      obtain ⟨last, hholds, hlast⟩ := ih hbefore
      obtain ⟨now, other⟩ := event
      have hnow : last ≤ now := hlast now fun event hmem =>
        hordered event hmem (now, other) List.mem_cons_self
      by_cases hkind : other = kind
      · subst hkind
        exact ⟨now, hholds.judge hnow, fun later hlater => hlater (now, other) (by simp)⟩
      · refine ⟨last, hholds.ignore hkind, fun later hlater => ?_⟩
        exact hlast later fun event hmem => hlater event (List.mem_append_left _ hmem)

/-! ## Kinds by themselves -/

/-- Two limiters hold the same of a kind. -/
def Agree (kind : κ) (a b : RateLimiter κ) : Prop :=
  a.limitOf kind = b.limitOf kind ∧ a.windows.get? kind = b.windows.get? kind

section

variable {a b : RateLimiter κ}

theorem Agree.windowAt (h : Agree kind a b) (now : Nat) :
    a.windowAt now kind = b.windowAt now kind := by
  rw [RateLimiter.windowAt, RateLimiter.windowAt, h.1, h.2]

theorem Agree.answer (h : Agree kind a b) (now : Nat) :
    (a.check now kind).1 = (b.check now kind).1 :=
  Bool.eq_iff_iff.mpr (by rw [accepted_check, accepted_check, h.windowAt, h.1])

theorem Agree.judge (h : Agree kind a b) (now : Nat) :
    Agree kind (a.check now kind).2 (b.check now kind).2 := by
  refine ⟨h.1, ?_⟩
  rw [get?_windows_check, get?_windows_check, if_pos rfl, if_pos rfl, h.windowAt, h.1]

theorem Agree.ignore (h : Agree kind a b) (now : Nat) (hother : other ≠ kind) :
    Agree kind (a.check now other).2 b := by
  refine ⟨h.1, ?_⟩
  rw [get?_windows_check, if_neg hother.symm]
  exact h.2

/-- Events of one kind get the answers that they get without those of other kinds. -/
theorem Agree.answers (h : Agree kind a b) (events : List (Nat × κ)) :
    ((a.judged events).filter (·.1.2 = kind)).map (·.2) =
      (b.checkAll (events.filter (·.2 = kind))).1 := by
  induction events generalizing a b with
  | nil => rfl
  | cons event rest ih =>
      obtain ⟨now, other⟩ := event
      have hjudged : a.judged ((now, other) :: rest) =
        ((now, other), (a.check now other).1) :: (a.check now other).2.judged rest := rfl
      rw [hjudged]
      by_cases hkind : other = kind
      · subst hkind
        simp only [List.filter_cons, decide_true, if_true, List.map_cons, checkAll, h.answer now,
          ih (h.judge now)]
      · simp only [List.filter_cons, decide_eq_true_eq, hkind, if_false, ih (h.ignore now hkind)]

end

/-- For events in the order of their times and each kind: in every interval as long as the window no
more than two budgets are accepted; an event is refused only if a whole budget was accepted since
the window it falls into began, which was with an event of the kind and not longer ago than the
window's length; and the answers are those that the kind gets alone. -/
theorem accepted_within_limits (limits : Table κ RateLimit) (events : List (Nat × κ))
    (hsorted : events.Pairwise fun a b => a.1 ≤ b.1) (kind : κ) :
    let limiter : RateLimiter κ := ⟨limits, .empty⟩
    let limit := (limits.get? kind).getD .standard
    (∀ first, (limiter.acceptedAt kind events).countP
        (fun time => first ≤ time ∧ time ≤ first + limit.window) ≤ 2 * limit.budget) ∧
      (∀ before now after, events = before ++ (now, kind) :: after →
        (limiter.checkAll events).1[before.length]? = some false →
          let window := (limiter.checkAll before).2.windowAt now kind
          (window.start, kind) ∈ before ++ [(now, kind)] ∧
            window.start ≤ now ∧ now ≤ window.start + limit.window ∧
            (limiter.acceptedAt kind before).countP (fun time => window.start ≤ time) =
              limit.budget) ∧
      ((limiter.judged events).filter (·.1.2 = kind)).map (·.2) =
        (limiter.checkAll (events.filter (·.2 = kind))).1 := by
  intro limiter limit
  refine ⟨fun first => ?_, ?_, Agree.answers ⟨rfl, rfl⟩ events⟩
  · obtain ⟨last, hholds, -⟩ := exists_holds limits kind hsorted
    unfold Holds at hholds
    split at hholds
    next => rw [hholds]; exact Nat.zero_le _
    next => exact hholds.2.bounded first
  · rintro before now after rfl hrefused window
    obtain ⟨hbefore, -, hordered⟩ := List.pairwise_append.mp hsorted
    obtain ⟨last, hholds, hlast⟩ := exists_holds limits kind hbefore
    have hnow : last ≤ now := hlast now fun event hmem =>
      hordered event hmem (now, kind) List.mem_cons_self
    obtain ⟨hbegun, hrunning⟩ := hholds.next hnow
    refine ⟨hbegun, hrunning.begun, hrunning.lasts, hrunning.counted.trans ?_⟩
    have hanswer : ((limiter.checkAll before).2.check now kind).1 = false := by
      have hlength := length_checkAll limiter before
      rw [checkAll_append, List.getElem?_append_right (Nat.le_of_eq hlength), hlength,
        Nat.sub_self] at hrefused
      exact Option.some.inj hrefused
    have hused : ¬ window.accepted < limit.budget := by
      have haccepted := Bool.eq_false_iff.mp hanswer
      rwa [ne_eq, accepted_check, limitOf_checkAll] at haccepted
    exact Nat.le_antisymm hrunning.within (Nat.le_of_not_lt hused)

/-- Deliveries within a budget of two in ten units of time, with an announcement between them: the
third one is refused, and those behind the first window have a window of their own. -/
def deliveries : List (Nat × Frame.Kind) :=
  [(0, .data), (4, .inv), (10, .data), (10, .data), (11, .data), (11, .data), (12, .data)]

theorem accepted_within_limits_deliveries :
    let limits : Table Frame.Kind RateLimit := .ofList [(.data, ⟨10, 2⟩)]
    let limiter : RateLimiter Frame.Kind := ⟨limits, .empty⟩
    let before := deliveries.take 3
    deliveries.Pairwise (fun a b => a.1 ≤ b.1) ∧
      (limiter.checkAll deliveries).1 = [true, true, true, false, true, true, false] ∧
      (limiter.acceptedAt .data deliveries).countP (fun time => 1 ≤ time ∧ time ≤ 1 + 10) ≤ 2 * 2 ∧
      ((limiter.checkAll before).2.windowAt 10 .data).start = 0 ∧
      (limiter.acceptedAt .data before).countP (fun time => 0 ≤ time) = 2 ∧
      (limiter.checkAll (deliveries.filter (·.2 = .data))).1 =
        [true, true, false, true, true, false] := by
  intro limits limiter before
  have hsorted : deliveries.Pairwise fun a b => a.1 ≤ b.1 := by decide
  obtain ⟨hbounded, hrefused, halone⟩ := accepted_within_limits limits deliveries hsorted .data
  have hsince := (hrefused before 10 (deliveries.drop 4) rfl (by decide)).2.2.2
  exact ⟨hsorted, by decide, hbounded 1, by decide, hsince, halone.symm.trans (by decide)⟩

end ChatRelay.RateLimiter
