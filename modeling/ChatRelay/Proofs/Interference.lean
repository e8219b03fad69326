import ChatRelay.Proofs.Executions

/-!
# Interference

Between two steps of a routine other tasks may act. Terms say what the routine relies on from the
others, how its questions are served, and what each of its own steps guarantees. A routine secures
a condition on its end when, under the terms, every step it takes keeps the guarantee and every
end it comes to satisfies the condition.
-/

namespace ChatRelay.Routine

/-- What a task relies on and what it guarantees. Any number of steps of others is relied on as
one. -/
structure Terms {Q : Type} (A : Q → Type) (σ : Type) where
  rely : σ → σ → Prop
  serves : (question : Q) → σ → A question → σ → Prop
  guarantee : σ → σ → Prop
  rely_refl : ∀ s, rely s s
  rely_trans : ∀ {s t u}, rely s t → rely t u → rely s u

variable {Q : Type} {A : Q → Type} {α β σ : Type}

/-- Every step keeps the guarantee and every end satisfies the condition, whatever the others do
before each step and before the end. -/
def Secures (terms : Terms A σ) : Routine A α → (α → σ → Prop) → σ → Prop
  | .done result, condition, s => ∀ t, terms.rely s t → condition result t
  | .ask question next, condition, s =>
    ∀ t, terms.rely s t → ∀ answer u, terms.serves question t answer u →
      terms.guarantee t u ∧ Secures terms (next answer) condition u

variable {terms : Terms A σ} {condition other : α → σ → Prop} {r : Routine A α} {s t : σ}

/-- Steps of others leave a routine as secure as it was. -/
theorem Secures.relied (h : Secures terms r condition s) (hrely : terms.rely s t) :
    Secures terms r condition t := by
  cases r with
  | done result => exact fun u hu => h u (terms.rely_trans hrely hu)
  | ask question next => exact fun u hu => h u (terms.rely_trans hrely hu)

theorem Secures.mono (h : Secures terms r condition s)
    (hcondition : ∀ x t, condition x t → other x t) : Secures terms r other s := by
  induction r generalizing s with
  | done result => exact fun t ht => hcondition result t (h t ht)
  | ask question next ih =>
      intro t ht answer u hserved
      obtain ⟨hguarantee, hrest⟩ := h t ht answer u hserved
      exact ⟨hguarantee, ih answer hrest⟩

/-- A question is secure when its answers are, each with what is done next. -/
theorem Secures.ask {question : Q} {next : A question → Routine A α}
    (h : ∀ t, terms.rely s t → ∀ answer u, terms.serves question t answer u →
      terms.guarantee t u ∧ Secures terms (next answer) condition u) :
    Secures terms (.ask question .done >>= next) condition s := h

/-- A sequence is secure when its second part is, from wherever the first may end. -/
theorem Secures.bind {f : α → Routine A β} {last : β → σ → Prop}
    (h : Secures terms r condition s)
    (hnext : ∀ x t, condition x t → Secures terms (f x) last t) :
    Secures terms (r >>= f) last s := by
  change Secures terms (r.bind f) last s
  induction r generalizing s with
  | done result => exact hnext result s (h s (terms.rely_refl s))
  | ask question next ih =>
      intro t ht answer u hserved
      obtain ⟨hguarantee, hrest⟩ := h t ht answer u hserved
      exact ⟨hguarantee, ih answer hrest⟩

/-- What every step of others and of the routine itself preserves also holds at the end. -/
theorem Secures.keeps {kept : σ → Prop} (h : Secures terms r condition s) (hkept : kept s)
    (hrely : ∀ {s t}, terms.rely s t → kept s → kept t)
    (hserves : ∀ {question s answer t}, terms.serves question s answer t → kept s → kept t) :
    Secures terms r (fun x t => condition x t ∧ kept t) s := by
  induction r generalizing s with
  | done result => exact fun t ht => ⟨h t ht, hrely ht hkept⟩
  | ask question next ih =>
      intro t ht answer u hserved
      obtain ⟨hguarantee, hrest⟩ := h t ht answer u hserved
      exact ⟨hguarantee, ih answer hrest (hserves hserved (hrely ht hkept))⟩

/-- Every question of a routine is an allowed one. -/
def Asks (allowed : Q → Prop) : Routine A α → Prop
  | .done _ => True
  | .ask question next => allowed question ∧ ∀ answer, Asks allowed (next answer)

theorem Asks.ask {allowed : Q → Prop} {question : Q} {next : A question → Routine A α}
    (hquestion : allowed question) (hnext : ∀ answer, Asks allowed (next answer)) :
    Asks allowed (.ask question .done >>= next) := ⟨hquestion, hnext⟩

/-- A routine keeps a guarantee that each of the questions it may ask keeps. -/
theorem Asks.secures {allowed : Q → Prop} (h : r.Asks allowed)
    (hallowed : ∀ {question s answer t}, allowed question → terms.serves question s answer t →
      terms.guarantee s t) (s : σ) : Secures terms r (fun _ _ => True) s := by
  induction r generalizing s with
  | done result => exact fun _ _ => trivial
  | ask question next ih =>
      exact fun t _ answer u hserved => ⟨hallowed h.1 hserved, ih answer (h.2 answer) u⟩

end ChatRelay.Routine
