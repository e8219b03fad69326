import ChatRelay.Proofs.Station.Traffic

/-!
# Nodes in a mesh

Nodes are joined by links that lose nothing and keep the order of what is sent. Nothing disturbs the
nodes. At any of them one message may be submitted, any number of times, and so may messages that
are not validly signed. Nodes work in any order, and octets arrive in any order of the links and in
pieces of any length.
-/

namespace ChatRelay

variable {ι : Type}

/-- Which sockets of which nodes are the two ends of a link. -/
structure Links (ι : Type) where
  opposite : ι × Nat → Option (ι × Nat)
  symm : ∀ e e', opposite e = some e' → opposite e' = some e

/-- Whether a link joins two nodes. -/
def Links.Joins (links : Links ι) (i j : ι) : Prop :=
  ∃ k l, links.opposite (i, k) = some (j, l)

/-- Nodes, each with a store of its own, and how much has arrived of what they sent. -/
structure Mesh (B : ι → OutpointStore) where
  stations : (i : ι) → Station (B i)
  /-- How many of the octets that were sent at an end of a link have arrived at the other. -/
  delivered : ι × Nat → Nat

namespace Mesh

variable {B : ι → OutpointStore} (links : Links ι)
  (answers : ι → (call : LedgerCall) → call.Answer → Prop) (m : Message) (g : Mesh B)

/-- All that was sent at an end of a link. -/
def stream (e : ι × Nat) : Bytes := (g.stations e.1).stream e.2

/-- What was sent at an end of a link and has not arrived at the other. -/
def undelivered (e : ι × Nat) : Bytes := (g.stream e).drop (g.delivered e)

/-- What has arrived at an end of a link and has not been read. -/
def inbox (e : ι × Nat) : Bytes := (g.stations e.1).inbox e.2

/-- Nodes that have greeted each other over their links and nothing else, none of which has recorded
the message's outpoint. -/
structure Initial : Prop where
  idle : ∀ i, ∃ node w, g.stations i = .idle node w ∧ node.Fresh
  unrecorded : ∀ i, ((B i).perform (.has m.outpoint) (g.stations i).node.world).1 = .ok false
  bound : ∀ i, m.encodedLength ≤ (g.stations i).node.maxMessage
  unread : ∀ e, g.inbox e = []
  delivered : ∀ e e', links.opposite e = some e' → g.delivered e = Handshake.greeting.length
  registered : ∀ e e', links.opposite e = some e' →
    ∃ peer, (peer, e.2) ∈ (g.stations e.1).node.lifecycle.registry.entries

/-- Whether nobody has anything left to do and nothing is on its way. -/
structure Quiet : Prop where
  stations : ∀ i, (g.stations i).Quiet
  arrived : ∀ e e', links.opposite e = some e' → g.undelivered e = []
  read : ∀ e e', links.opposite e = some e' → g.inbox e' = []

variable [DecidableEq ι]

def place (i : ι) (s : Station (B i)) : Mesh B :=
  { g with stations := Function.update g.stations i s }

/-- One step of one of the nodes, or of a link. -/
inductive Step : Mesh B → Mesh B → Prop
  | work (g : Mesh B) (i : ι) (t : Station (B i))
      (hstep : Station.Step (fun _ => False) (answers i) (g.stations i) .work t) :
      Step g (g.place i t)
  | submit (g : Mesh B) (i : ι) (message : Message) (t : Station (B i))
      (hmessage : message = m ∨ message.Unsigned (answers i))
      (hstep : Station.Step (fun _ => False) (answers i) (g.stations i) (.submit message) t) :
      Step g (g.place i t)
  | deliver (g : Mesh B) (e e' : ι × Nat) (piece rest : Bytes) (t : Station (B e'.1))
      (hlink : links.opposite e = some e') (hnext : g.undelivered e = piece ++ rest)
      (hstep : Station.Step (fun _ => False) (answers e'.1) (g.stations e'.1)
        (.receive e'.2 piece) t) :
      Step g { g.place e'.1 t with
        delivered := Function.update g.delivered e (g.delivered e + piece.length) }

abbrev Reaches : Mesh B → Mesh B → Prop := Relation.ReflTransGen (Step links answers m)

/-! ## Turns -/

inductive Turn (ι : Type) where
  /-- A node takes a frame off a socket, or one of its tasks goes on. -/
  | act (i : ι) (a : Act)
  | submit (i : ι)
  /-- So many of the octets that were sent at an end arrive at the other. -/
  | deliver (e : ι × Nat) (count : Nat)

variable (chain : Chain)

/-- A turn that is not possible changes nothing. -/
def turn (g : Mesh B) : Turn ι → Mesh B
  | .act i a =>
    match a.move with
    | .work => g.place i ((g.stations i).act chain a)
    | _ => g
  | .submit i => g.place i ((g.stations i).act chain (.submit m))
  | .deliver e count =>
    match links.opposite e with
    | none => g
    | some e' =>
      let piece := (g.undelivered e).take count
      { g.place e'.1 ((g.stations e'.1).act chain (.receive e'.2 piece)) with
        delivered := Function.update g.delivered e (g.delivered e + piece.length) }

def turns (sequence : List (Turn ι)) : Mesh B := sequence.foldl (turn links m chain) g

variable {links} {answers} {m} {g} {chain}

@[simp] theorem place_self (i : ι) : g.place i (g.stations i) = g := by
  rw [place, Function.update_eq_self]

theorem reaches_turn (hanswers : ∀ i call, answers i call (chain.answer call)) (next : Turn ι) :
    Reaches links answers m g (g.turn links m chain next) := by
  cases next with
  | act i a =>
      simp only [turn]
      split
      next hmove =>
        have hact : (g.stations i).act chain a = g.stations i ∨ Station.Step (fun _ => False)
            (answers i) (g.stations i) a.move ((g.stations i).act chain a) :=
          Station.step_act (hanswers i) a
        rcases hact with hsame | hstep
        · rw [hsame, place_self]
        · exact .single (.work g i _ (hmove ▸ hstep))
      next => exact .refl
  | submit i => exact .single (.submit g i m _ (.inl rfl) (.submit _ m))
  | deliver e count =>
      simp only [turn]
      split
      next => exact .refl
      next e' hlink =>
        exact .single (.deliver g e e' _ _ _ hlink (List.take_append_drop count _).symm
          (.receive _ _ _))

theorem reaches_turns (hanswers : ∀ i call, answers i call (chain.answer call))
    (sequence : List (Turn ι)) : Reaches links answers m g (g.turns links m chain sequence) := by
  induction sequence generalizing g with
  | nil => exact .refl
  | cons next rest ih => exact (reaches_turn hanswers next).trans ih

/-! ## Three nodes in a row -/

/-- The ends of the links of a row, in both directions. The node in the middle has the outer ones on
its two sockets. -/
def rowEnds : List ((Fin 3 × Nat) × Fin 3 × Nat) :=
  [((0, 0), 1, 0), ((1, 0), 0, 0), ((1, 1), 2, 0), ((2, 0), 1, 1)]

theorem mem_rowEnds {e e' : Fin 3 × Nat} (h : rowEnds.lookup e = some e') : (e, e') ∈ rowEnds := by
  obtain ⟨before, after, hends, -⟩ := List.lookup_eq_some_iff.mp h
  rw [hends]
  exact List.mem_append_right _ List.mem_cons_self

def rowLinks : Links (Fin 3) where
  opposite e := rowEnds.lookup e
  symm e e' h := by
    have hsymm : ∀ ends ∈ rowEnds, rowEnds.lookup ends.2 = some ends.1 := by decide
    exact hsymm _ (mem_rowEnds h)

def sampleEnd : List Act :=
  [.connect .listen, .connect (.accept "only"), .receive 0 Handshake.greeting, .greet 0]

/-- A node with an empty store and the connections that acts have made. -/
def sampleStation (meeting : List Act) : Station MemoryStore.backend :=
  .idle (Station.sample.acts sampleChain meeting).node (Watcher.start ⟨6, true⟩)

/-- Three nodes in a row that have greeted each other. -/
def row : Mesh fun _ : Fin 3 => MemoryStore.backend where
  stations i := sampleStation (if i = 1 then Station.sampleMeeting else sampleEnd)
  delivered _ := Handshake.greeting.length

/-- The ledgers of the row, which all show the sample chain. -/
def rowAnswers (_ : Fin 3) (call : LedgerCall) (answer : call.Answer) : Prop :=
  answer = sampleChain.answer call

/-- A node takes a frame off a socket, and its new handler goes on a number of times. -/
def handles (i : Fin 3) (socket : Nat) (peer : PeerId) (handler count : Nat) :
    List (Turn (Fin 3)) :=
  .act i (.take socket peer) :: List.replicate count (.act i (.work handler))

/-- The sample message is submitted at the first node and goes along the row. -/
def sampleRow : List (Turn (Fin 3)) :=
  .submit 0 :: List.replicate 11 (.act 0 (.work 0)) ++
    [.act 0 (.send 0), .deliver (0, 0) 20, .deliver (0, 0) 100] ++
    handles 1 0 ⟨1⟩ 0 2 ++ [.deliver (1, 0) 100] ++ handles 0 0 ⟨1⟩ 1 2 ++ [.deliver (0, 0) 1000] ++
    handles 1 0 ⟨1⟩ 1 11 ++ [.act 1 (.send 0), .deliver (1, 1) 100] ++
    handles 2 0 ⟨1⟩ 0 2 ++ [.deliver (2, 0) 100] ++ handles 1 1 ⟨2⟩ 2 2 ++ [.deliver (1, 1) 1000] ++
    handles 2 0 ⟨1⟩ 1 11

def informedRow : Mesh fun _ : Fin 3 => MemoryStore.backend :=
  row.turns rowLinks sampleMessage sampleChain sampleRow

end Mesh

end ChatRelay
