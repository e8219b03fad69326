import ChatRelay.Admission
import ChatRelay.Table

/-!
# Admission slots

Messages of one outpoint are decided one at a time. A run refers to the outpoint's slot, made if
there is none, and waits until nobody is inside. Whoever leaves a slot gives it up if nobody refers
to it any more. Runs are a state machine with atomic steps: arriving, entering, each request of the
decision, leaving, and tidying up. Steps of different runs may alternate in any way.
-/

namespace ChatRelay

/-- The slots of the outpoints. A slot is known by a number that is never used again. -/
structure Slots where
  table : Table Outpoint Nat
  /-- The number of the next slot that is made. -/
  fresh : Nat
  /-- One entry for each reference that a run holds to a slot. -/
  references : List Nat
  /-- The slots that somebody is inside. -/
  occupied : List Nat
  deriving Repr

namespace Slots

/-- No outpoint has a slot. -/
def empty : Slots := ⟨.empty, 0, [], []⟩

/-- The number of slots. -/
def active (slots : Slots) : Nat := slots.table.size

/-- Refers to the slot of an outpoint, which is made if there is none. -/
def take (slots : Slots) (outpoint : Outpoint) : Nat × Slots :=
  match slots.table.get? outpoint with
  | some slot => (slot, { slots with references := slot :: slots.references })
  | none =>
    (slots.fresh,
      { slots with
        table := slots.table.insert outpoint slots.fresh
        fresh := slots.fresh + 1
        references := slots.fresh :: slots.references })

/-- Goes inside a slot. -/
def enter (slots : Slots) (slot : Nat) : Slots := { slots with occupied := slot :: slots.occupied }

/-- Leaves a slot and refers to it no longer. -/
def leave (slots : Slots) (slot : Nat) : Slots :=
  { slots with
    occupied := slots.occupied.erase slot
    references := slots.references.erase slot }

/-- Gives up the slot of an outpoint if nobody refers to it. -/
def tidy (slots : Slots) (outpoint : Outpoint) : Slots :=
  match slots.table.get? outpoint with
  | some slot =>
    if slots.references.contains slot then slots
    else { slots with table := slots.table.erase outpoint }
  | none => slots

end Slots

/-- Where a run is. -/
inductive AdmissionPhase where
  | arriving
  | waiting (slot : Nat)
  | inside (slot : Nat) (rest : Routine Request.Answer (Except Rejection Admission))
  /-- Out of the slot, which may still have to be given up. -/
  | leaving (result : Except Rejection Admission)
  | finished (result : Except Rejection Admission)

/-- A message on its way to a decision. -/
structure AdmissionRun where
  message : Message
  /-- The key that the caller names as the owner's, if any. -/
  claimed : Option OwnerKey
  phase : AdmissionPhase

/-- The runs, the slots they share, and the surroundings that serve requests. -/
structure Admissions (σ : Type) where
  slots : Slots
  world : σ
  runs : List AdmissionRun

namespace Admissions

variable {σ : Type} (serve : (request : Request) → σ → request.Answer × σ)

/-- Nothing is being admitted. -/
def idle (world : σ) : Admissions σ := ⟨.empty, world, []⟩

/-- Adds a run that is about to arrive. -/
def enqueue (a : Admissions σ) (message : Message) (claimed : Option OwnerKey) : Admissions σ :=
  { a with runs := a.runs ++ [⟨message, claimed, .arriving⟩] }

/-- Moves run `i` to a phase. -/
def setPhase (a : Admissions σ) (i : Nat) (phase : AdmissionPhase) : Admissions σ :=
  { a with runs := a.runs.modify i fun run => { run with phase } }

/-- Run `i` takes one step, with requests served from the surroundings. A run that waits for an
occupied slot, and a finished one, stays as it is. -/
def step (i : Nat) (a : Admissions σ) : Admissions σ :=
  match a.runs[i]? with
  | none => a
  | some run =>
    match run.phase with
    | .arriving =>
      let (slot, slots) := a.slots.take run.message.outpoint
      { a with slots }.setPhase i (.waiting slot)
    | .waiting slot =>
      if a.slots.occupied.contains slot then a
      else
        { a with slots := a.slots.enter slot }.setPhase i
          (.inside slot (Admission.decide run.message run.claimed))
    | .inside slot (.ask request next) =>
      let (answer, world) := serve request a.world
      { a with world }.setPhase i (.inside slot (next answer))
    | .inside slot (.done result) =>
      { a with slots := a.slots.leave slot }.setPhase i (.leaving result)
    | .leaving result =>
      { a with slots := a.slots.tidy run.message.outpoint }.setPhase i (.finished result)
    | .finished _ => a

/-- Takes a sequence of steps, each by the run that is named. -/
def steps (schedule : List Nat) (a : Admissions σ) : Admissions σ :=
  schedule.foldl (fun a i => a.step serve i) a

end Admissions

/-- Decides a message with no other run in its way: through its slot, from arriving to tidying
up. -/
def Admission.decideAlone {σ : Type} (serve : (request : Request) → σ → request.Answer × σ)
    (message : Message) (claimed : Option OwnerKey) (slots : Slots) (world : σ) :
    Except Rejection Admission × Slots × σ :=
  let (slot, slots) := slots.take message.outpoint
  let slots := slots.enter slot
  let (result, world) := (Admission.decide message claimed).run serve world
  (result, (slots.leave slot).tidy message.outpoint, world)

end ChatRelay
