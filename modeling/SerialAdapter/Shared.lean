import SerialAdapter.Batch
import SerialAdapter.Board

/-! The board behind a lock, with the hooks behind another. A channel is serviced with the board
locked, into a batch; the hooks hear the batch after the lock is released, so they may call the
board again, the interrupt handler included. A lock is not re-entrant: to reach for one that is held
is a fault. It is released when its holder is done, whatever the holder answers. -/
namespace SerialAdapter

structure Lock (α : Type) where
  value : α
  held : Bool := false
  deriving DecidableEq, Repr

namespace Lock

variable {α β : Type}

def hold? (l : Lock α) (body : Lock α → β × Lock α) : Option (β × Lock α) :=
  if l.held then none
  else
    let (answer, after) := body { l with held := true }
    some (answer, { after with held := false })

def read? (l : Lock α) : Option α := if l.held then none else some l.value

def replace? (l : Lock α) (value : α) : Option (α × Lock α) :=
  if l.held then none else some (l.value, { l with value := value })

end Lock

inductive SharedFault where
  | heldLock
  | nestedTooDeep
  deriving DecidableEq, Repr

structure Shared (c n size : Nat) where
  board : Lock (Board c n size)
  hooks : Lock Hooks := ⟨{}, false⟩

def Session (c n size : Nat) (α : Type) : Type :=
  Shared c n size → Except SharedFault (Outcome (Shared c n size) α)

namespace Session

variable {c n size : Nat} {α β : Type}

protected def pure (a : α) : Session c n size α := fun s => .ok ⟨a, s, []⟩

protected def bind (first : Session c n size α) (next : α → Session c n size β) :
    Session c n size β := fun s =>
  match first s with
  | .error fault => .error fault
  | .ok one =>
    match next one.answer one.state with
    | .error fault => .error fault
    | .ok two => .ok ⟨two.answer, two.state, one.seen ++ two.seen⟩

instance : Monad (Session c n size) where
  pure := Session.pure
  bind := Session.bind

def emit (seen : List Action) : Session c n size Unit := fun s => .ok ⟨(), s, seen⟩

def fail (fault : SharedFault) : Session c n size α := fun _ => .error fault

end Session

namespace Shared

variable {c n size : Nat} {α : Type}

def new (registers : Registers) : Shared c n size where
  board := ⟨{ registers := registers }, false⟩

def locked (op : Operation (Board c n size) α) : Session c n size α := fun s =>
  match s.board.hold? fun l =>
    let done := op l.value
    (done, { l with value := done.state }) with
  | none => .error .heldLock
  | some (done, board) => .ok ⟨done.answer, { s with board := board }, done.seen⟩

def readHooks : Session c n size Hooks := fun s =>
  match s.hooks.read? with
  | none => .error .heldLock
  | some table => .ok ⟨table, s, []⟩

def setHooks (table : Hooks) : Session c n size Unit := fun s =>
  match s.hooks.replace? table with
  | none => .error .heldLock
  | some (_, hooks) => .ok ⟨(), { s with hooks := hooks }, []⟩

def setHook (k : EventKind) (hook : Option Hook) : Session c n size Unit := fun s =>
  match s.hooks.hold? fun l => ((), { l with value := l.value.set k hook }) with
  | none => .error .heldLock
  | some (_, hooks) => .ok ⟨(), { s with hooks := hooks }, []⟩

def tick : Session c n size Unit := locked Board.tick

def send (i : Nat) (data : Bytes) (tag : UInt64) : Session c n size (Except SendError Unit) :=
  locked (Board.send i data tag)

def freeSlots (i : Nat) (d : Direction) : Session c n size (Except ConfigError Nat) :=
  locked fun b => ⟨b.freeSlots i d, b, []⟩

def run (interrupt : Session c n size UInt8) : Program → Session c n size Unit
  | .done => pure ()
  | .remark text next => do
    Session.emit [.remark text]
    run interrupt next
  | .send i data tag next => do
    let answer ← send i data tag
    run interrupt (next answer)
  | .enable i d on next => do
    let answer ← locked (Board.enable i d on)
    run interrupt (next answer)
  | .clear scope next => do
    let answer ← locked (Board.clearStatistics scope)
    run interrupt (next answer)
  | .freeSlots i d next => do
    let answer ← freeSlots i d
    run interrupt (next answer)
  | .tick next => do
    tick
    run interrupt next
  | .interrupt next => do
    let pending ← interrupt
    run interrupt (next pending)
  | .setHook k hook next => do
    setHook k hook
    run interrupt next
  | .setHooks table next => do
    setHooks table
    run interrupt next

def serviceBatch (i : Nat) : Operation (Board c n size) (Except ConfigError (Batch n size)) :=
  fun b =>
    let done := Board.serviceChannel i b
    ⟨done.answer.map fun _ => Batch.recordAll { channel := i } (events done.seen), done.state,
      done.seen.filter (·.event?.isNone)⟩

def deliver (interrupt : Session c n size UInt8) (es : List Event) : Session c n size Unit := do
  let table ← readHooks
  List.forM (table.heard es) fun h => run interrupt (h.1 h.2)

def serviceAndDeliver (interrupt : Session c n size UInt8) (i : Fin c) :
    Session c n size Unit := do
  let serviced ← locked (serviceBatch i)
  match serviced with
  | .error _ => pure ()
  | .ok batch => if batch.isEmpty then pure () else deliver interrupt batch.events

/-- The interrupt handler: services every pending channel, lowest first, and answers which they
were. Hooks may re-enter it up to `depth` times inside each other. -/
def handleInterrupt : (depth : Nat) → Session c n size UInt8
  | 0 => Session.fail .nestedTooDeep
  | depth + 1 => do
    let pending ← locked Board.takePending
    List.forM (Board.pendingChannels c pending) (serviceAndDeliver (handleInterrupt depth))
    return pending

end Shared

end SerialAdapter
