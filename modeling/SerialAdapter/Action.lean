import SerialAdapter.Setup
import SerialAdapter.Status

/-! Everything an observer of the adapter sees, in one order: register accesses, waits, events for
the application, notices for the log, and remarks that a hook made about itself. An operation on a
state leaves an answer, the next state, and the actions seen, oldest first; one after the other,
their actions are joined in that order. -/
namespace SerialAdapter

abbrev Bytes := List UInt8

inductive Access where
  | read8 (offset : UInt16) (value : UInt8)
  | write8 (offset : UInt16) (value : UInt8)
  | read16 (offset : UInt16) (value : UInt16)
  | write16 (offset : UInt16) (value : UInt16)
  deriving DecidableEq, Repr

def Access.written? : Access → Option (UInt16 × UInt16)
  | .write8 offset value => some (offset, value.toUInt16)
  | .write16 offset value => some (offset, value)
  | .read8 .. | .read16 .. => none

inductive EventKind where
  | received
  | sent
  | failed
  | modemChanged
  deriving DecidableEq, Repr

inductive Event where
  | received (channel : Nat) (payload : Bytes)
  | sent (channel : Nat) (tag : UInt64) (length : Nat)
  | failed (channel : Nat) (error : ChannelError)
  | modemChanged (channel : Nat) (signals : ModemSignals)
  deriving DecidableEq, Repr

namespace Event

def kind : Event → EventKind
  | .received .. => .received
  | .sent .. => .sent
  | .failed .. => .failed
  | .modemChanged .. => .modemChanged

def channel : Event → Nat
  | .received i _ | .sent i _ _ | .failed i _ | .modemChanged i _ => i

end Event

inductive Level where
  | debug
  | info
  | warn
  deriving DecidableEq, Repr

def Level.name : Level → String
  | .debug => "debug"
  | .info => "info"
  | .warn => "warn"

inductive Notice where
  | boardReady (channels slots bufferSize : Nat)
  | enabled (channel : Nat) (direction : Direction) (on : Bool)
  | cleared (scope : ClearScope)
  | ringFault (channel : Nat) (status : DmaStatus)
  | receiveError (channel : Nat) (error : ChannelError) (status : DescriptorStatus)
  | underrun (channel : Nat)
  | framesSent (channel count : Nat)
  | intervalClosed (kept : Nat)
  deriving DecidableEq, Repr

def Direction.name : Direction → String
  | .receive => "Receive"
  | .transmit => "Transmit"

def ClearScope.name : ClearScope → String
  | .channel i => "Channel(" ++ toString i ++ ")"
  | .line i => "Line(" ++ toString i ++ ")"
  | .board => "Board"

namespace Notice

def level : Notice → Level
  | .boardReady .. => .info
  | .enabled .. | .cleared .. | .framesSent .. | .intervalClosed .. => .debug
  | .ringFault .. | .receiveError .. | .underrun .. => .warn

def onChannel (i : Nat) (text : String) : String := "channel " ++ toString i ++ ": " ++ text

def text : Notice → String
  | .boardReady channels slots bufferSize =>
    "board initialized: " ++ toString channels ++ " channels, " ++ toString slots ++ " slots x " ++
      toString bufferSize ++ " bytes per ring"
  | .enabled i direction on =>
    onChannel i (direction.name ++ " enabled=" ++ (if on then "true" else "false"))
  | .cleared scope => "statistics cleared: " ++ scope.name
  | .ringFault i status =>
    onChannel i ("receive ring fault (dsr=0x" ++ Bits.hex status.toByte ++ "), restarting ring")
  | .receiveError i error status =>
    onChannel i
      ("receive error " ++ error.message ++ " (status=0x" ++ Bits.hex status.toByte ++ ")")
  | .underrun i => onChannel i "transmit underrun"
  | .framesSent i count => onChannel i (toString count ++ " frames sent")
  | .intervalClosed kept =>
    "telemetry interval closed, " ++ toString kept ++ " intervals in history"

end Notice

inductive Action where
  | access (access : Access)
  | wait (micros : Nat)
  | event (event : Event)
  | notice (notice : Notice)
  | remark (text : String)
  deriving DecidableEq, Repr

namespace Action

def event? : Action → Option Event
  | .event e => some e
  | _ => none

def access? : Action → Option Access
  | .access a => some a
  | _ => none

end Action

def events (seen : List Action) : List Event := seen.filterMap Action.event?

def accesses (seen : List Action) : List Access := seen.filterMap Action.access?

structure Outcome (σ α : Type) where
  answer : α
  state : σ
  seen : List Action

def Operation (σ α : Type) : Type := σ → Outcome σ α

namespace Operation

variable {σ τ α β : Type}

protected def pure (a : α) : Operation σ α := fun s => ⟨a, s, []⟩

protected def bind (op : Operation σ α) (next : α → Operation σ β) : Operation σ β := fun s =>
  let first := op s
  let second := next first.answer first.state
  ⟨second.answer, second.state, first.seen ++ second.seen⟩

instance : Monad (Operation σ) where
  pure := Operation.pure
  bind := Operation.bind

@[simp] theorem pureApply (a : α) (s : σ) : (pure a : Operation σ α) s = ⟨a, s, []⟩ := rfl

@[simp] theorem bindApply (op : Operation σ α) (next : α → Operation σ β) (s : σ) :
    (op >>= next) s =
      ⟨(next (op s).answer (op s).state).answer, (next (op s).answer (op s).state).state,
        (op s).seen ++ (next (op s).answer (op s).state).seen⟩ := rfl

def emit (actions : List Action) : Operation σ Unit := fun s => ⟨(), s, actions⟩

def notify (n : Notice) : Operation σ Unit := emit [.notice n]

def raise (e : Event) : Operation σ Unit := emit [.event e]

end Operation

end SerialAdapter
