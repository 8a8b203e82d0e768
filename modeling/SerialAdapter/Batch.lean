import SerialAdapter.Action
import SerialAdapter.SlotRing

/-! Hooks of the application, and the events of one service kept for them until the board's lock is
released. A hook is a finite program of calls on the shared board; each call's answer decides how
it goes on. A batch has room for `n` receive records of at most `size` bytes and for `n` finished
frames; what does not fit is dropped. It is replayed as reception, one underrun, finished frames,
modem change. In memory it lies in arrays of `n` with counts of the places in use: a record and the
buffer of the same number belong together, and what lies beyond a count is not read. -/
namespace SerialAdapter

structure HookTable (hook : Type) where
  received : Option hook := none
  sent : Option hook := none
  failed : Option hook := none
  modemChanged : Option hook := none

namespace HookTable

variable {hook : Type}

def get (t : HookTable hook) : EventKind → Option hook
  | .received => t.received
  | .sent => t.sent
  | .failed => t.failed
  | .modemChanged => t.modemChanged

def set (t : HookTable hook) (k : EventKind) (h : Option hook) : HookTable hook :=
  match k with
  | .received => { t with received := h }
  | .sent => { t with sent := h }
  | .failed => { t with failed := h }
  | .modemChanged => { t with modemChanged := h }

def heard (t : HookTable hook) (es : List Event) : List (hook × Event) :=
  es.filterMap fun e => (t.get e.kind).map (·, e)

end HookTable

inductive Program where
  | done
  | remark (text : String) (next : Program)
  | send (channel : Nat) (data : Bytes) (tag : UInt64) (next : Except SendError Unit → Program)
  | enable (channel : Nat) (direction : Direction) (on : Bool)
      (next : Except ConfigError Unit → Program)
  | clear (scope : ClearScope) (next : Except ConfigError Unit → Program)
  | freeSlots (channel : Nat) (direction : Direction) (next : Except ConfigError Nat → Program)
  | tick (next : Program)
  | interrupt (next : UInt8 → Program)
  | setHook (kind : EventKind) (hook : Option (Event → Program)) (next : Program)
  | setHooks (table : HookTable (Event → Program)) (next : Program)

abbrev Hook := Event → Program

abbrev Hooks := HookTable Hook

inductive ReceiveRecord where
  | frame (payload : Bytes)
  | error (error : ChannelError)
  deriving DecidableEq, Repr

def ReceiveRecord.event (channel : Nat) : ReceiveRecord → Event
  | .frame payload => .received channel payload
  | .error cause => .failed channel cause

structure Batch (n size : Nat) where
  channel : Nat
  received : List ReceiveRecord := []
  underrun : Bool := false
  sent : List (UInt64 × Nat) := []
  modem : Option ModemSignals := none
  deriving DecidableEq, Repr

namespace Batch

variable {n size : Nat}

def push {α : Type} (n : Nat) (kept : List α) (a : α) : List α :=
  if kept.length < n then kept ++ [a] else kept

def record (b : Batch n size) : Event → Batch n size
  | .received _ payload => { b with received := push n b.received (.frame (payload.take size)) }
  | .sent _ tag length => { b with sent := push n b.sent (tag, length) }
  | .failed _ .underrun => { b with underrun := true }
  | .failed _ error => { b with received := push n b.received (.error error) }
  | .modemChanged _ signals => { b with modem := some signals }

def recordAll (b : Batch n size) (es : List Event) : Batch n size := es.foldl record b

def isEmpty (b : Batch n size) : Bool :=
  b.received.isEmpty && !b.underrun && b.sent.isEmpty && b.modem.isNone

def events (b : Batch n size) : List Event :=
  b.received.map (ReceiveRecord.event b.channel) ++
    (if b.underrun then [.failed b.channel .underrun] else []) ++
    b.sent.map (fun s => .sent b.channel s.1 s.2) ++
    (b.modem.map (Event.modemChanged b.channel)).toList

end Batch

inductive StoredRecord where
  | frame (length : Nat)
  | error (error : ChannelError)
  deriving DecidableEq, Repr

structure BatchStore (n size : Nat) where
  channel : Nat
  records : Vector StoredRecord n := Vector.replicate n (.frame 0)
  payloads : Vector (Buffer size) n := Vector.replicate n .blank
  receiveCount : Nat := 0
  underrun : Bool := false
  sent : Vector (UInt64 × Nat) n := Vector.replicate n (0, 0)
  sentCount : Nat := 0
  modem : Option ModemSignals := none
  deriving DecidableEq, Repr

def StoredRecord.event {size : Nat} (channel : Nat) : StoredRecord × Buffer size → Event
  | (.frame length, payload) => .received channel (payload.toList.take length)
  | (.error cause, _) => .failed channel cause

namespace BatchStore

variable {n size : Nat}

def pushReceive (r : StoredRecord) (s : BatchStore n size) : Option (Fin n) × BatchStore n size :=
  if h : s.receiveCount < n then
    (some ⟨s.receiveCount, h⟩,
      { s with
        records := s.records.set s.receiveCount r
        receiveCount := s.receiveCount + 1 })
  else (none, s)

def copyPayload (k : Fin n) (data : Bytes) (s : BatchStore n size) : BatchStore n size :=
  { s with payloads := s.payloads.set k ((s.payloads.get k).overwrite data) k.isLt }

def record (s : BatchStore n size) : Event → BatchStore n size
  | .received _ data =>
    let length := min data.length size
    match s.pushReceive (.frame length) with
    | (some k, s) => s.copyPayload k (data.take length)
    | (none, s) => s
  | .sent _ tag length =>
    if h : s.sentCount < n then
      { s with sent := s.sent.set s.sentCount (tag, length), sentCount := s.sentCount + 1 }
    else s
  | .failed _ .underrun => { s with underrun := true }
  | .failed _ error => (s.pushReceive (.error error)).2
  | .modemChanged _ signals => { s with modem := some signals }

def isEmpty (s : BatchStore n size) : Bool :=
  s.receiveCount == 0 && !s.underrun && s.sentCount == 0 && s.modem.isNone

def receiveInUse (s : BatchStore n size) : List (StoredRecord × Buffer size) :=
  (s.records.toList.take s.receiveCount).zip (s.payloads.toList.take s.receiveCount)

def sentInUse (s : BatchStore n size) : List (UInt64 × Nat) := s.sent.toList.take s.sentCount

def dispatch (s : BatchStore n size) : List Event :=
  s.receiveInUse.map (StoredRecord.event s.channel) ++
    (if s.underrun then [.failed s.channel .underrun] else []) ++
    s.sentInUse.map (fun f => .sent s.channel f.1 f.2) ++
    (s.modem.map (Event.modemChanged s.channel)).toList

end BatchStore

end SerialAdapter
