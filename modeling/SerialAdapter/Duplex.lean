import SerialAdapter.Registers
import SerialAdapter.Setup
import SerialAdapter.SlotRing

/-! The data path of a channel: a receive ring and a transmit ring with the controllers that walk
them. A controller starts at its current address and stops at its stop address; slots are handed
over by moving the stop address forward. The traffic counters are words that wrap. -/
namespace SerialAdapter

structure DirectionCounters where
  interrupts : UInt32 := 0
  bytes : UInt64 := 0
  packets : UInt32 := 0
  errors : UInt32 := 0
  deriving DecidableEq, Repr

def DirectionCounters.countFrame (c : DirectionCounters) (length : Nat) : DirectionCounters :=
  { c with packets := c.packets + 1, bytes := c.bytes + UInt64.ofNat length }

def DirectionCounters.countInterrupt (c : DirectionCounters) : DirectionCounters :=
  { c with interrupts := c.interrupts + 1 }

def DirectionCounters.countError (c : DirectionCounters) : DirectionCounters :=
  { c with errors := c.errors + 1 }

structure Traffic where
  receive : DirectionCounters := {}
  transmit : DirectionCounters := {}
  framing : UInt32 := 0
  checksum : UInt32 := 0
  overrun : UInt32 := 0
  overflow : UInt32 := 0
  underrun : UInt32 := 0
  deriving DecidableEq, Repr

namespace Traffic

def clear : Traffic := {}

def countFrame (t : Traffic) (d : Direction) (length : Nat) : Traffic :=
  match d with
  | .receive => { t with receive := t.receive.countFrame length }
  | .transmit => { t with transmit := t.transmit.countFrame length }

def countInterrupt (t : Traffic) (d : Direction) : Traffic :=
  match d with
  | .receive => { t with receive := t.receive.countInterrupt }
  | .transmit => { t with transmit := t.transmit.countInterrupt }

def countError (t : Traffic) (e : ChannelError) : Traffic :=
  match e with
  | .framing => { t with framing := t.framing + 1, receive := t.receive.countError }
  | .checksum => { t with checksum := t.checksum + 1, receive := t.receive.countError }
  | .overrun => { t with overrun := t.overrun + 1, receive := t.receive.countError }
  | .overflow => { t with overflow := t.overflow + 1, receive := t.receive.countError }
  | .underrun => { t with underrun := t.underrun + 1, transmit := t.transmit.countError }

end Traffic

namespace Dma

open Register Registers

def currentAddress (i : Nat) (d : Direction) : Operation Registers UInt32 := read32 (current i d)

def setCurrent (i : Nat) (d : Direction) (a : UInt32) : Operation Registers Unit :=
  write32 (current i d) a

def setStop (i : Nat) (d : Direction) (a : UInt32) : Operation Registers Unit :=
  write32 (Register.stop i d) a

def setBufferLength (i : Nat) (d : Direction) (length : UInt16) : Operation Registers Unit :=
  write16 (bufferLength i d) length

def readStatus (i : Nat) (d : Direction) : Operation Registers DmaStatus := do
  let byte ← read8 (status i d)
  return .ofByte byte

def acknowledge (i : Nat) (d : Direction) (s : DmaStatus) : Operation Registers Unit :=
  write8 (status i d) s.events

def start (i : Nat) (d : Direction) : Operation Registers Unit :=
  write8 (command i d) startCommand

def abort (i : Nat) (d : Direction) : Operation Registers Unit :=
  write8 (command i d) abortCommand

def setInterrupts (i : Nat) (d : Direction) (on : Bool) : Operation Registers Unit :=
  write8 (interruptEnable i d) (if on then interruptsOn else 0)

end Dma

structure Duplex (n size : Nat) where
  receive : SlotRing n size := {}
  transmit : SlotRing n size := {}

namespace Duplex

variable {n size : Nat}

def memoryUse (n size : Nat) : Nat := 2 * n * (Limits.descriptorSize + size)

def ring (x : Duplex n size) : Direction → SlotRing n size
  | .receive => x.receive
  | .transmit => x.transmit

def withRing (x : Duplex n size) (d : Direction) (r : SlotRing n size) : Duplex n size :=
  match d with
  | .receive => { x with receive := r }
  | .transmit => { x with transmit := r }

def layout (x : Duplex n size) (place : Direction → Placement) : Duplex n size where
  receive := x.receive.layout (place .receive)
  transmit := x.transmit.layout (place .transmit)

def startReceive (i : Nat) (x : Duplex n size) : Operation Registers (Duplex n size) := do
  let r := x.receive.reset.fill
  Dma.abort i .receive
  Dma.setBufferLength i .receive (UInt16.ofNat size)
  Dma.setCurrent i .receive (r.address 0)
  Dma.setStop i .receive (r.address r.next)
  Dma.acknowledge i .receive .all
  Dma.setInterrupts i .receive true
  Dma.start i .receive
  return x.withRing .receive r

def startTransmit (i : Nat) (x : Duplex n size) : Operation Registers (Duplex n size) := do
  let r := x.transmit.reset
  Dma.abort i .transmit
  Dma.setCurrent i .transmit (r.address 0)
  Dma.setStop i .transmit (r.address 0)
  Dma.acknowledge i .transmit .all
  Dma.setInterrupts i .transmit true
  Dma.start i .transmit
  return x.withRing .transmit r

def start (i : Nat) (d : Direction) (x : Duplex n size) : Operation Registers (Duplex n size) :=
  match d with
  | .receive => startReceive i x
  | .transmit => startTransmit i x

def stop (i : Nat) (d : Direction) (x : Duplex n size) : Operation Registers (Duplex n size) := do
  Dma.abort i d
  Dma.setInterrupts i d false
  Dma.acknowledge i d .all
  return x.withRing d (x.ring d).reset

def send (i : Nat) (x : Duplex n size) (data : Option Bytes) (length : Nat) (tag : UInt64) :
    Operation Registers (Except SendError Nat × Duplex n size) :=
  match x.transmit.enqueue data length tag with
  | .error error => pure (.error error, x)
  | .ok (slot, r) => do
    Dma.setStop i .transmit (r.address r.next)
    Dma.start i .transmit
    return (.ok slot, x.withRing .transmit r)

end Duplex

def Reception.actions (i : Nat) (r : Reception) : List Action :=
  match r.result with
  | .ok payload => [.event (.received i payload)]
  | .error error => [.notice (.receiveError i error r.status), .event (.failed i error)]

def Reception.count (t : Traffic) (r : Reception) : Traffic :=
  match r.result with
  | .ok payload => t.countFrame .receive payload.length
  | .error error => t.countError error

def Transmission.actions (i : Nat) (s : Transmission) : List Action :=
  match s.tag with
  | some tag => [.event (.sent i tag s.length)]
  | none => []

def Transmission.count (t : Traffic) (s : Transmission) : Traffic := t.countFrame .transmit s.length

namespace Duplex

variable {n size : Nat}

/-- Answers the receive controller's interrupt. After a ring fault the ring is started anew and
what it held is lost; otherwise every finished slot is reported and handed back empty. -/
def serviceReceive (i : Nat) (x : Duplex n size) (t : Traffic) :
    Operation Registers (Duplex n size × Traffic) := do
  let status ← Dma.readStatus i .receive
  Dma.acknowledge i .receive status
  let t := t.countInterrupt .receive
  if status.ringFault then
    Operation.notify (.ringFault i status)
    Operation.raise (.failed i .overflow)
    let x ← startReceive i x
    return (x, t.countError .overflow)
  else
    let current ← Dma.currentAddress i .receive
    let done := x.receive.completed current
    let (receptions, r) := x.receive.collect done
    Operation.emit (receptions.flatMap (Reception.actions i))
    if 0 < done then
      Dma.setStop i .receive (r.address r.next)
      Dma.start i .receive
    return (x.withRing .receive r, receptions.foldl Reception.count t)

def serviceTransmit (i : Nat) (x : Duplex n size) (t : Traffic) :
    Operation Registers (Duplex n size × Traffic) := do
  let status ← Dma.readStatus i .transmit
  Dma.acknowledge i .transmit status
  let t := t.countInterrupt .transmit
  let t := if status.chainOverflow then t.countError .underrun else t
  if status.chainOverflow then
    Operation.notify (.underrun i)
    Operation.raise (.failed i .underrun)
  let current ← Dma.currentAddress i .transmit
  let done := x.transmit.completed current
  let (transmissions, r) := x.transmit.drain done
  Operation.emit (transmissions.flatMap (Transmission.actions i))
  if 0 < done then
    Operation.notify (.framesSent i done)
  return (x.withRing .transmit r, transmissions.foldl Transmission.count t)

end Duplex

end SerialAdapter
