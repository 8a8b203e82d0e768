import SerialAdapter.Board

/-! The hardware's side of the adapter: what a controller does to its ring, and how it makes itself
heard. Nothing here shows an action, because the driver does not see it happen. -/
namespace SerialAdapter.Controller

variable {c n size : Nat}

def slot? (i : Nat) (d : Direction) (ring : SlotRing n size) (r : Registers) : Option Nat :=
  ring.slotAt? (r.peek32 (Register.current i d))

def complete (k : Nat) (frame : Bytes) (length : UInt16) (status : UInt8)
    (ring : SlotRing n size) : SlotRing n size :=
  ring.modifySlot k (·.complete frame length status)

def moveOn (i : Nat) (d : Direction) (k : Nat) (ring : SlotRing n size) (r : Registers) :
    Registers :=
  r.poke32 (Register.current i d) (ring.slot k).descriptor.chain

def receive (i : Nat) (frame : Bytes) (length : UInt16) (status : UInt8)
    (ring : SlotRing n size) (r : Registers) : Option (Nat × SlotRing n size × Registers) := do
  let k ← slot? i .receive ring r
  let ring := complete k frame length status ring
  return (k, ring, moveOn i .receive k ring r)

def transmit (i : Nat) (ring : SlotRing n size) (r : Registers) :
    Option (Nat × Slot size × Registers) := do
  let k ← slot? i .transmit ring r
  return (k, ring.slot k, moveOn i .transmit k ring r)

/-- Sends one slot after the other, whether or not they are armed. Where the controller does not
stand at a slot it sends nothing more, and no record is left. -/
def transmitMany (i : Nat) (ring : SlotRing n size) :
    Nat → Registers → Option (List (Nat × Slot size)) × Registers
  | 0, r => (some [], r)
  | count + 1, r =>
    match transmit i ring r with
    | none => (none, r)
    | some (k, s, r) =>
      let (rest, r) := transmitMany i ring count r
      (rest.map ((k, s) :: ·), r)

def interrupt (i : Nat) (bits : UInt8) (r : Registers) : Registers :=
  let r := r.poke8 (Register.interrupts i) (r.peek8 (Register.interrupts i) ||| bits)
  r.poke8 Register.boardInterrupts
    (r.peek8 Register.boardInterrupts ||| ((1 : UInt8) <<< UInt8.ofNat i))

def setStatus (i : Nat) (d : Direction) (status : UInt8) (r : Registers) : Registers :=
  r.poke8 (Register.status i d) status

def report (i : Nat) (d : Direction) (status : UInt8) (quiet : Bool) (r : Registers) :
    Registers :=
  let r := setStatus i d status r
  if quiet then r else interrupt i (match d with | .receive => 1 | .transmit => 2) r

def setCurrent (i : Nat) (d : Direction) (a : UInt32) (r : Registers) : Registers :=
  r.poke32 (Register.current i d) a

def setModem (i : Nat) (signals : ModemSignals) (r : Registers) : Registers :=
  r.poke8 (Register.modem i) signals.toByte

def setLineStatus (i : Nat) (status : UInt8) (r : Registers) : Registers :=
  r.poke8 (Register.lineStatus i) status

structure LineCounts where
  bipolar : UInt16 := 0
  crc : UInt16 := 0
  frameSync : UInt16 := 0
  remoteCrc : UInt16 := 0
  deriving DecidableEq, Repr

def loadLine (i : Nat) (counts : LineCounts) (r : Registers) : Registers :=
  (((r.poke16 (Register.bipolar i) counts.bipolar).poke16 (Register.crc i) counts.crc).poke16
    (Register.frameSync i) counts.frameSync).poke16 (Register.remoteCrc i) counts.remoteCrc

def ring? (b : Board c n size) (i : Nat) (d : Direction) : Option (SlotRing n size) :=
  if b.initialized then b.channels[i]?.map (·.rings.ring d) else none

def withRing (b : Board c n size) (i : Nat) (d : Direction) (ring : SlotRing n size) :
    Board c n size :=
  { b with channels := ⟨b.channels.toArray.modify i fun ch =>
      { ch with rings := ch.rings.withRing d ring }, by simp⟩ }

end SerialAdapter.Controller
