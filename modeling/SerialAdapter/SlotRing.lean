import SerialAdapter.Action

/-! A ring of `n` slots with buffers of `size` bytes. Slots from `oldest` up to `next` belong to
the controller or wait to be reported; at least one slot is always free, so that equal indices
mean an empty ring. Slot numbers count round the ring, and a slot has a bus address in the
descriptor table that starts at `base`. A slot is the descriptor that the controller reads and
writes, its buffer, and the tag of the frame it holds for the application. -/
namespace SerialAdapter

structure Descriptor where
  chain : UInt32 := 0
  buffer : UInt32 := 0
  length : UInt16 := 0
  status : UInt8 := 0
  deriving DecidableEq, Repr

namespace Descriptor

def reset (d : Descriptor) : Descriptor := { d with length := 0, status := 0 }

def arm (d : Descriptor) : Option UInt16 → Descriptor
  | some length => { d with length := length, status := DescriptorStatus.endOfFrameByte }
  | none => d.reset

def link (buffer chain : UInt32) : Descriptor := { chain := chain, buffer := buffer }

def complete (d : Descriptor) (length : UInt16) (status : UInt8) : Descriptor :=
  { d with length := length, status := status }

end Descriptor

abbrev Buffer (size : Nat) := Vector UInt8 size

namespace Buffer

variable {size : Nat}

def blank : Buffer size := Vector.replicate size 0

def overwrite (b : Buffer size) (data : Bytes) : Buffer size :=
  ⟨((data ++ b.toList.drop data.length).take size).toArray, by simp; omega⟩

theorem toListOverwrite (b : Buffer size) (data : Bytes) :
    (b.overwrite data).toList = (data ++ b.toList.drop data.length).take size := rfl

end Buffer

structure Slot (size : Nat) where
  descriptor : Descriptor := {}
  buffer : Buffer size := Buffer.blank
  tag : Option UInt64 := none

namespace Slot

variable {size : Nat}

def reset (s : Slot size) : Slot size := { s with descriptor := s.descriptor.reset }

def release (s : Slot size) : Slot size := { s.reset with tag := none }

def arm (s : Slot size) (length : Option UInt16) : Slot size :=
  { s with descriptor := s.descriptor.arm length }

def load (s : Slot size) (data : Option Bytes) (length : Nat) (tag : UInt64) : Slot size where
  descriptor := s.descriptor.arm (some (UInt16.ofNat length))
  buffer := match data with
    | some bytes => s.buffer.overwrite (bytes.take length)
    | none => s.buffer
  tag := some tag

def complete (s : Slot size) (data : Bytes) (length : UInt16) (status : UInt8) : Slot size :=
  { s with buffer := s.buffer.overwrite data, descriptor := s.descriptor.complete length status }

def bytes (s : Slot size) (length : Nat) : Bytes := s.buffer.toList.take length

end Slot

def untranslated (a : UInt64) : UInt32 := a.toUInt32

structure Placement where
  table : UInt32
  buffer : Nat → UInt32

def Placement.regular (base stride n : Nat) (i : Nat) (d : Direction) : Placement :=
  let first := (i * 2 + (match d with | .receive => 0 | .transmit => 1)) * (n + 1)
  { table := UInt32.ofNat (base + first * stride)
    buffer := fun k => UInt32.ofNat (base + (first + 1 + k) * stride) }

structure SlotRing (n size : Nat) where
  slots : Vector (Slot size) n := Vector.replicate n {}
  oldest : Nat := 0
  next : Nat := 0
  base : UInt32 := 0

namespace SlotRing

variable {n size : Nat}

def slot (r : SlotRing n size) (i : Nat) : Slot size :=
  if h : i % n < n then r.slots[i % n] else {}

def modifySlot (r : SlotRing n size) (i : Nat) (change : Slot size → Slot size) :
    SlotRing n size :=
  { r with slots := ⟨r.slots.toArray.modify (i % n) change, by simp⟩ }

def after (n i : Nat) : Nat := (i + 1) % n

def capacity (_ : SlotRing n size) : Nat := n - 1

def free (r : SlotRing n size) : Nat := (n + r.oldest - r.next - 1) % n

def inFlight (r : SlotRing n size) : Nat := (n + r.next - r.oldest) % n

def address (r : SlotRing n size) (i : Nat) : UInt32 :=
  r.base + UInt32.ofNat (i % n * Limits.descriptorSize)

def slotAt? (r : SlotRing n size) (a : UInt32) : Option Nat :=
  let offset := (a - r.base).toNat
  if offset % Limits.descriptorSize = 0 ∧ offset / Limits.descriptorSize < n then
    some (offset / Limits.descriptorSize)
  else none

/-- How many slots the controller has finished when it stands at an address. An address that is no
descriptor of this ring finishes none, and never more are finished than were in flight. -/
def completed (r : SlotRing n size) (current : UInt32) : Nat :=
  match r.slotAt? current with
  | some i => min ((n + i - r.oldest) % n) r.inFlight
  | none => 0

def reset (r : SlotRing n size) : SlotRing n size :=
  { r with slots := r.slots.map Slot.release, oldest := 0, next := 0 }

def layout (r : SlotRing n size) (place : Placement) : SlotRing n size :=
  let placed := { r with base := place.table }
  let slots := r.slots.mapIdx fun i s =>
    { s with descriptor := .link (place.buffer i) (placed.address (after n i)) }
  { placed with slots := slots }.reset

def arm (r : SlotRing n size) (i : Nat) (length : Option UInt16) : SlotRing n size :=
  r.modifySlot i (·.arm length)

def advance (r : SlotRing n size) : SlotRing n size := { r with oldest := after n r.oldest }

def extend (r : SlotRing n size) : SlotRing n size := { r with next := after n r.next }

def enqueue (r : SlotRing n size) (data : Option Bytes) (length : Nat) (tag : UInt64) :
    Except SendError (Nat × SlotRing n size) :=
  if size < length then .error .frameTooLarge
  else if r.free = 0 then .error .ringFull
  else .ok (r.next, (r.modifySlot r.next (·.load data length tag)).extend)

def armNext (r : SlotRing n size) : SlotRing n size := (r.arm r.next none).extend

def fillWithin : Nat → SlotRing n size → SlotRing n size
  | 0, r => r
  | rounds + 1, r => if r.free = 0 then r else fillWithin rounds r.armNext

def fill (r : SlotRing n size) : SlotRing n size := fillWithin n r

def recycle (r : SlotRing n size) : SlotRing n size :=
  (r.modifySlot r.oldest Slot.reset).armNext.advance

def nextBuffer? (r : SlotRing n size) : Option (Buffer size) :=
  if r.free = 0 then none else some (r.slot r.next).buffer

def prepare (r : SlotRing n size) (data : Bytes) : Option Nat × SlotRing n size :=
  if r.free = 0 then (none, r)
  else
    (some (min data.length size),
      r.modifySlot r.next fun s => { s with buffer := s.buffer.overwrite data })

def takeTag (r : SlotRing n size) (i : Nat) : Option UInt64 × SlotRing n size :=
  ((r.slot i).tag, r.modifySlot i ({ · with tag := none }))

theorem slotModify (filled : 0 < n) (r : SlotRing n size) (i j : Nat)
    (change : Slot size → Slot size) :
    (r.modifySlot i change).slot j = if j % n = i % n then change (r.slot j) else r.slot j := by
  have low := Nat.mod_lt j filled
  simp only [slot, modifySlot, low, ↓reduceDIte, Vector.getElem_mk, Array.getElem_modify,
    Vector.getElem_toArray, eq_comm]

theorem slotReset (filled : 0 < n) (r : SlotRing n size) (j : Nat) :
    r.reset.slot j = (r.slot j).release := by
  simp [slot, reset, Nat.mod_lt j filled]

theorem slotLayout (filled : 0 < n) (r : SlotRing n size) (place : Placement) (j : Nat) :
    (r.layout place).slot j =
      { descriptor := .link (place.buffer (j % n))
          ({ r with base := place.table }.address (after n (j % n)))
        buffer := (r.slot j).buffer } := by
  simp [slot, layout, reset, Nat.mod_lt j filled, Slot.release, Slot.reset, Descriptor.link,
    Descriptor.reset, address]

end SlotRing

def DescriptorStatus.receiveError? (s : DescriptorStatus) : Option ChannelError :=
  if s.overrun then some .overrun
  else if s.badFraming then some .framing
  else if !s.endOfFrame then some .overflow
  else if s.crcError then some .checksum
  else none

structure Reception where
  status : DescriptorStatus
  result : Except ChannelError Bytes

structure Transmission where
  tag : Option UInt64
  length : Nat
  deriving DecidableEq, Repr

def Slot.reception {size : Nat} (s : Slot size) : Reception :=
  let status := DescriptorStatus.ofByte s.descriptor.status
  { status := status
    result := match status.receiveError? with
      | some error => .error error
      | none => .ok (s.bytes s.descriptor.length.toNat) }

namespace SlotRing

variable {n size : Nat}

def collect : Nat → SlotRing n size → List Reception × SlotRing n size
  | 0, r => ([], r)
  | count + 1, r =>
    let (rest, last) := collect count r.recycle
    ((r.slot r.oldest).reception :: rest, last)

def reclaim (r : SlotRing n size) : Transmission × SlotRing n size :=
  let s := r.slot r.oldest
  (⟨s.tag, s.descriptor.length.toNat⟩, (r.modifySlot r.oldest Slot.release).advance)

def drain : Nat → SlotRing n size → List Transmission × SlotRing n size
  | 0, r => ([], r)
  | count + 1, r =>
    let (first, next) := r.reclaim
    let (rest, last) := drain count next
    (first :: rest, last)

end SlotRing

end SerialAdapter
