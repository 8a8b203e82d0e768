import SerialAdapter.Action
import SerialAdapter.Setup

/-! The register window: 64 KiB of bytes, words little-endian, offsets wrapping. Some registers
answer an access with a side effect, and only an access of the right width at the right offset has
it: a byte write clears the bits that are written as one, or a word read leaves zero behind. `peek`
and `poke` are the hardware's side and have none; `read` and `write` are the driver's, and take the
low word of a double word first. The bytes are a perfect tree of `size depth` cells, indexed by the
low bit first. A write copies one path, so a memory that somebody kept never changes.

```text
0x0000  interrupt summary, reset
0x0100  channel 0: +0x00 interrupt status, mode, modem
                   +0x10 receive controller
                   +0x20 transmit controller
                   +0x40 line interface
0x0200  channel 1
```
-/
namespace SerialAdapter

inductive Memory : Nat → Type where
  | cell (byte : UInt8) : Memory 0
  | fork {depth : Nat} (even odd : Memory depth) : Memory (depth + 1)

namespace Memory

variable {depth : Nat}

def size : Nat → Nat
  | 0 => 1
  | depth + 1 => 2 * size depth

def blank : (depth : Nat) → Memory depth
  | 0 => .cell 0
  | depth + 1 =>
    let half := blank depth
    .fork half half

def get {depth : Nat} : Memory depth → Nat → UInt8
  | .cell byte, _ => byte
  | .fork even odd, i => if i % 2 = 0 then even.get (i / 2) else odd.get (i / 2)

def set {depth : Nat} : Memory depth → Nat → UInt8 → Memory depth
  | .cell _, _, byte => .cell byte
  | .fork even odd, i, byte =>
    if i % 2 = 0 then .fork (even.set (i / 2) byte) odd else .fork even (odd.set (i / 2) byte)

theorem getBlank (i : Nat) : (blank depth).get i = 0 := by
  induction depth generalizing i with
  | zero => rfl
  | succ depth ih => simp [blank, get, ih]

theorem halves (depth i j : Nat) :
    i % size (depth + 1) = j % size (depth + 1) ↔
      i % 2 = j % 2 ∧ i / 2 % size depth = j / 2 % size depth := by
  have hi := @Nat.mod_mul 2 (size depth) i
  have hj := @Nat.mod_mul 2 (size depth) j
  rw [size, hi, hj]
  omega

theorem getSet (m : Memory depth) (i j : Nat) (byte : UInt8) :
    (m.set i byte).get j = if j % size depth = i % size depth then byte else m.get j := by
  induction m generalizing i j with
  | cell old => simp [set, get, size, Nat.mod_one]
  | @fork depth even odd evens odds =>
    have split := halves depth j i
    by_cases hi : i % 2 = 0 <;> by_cases hj : j % 2 = 0 <;>
      simp only [set, get, hi, hj, ↓reduceIte, evens, odds, split]
    · simp
    · simp
    · simp [Ne.symm hi]
    · have : j % 2 = i % 2 := by omega
      simp [this]

theorem ext {m m' : Memory depth} (same : ∀ i, m.get i = m'.get i) : m = m' := by
  induction m with
  | cell byte =>
    cases m' with
    | cell byte' => exact congrArg cell (same 0)
  | fork even odd evens odds =>
    cases m' with
    | fork even' odd' =>
      have left : even = even' := evens fun i => by
        have h := same (2 * i)
        simpa [get, Nat.mul_div_cancel_left i (by decide : 0 < 2)] using h
      have right : odd = odd' := odds fun i => by
        have h := same (2 * i + 1)
        have half : (2 * i + 1) / 2 = i := by omega
        have low : (2 * i + 1) % 2 = 1 := by omega
        simpa [get, half, low] using h
      rw [left, right]

end Memory

namespace Register

def boardInterrupts : UInt16 := 0x0000
def boardReset : UInt16 := 0x0001

def channelBlock (i : Nat) : UInt16 := 0x0100 + UInt16.ofNat i * 0x0100

def interrupts (i : Nat) : UInt16 := channelBlock i + 0x00
def mode (i : Nat) : UInt16 := channelBlock i + 0x01
def modem (i : Nat) : UInt16 := channelBlock i + 0x02

def dmaBlock (i : Nat) : Direction → UInt16
  | .receive => channelBlock i + 0x10
  | .transmit => channelBlock i + 0x20

def current (i : Nat) (d : Direction) : UInt16 := dmaBlock i d + 0x00
def stop (i : Nat) (d : Direction) : UInt16 := dmaBlock i d + 0x04
def bufferLength (i : Nat) (d : Direction) : UInt16 := dmaBlock i d + 0x08
def status (i : Nat) (d : Direction) : UInt16 := dmaBlock i d + 0x0A
def command (i : Nat) (d : Direction) : UInt16 := dmaBlock i d + 0x0B
def interruptEnable (i : Nat) (d : Direction) : UInt16 := dmaBlock i d + 0x0C

def abortCommand : UInt8 := 0x01
def startCommand : UInt8 := 0x02

def interruptsOn : UInt8 := 0x70

def lineBlock (i : Nat) : UInt16 := channelBlock i + 0x40

def lineStatus (i : Nat) : UInt16 := lineBlock i + 0x00
def bipolar (i : Nat) : UInt16 := lineBlock i + 0x02
def crc (i : Nat) : UInt16 := lineBlock i + 0x04
def frameSync (i : Nat) : UInt16 := lineBlock i + 0x06
def remoteCrc (i : Nat) : UInt16 := lineBlock i + 0x08
def lineLatch (i : Nat) : UInt16 := lineBlock i + 0x0A

end Register

structure Wiring where
  clearsOnWrite : UInt16 → Bool
  clearsOnRead : UInt16 → Bool

namespace Wiring

def plain : Wiring := ⟨fun _ => false, fun _ => false⟩

def board (channels : Nat) : Wiring where
  clearsOnWrite offset :=
    offset == Register.boardInterrupts || (List.range channels).any fun i =>
      offset == Register.interrupts i || offset == Register.status i .receive ||
        offset == Register.status i .transmit
  clearsOnRead offset := (List.range channels).any fun i =>
    offset == Register.bipolar i || offset == Register.crc i || offset == Register.frameSync i ||
      offset == Register.remoteCrc i

end Wiring

structure Registers where
  memory : Memory 16
  wiring : Wiring

namespace Registers

def blank (wiring : Wiring) : Registers := ⟨Memory.blank 16, wiring⟩

def peek8 (r : Registers) (offset : UInt16) : UInt8 := r.memory.get offset.toNat

def poke8 (r : Registers) (offset : UInt16) (value : UInt8) : Registers :=
  { r with memory := r.memory.set offset.toNat value }

def word (low high : UInt8) : UInt16 := low.toUInt16 ||| (high.toUInt16 <<< 8)

def peek16 (r : Registers) (offset : UInt16) : UInt16 :=
  word (r.peek8 offset) (r.peek8 (offset + 1))

def poke16 (r : Registers) (offset : UInt16) (value : UInt16) : Registers :=
  (r.poke8 offset value.toUInt8).poke8 (offset + 1) (value >>> 8).toUInt8

def doubleWord (low high : UInt16) : UInt32 := low.toUInt32 ||| (high.toUInt32 <<< 16)

def peek32 (r : Registers) (offset : UInt16) : UInt32 :=
  doubleWord (r.peek16 offset) (r.peek16 (offset + 2))

def poke32 (r : Registers) (offset : UInt16) (value : UInt32) : Registers :=
  (r.poke16 offset value.toUInt16).poke16 (offset + 2) (value >>> 16).toUInt16

def read8 (offset : UInt16) : Operation Registers UInt8 := fun r =>
  ⟨r.peek8 offset, r, [.access (.read8 offset (r.peek8 offset))]⟩

def write8 (offset : UInt16) (value : UInt8) : Operation Registers Unit := fun r =>
  let stored := if r.wiring.clearsOnWrite offset then r.peek8 offset &&& ~~~value else value
  ⟨(), r.poke8 offset stored, [.access (.write8 offset value)]⟩

def read16 (offset : UInt16) : Operation Registers UInt16 := fun r =>
  let after := if r.wiring.clearsOnRead offset then r.poke16 offset 0 else r
  ⟨r.peek16 offset, after, [.access (.read16 offset (r.peek16 offset))]⟩

def write16 (offset : UInt16) (value : UInt16) : Operation Registers Unit := fun r =>
  ⟨(), r.poke16 offset value, [.access (.write16 offset value)]⟩

def read32 (offset : UInt16) : Operation Registers UInt32 := do
  let low ← read16 offset
  let high ← read16 (offset + 2)
  return doubleWord low high

def write32 (offset : UInt16) (value : UInt32) : Operation Registers Unit := do
  write16 offset value.toUInt16
  write16 (offset + 2) (value >>> 16).toUInt16

end Registers

end SerialAdapter
