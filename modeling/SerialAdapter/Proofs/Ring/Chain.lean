import Mathlib.Logic.ExistsUnique
import SerialAdapter.Controller
import SerialAdapter.Proofs.Ring.Queue

/-! The chain of a ring as a controller walks it. A descriptor names the next one and its own
buffer; the layout writes both, and no later operation and no write-back does. The walk round the
chain does not ask which slots are armed or what they hold. -/
namespace SerialAdapter

def Descriptor.links (d : Descriptor) : UInt32 × UInt32 := (d.chain, d.buffer)

def Slot.links {size : Nat} (s : Slot size) : UInt32 × UInt32 := s.descriptor.links

namespace Slot

variable {size : Nat} (s : Slot size)

@[simp] theorem linksReset : s.reset.links = s.links := rfl

@[simp] theorem linksRelease : s.release.links = s.links := rfl

@[simp] theorem linksArm (length : Option UInt16) : (s.arm length).links = s.links := by
  cases length <;> rfl

@[simp] theorem linksLoad (data : Option Bytes) (length : Nat) (tag : UInt64) :
    (s.load data length tag).links = s.links := rfl

@[simp] theorem linksComplete (frame : Bytes) (length : UInt16) (status : UInt8) :
    (s.complete frame length status).links = s.links := rfl

end Slot

namespace SlotRing

variable {n size : Nat} {r r' r'' : SlotRing n size}

structure Moored (r r' : SlotRing n size) : Prop where
  base : r'.base = r.base
  links : ∀ k, (r'.slot k).links = (r.slot k).links

theorem Moored.refl (r : SlotRing n size) : Moored r r := ⟨rfl, fun _ => rfl⟩

theorem Moored.trans (h : Moored r r') (h' : Moored r' r'') : Moored r r'' :=
  ⟨h'.base.trans h.base, fun k => (h'.links k).trans (h.links k)⟩

theorem mooredExtend (r : SlotRing n size) : Moored r r.extend := ⟨rfl, fun _ => rfl⟩

theorem mooredAdvance (r : SlotRing n size) : Moored r r.advance := ⟨rfl, fun _ => rfl⟩

section Operations

variable (filled : 0 < n)
include filled

theorem mooredModify (r : SlotRing n size) (i : Nat) {change : Slot size → Slot size}
    (keeps : ∀ s, (change s).links = s.links) : Moored r (r.modifySlot i change) := by
  refine ⟨rfl, fun k => ?_⟩
  rw [slotModify filled]
  split
  · exact keeps _
  · rfl

theorem mooredReset (r : SlotRing n size) : Moored r r.reset :=
  ⟨rfl, fun k => by simp [slotReset filled]⟩

theorem mooredArmNext (r : SlotRing n size) : Moored r r.armNext :=
  (mooredModify filled r r.next (Slot.linksArm · none)).trans (mooredExtend _)

theorem mooredFillWithin (rounds : Nat) (r : SlotRing n size) :
    Moored r (fillWithin rounds r) := by
  induction rounds generalizing r with
  | zero => exact .refl r
  | succ rounds ih =>
    rw [fillWithin]
    split
    · exact .refl r
    · exact (mooredArmNext filled r).trans (ih r.armNext)

theorem mooredStart (r : SlotRing n size) : Moored r r.reset.fill :=
  (mooredReset filled r).trans (mooredFillWithin filled n r.reset)

theorem mooredEnqueue {data : Option Bytes} {length k : Nat} {tag : UInt64}
    (ok : r.enqueue data length tag = .ok (k, r')) : Moored r r' := by
  obtain ⟨-, -, -, rfl⟩ := enqueueOk ok
  have loaded := mooredModify filled r r.next (Slot.linksLoad · data length tag)
  exact loaded.trans (mooredExtend _)

theorem mooredPrepare (r : SlotRing n size) (data : Bytes) : Moored r (r.prepare data).2 := by
  unfold prepare
  split
  · exact .refl r
  · exact mooredModify filled r r.next fun _ => rfl

theorem mooredRecycle (r : SlotRing n size) : Moored r r.recycle := by
  have emptied := mooredModify filled r r.oldest Slot.linksReset
  exact (emptied.trans (mooredArmNext filled _)).trans (mooredAdvance _)

theorem mooredCollect (count : Nat) (r : SlotRing n size) : Moored r (collect count r).2 := by
  induction count generalizing r with
  | zero => exact .refl r
  | succ count ih => exact (mooredRecycle filled r).trans (ih r.recycle)

theorem mooredDrain (count : Nat) (r : SlotRing n size) : Moored r (drain count r).2 := by
  induction count generalizing r with
  | zero => exact .refl r
  | succ count ih =>
    have released := mooredModify filled r r.oldest Slot.linksRelease
    exact (released.trans (mooredAdvance _)).trans (ih r.reclaim.2)

theorem mooredComplete (k : Nat) (frame : Bytes) (length : UInt16) (status : UInt8)
    (r : SlotRing n size) : Moored r (Controller.complete k frame length status r) :=
  mooredModify filled r k (Slot.linksComplete · frame length status)

end Operations

structure Placed (place : Placement) (r : SlotRing n size) : Prop where
  base : r.base = place.table
  chain : ∀ k, (r.slot k).descriptor.chain = r.address (k + 1)
  buffer : ∀ k, (r.slot k).descriptor.buffer = place.buffer (k % n)

theorem placedLayout (filled : 0 < n) (r : SlotRing n size) (place : Placement) :
    Placed place (r.layout place) :=
  ⟨rfl, linkedLayout filled r place, fun k => by rw [slotLayout filled]; rfl⟩

theorem Moored.placed {place : Placement} (h : Moored r r') (placed : Placed place r) :
    Placed place r' := by
  have chain (k : Nat) := congrArg Prod.fst (h.links k)
  have buffer (k : Nat) := congrArg Prod.snd (h.links k)
  refine ⟨h.base.trans placed.base, fun k => ?_, fun k => (buffer k).trans (placed.buffer k)⟩
  rw [addressBase h.base]
  exact (chain k).trans (placed.chain k)

def walk (r : SlotRing n size) : Nat → UInt32 → Option UInt32
  | 0, a => some a
  | steps + 1, a => do
    let k ← r.slotAt? a
    r.walk steps (r.slot k).descriptor.chain

def walkSlot (r : SlotRing n size) (steps start : Nat) : Option Nat :=
  r.walk steps (r.address start) >>= r.slotAt?

structure Cycle (place : Placement) (r : SlotRing n size) : Prop where
  base : r.base = place.table
  chain : ∀ k < n, (r.slot k).descriptor.chain = r.address ((k + 1) % n)
  buffer : ∀ k < n, (r.slot k).descriptor.buffer = place.buffer k
  stays : ∀ start steps, r.walk steps (r.address start) = some (r.address (start + steps))
  walk : ∀ start steps, r.walkSlot steps start = some ((start + steps) % n)
  once : ∀ start, ∀ k < n, ∃! steps, steps < n ∧ r.walkSlot steps start = some k

section Walk

variable {place : Placement} (fits : 16 * n ≤ 2 ^ 32) (filled : 0 < n) (h : Placed place r)
include fits filled h

theorem walkAddress (steps start : Nat) :
    r.walk steps (r.address start) = some (r.address (start + steps)) := by
  induction steps generalizing start with
  | zero => rfl
  | succ steps ih =>
    -- the first step leads from one slot to the next, wherever the table lies
    have here := slotAtAddress fits filled r start
    have next : (r.slot (start % n)).descriptor.chain = r.address (start + 1) := by
      rw [h.chain]
      exact addressCongr r (by simp)
    have rest := ih (start + 1)
    simp only [walk, here, Option.bind_eq_bind, Option.bind_some, next, rest]
    congr 2
    omega

theorem walkSlotEq (steps start : Nat) : r.walkSlot steps start = some ((start + steps) % n) := by
  have there := walkAddress fits filled h steps start
  simp only [walkSlot, there, Option.bind_eq_bind, Option.bind_some]
  exact slotAtAddress fits filled r (start + steps)

theorem walkOnce (start : Nat) {k : Nat} (low : k < n) :
    ∃! steps, steps < n ∧ r.walkSlot steps start = some k := by
  have first := Nat.mod_lt start filled
  have meets : (start + (n + k - start % n) % n) % n = k := by
    have whole : start % n + (n + k - start % n) = k + n := by omega
    rw [Nat.add_mod_mod, ← Nat.mod_add_mod, whole, Nat.add_mod_right, Nat.mod_eq_of_lt low]
  refine ⟨(n + k - start % n) % n, ⟨Nat.mod_lt _ filled, ?_⟩, fun steps ⟨short, found⟩ => ?_⟩
  · rw [walkSlotEq fits filled h, meets]
  · rw [walkSlotEq fits filled h] at found
    exact positionInj short (Nat.mod_lt _ filled) ((Option.some.inj found).trans meets.symm)

theorem Placed.cycle : Cycle place r where
  base := h.base
  chain k _ := by
    rw [h.chain, addressMod]
  buffer k low := by
    rw [h.buffer, Nat.mod_eq_of_lt low]
  stays start steps := walkAddress fits filled h steps start
  walk start steps := walkSlotEq fits filled h steps start
  once start k low := walkOnce fits filled h start low

end Walk

end SlotRing

end SerialAdapter
