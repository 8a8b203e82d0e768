import SerialAdapter.Proofs.Channel.Interrupts
import SerialAdapter.Proofs.Register.Footprint

/-! What is acknowledged, and what is left of it. The interrupt register of a channel and the status
register of a controller lose the bits that are written as one; nothing else in a service writes to
them. So the bits that a service read are gone when it is over. -/
namespace SerialAdapter

open Register Registers

theorem everyByte {P : UInt8 → Prop} (all : ∀ k : Fin 256, P (UInt8.ofNat k)) (b : UInt8) : P b := by
  have here := all ⟨b.toNat, b.toNat_lt⟩
  simpa using here

theorem interruptsGone (b : UInt8) :
    (InterruptStatus.ofByte (b &&& ~~~(InterruptStatus.ofByte b).toByte)).any = false := by
  revert b
  exact everyByte (by decide +kernel)

theorem eventsGone (b : UInt8) :
    (DmaStatus.ofByte (b &&& ~~~(DmaStatus.ofByte b).events)).events = 0 := by
  revert b
  exact everyByte (by decide +kernel)

theorem allGone (b : UInt8) : (DmaStatus.ofByte (b &&& ~~~DmaStatus.all.events)).events = 0 := by
  revert b
  exact everyByte (by decide +kernel)

theorem allAfterEvents (b : UInt8) :
    b &&& ~~~(DmaStatus.ofByte b).events &&& ~~~DmaStatus.all.events =
      b &&& ~~~DmaStatus.all.events := by
  revert b
  exact everyByte (by decide +kernel)

theorem quietStatus (b : UInt8) : (DmaStatus.ofByte b).events = 0 →
    (DmaStatus.ofByte b).ringFault = false ∧ (DmaStatus.ofByte b).chainOverflow = false := by
  revert b
  exact everyByte (by decide +kernel)

structure Wiring.Acknowledged (w : Wiring) (i : Nat) : Prop where
  interrupts : w.clearsOnWrite (Register.interrupts i) = true
  status : ∀ d, w.clearsOnWrite (Register.status i d) = true

theorem boardAcknowledged {c i : Nat} (low : i < c) : (Wiring.board c).Acknowledged i := by
  have inside : i ∈ List.range c := List.mem_range.mpr low
  refine ⟨?_, fun d => ?_⟩
  · simp only [Wiring.board, Bool.or_eq_true, List.any_eq_true]
    exact .inr ⟨i, inside, by simp⟩
  · simp only [Wiring.board, Bool.or_eq_true, List.any_eq_true]
    refine .inr ⟨i, inside, ?_⟩
    cases d <;> simp

namespace Registers

theorem pokeSame (r : Registers) (o : UInt16) : r.poke8 o (r.peek8 o) = r := by
  refine Registers.ext rfl fun o' => ?_
  rw [peekPoke8]
  split
  · rename_i same
    rw [same]
  · rfl

theorem writeClears {r : Registers} {o : UInt16} (clears : r.wiring.clearsOnWrite o = true)
    (value : UInt8) : (write8 o value r).state = r.poke8 o (r.peek8 o &&& ~~~value) := by
  simp only [write8, clears, ↓reduceIte]

theorem writeNone {r : Registers} {o : UInt16} (clears : r.wiring.clearsOnWrite o = true) :
    (write8 o 0 r).state = r := by
  rw [writeClears clears, UInt8.not_zero, UInt8.and_neg_one, pokeSame]

end Registers

theorem interruptsNotModem {i : Nat} (few : i < Limits.maxChannels) :
    Register.interrupts i ≠ Register.modem i :=
  offsetsApart few few (k := 0) (l := 2) (by decide) (by decide) (by decide)

namespace Duplex

variable {n size i : Nat}

def aim (i : Nat) (ring : SlotRing n size) : Operation Registers Unit := do
  Dma.abort i .receive
  Dma.setBufferLength i .receive (UInt16.ofNat size)
  Dma.setCurrent i .receive (ring.address 0)
  Dma.setStop i .receive (ring.address ring.next)

def fire (i : Nat) : Operation Registers Unit := do
  Dma.setInterrupts i .receive true
  Dma.start i .receive

theorem startReceiveState (x : Duplex n size) (r : Registers) :
    (startReceive i x r).state =
      (fire i (Dma.acknowledge i .receive .all (aim i x.receive.reset.fill r).state).state).state :=
  rfl

variable (few : i < Limits.maxChannels)
include few

theorem steeringBytes (d : Direction) (start : Nat) (low : start + 4 ≤ 10) (k : Nat)
    (byte : k < 4) :
    Steering i d (dmaBlock i d + UInt16.ofNat start + UInt16.ofNat k) := by
  rw [UInt16.add_assoc, ← UInt16.ofNat_add]
  exact inSteering few d (by omega) (by omega)

theorem confinedHandOver (d : Direction) (a : UInt32) :
    Confined i (Steering i d) (do Dma.setStop i d a; Dma.start i d) :=
  confinedBind (confinedWrite32 (steeringBytes few d 4 (by decide)) a) fun _ =>
    confinedWrite8 (inSteering few d (k := 11) (by decide) (by decide)) _

theorem confinedAim (ring : SlotRing n size) : Confined i (Steering i .receive) (aim i ring) := by
  have low : Steering i .receive (bufferLength i .receive) :=
    inSteering few .receive (k := 8) (by decide) (by decide)
  have high : Steering i .receive (bufferLength i .receive + 1) := by
    have here := inSteering few .receive (k := 9) (by decide) (by decide)
    simpa [bufferLength, UInt16.add_assoc] using here
  have current : ∀ k < 4, Steering i .receive (current i .receive + UInt16.ofNat k) :=
    steeringBytes few .receive 0 (by decide)
  exact confinedBind (confinedWrite8 (inSteering few .receive (k := 11) (by decide) (by decide)) _)
    fun _ => confinedBind (confinedWrite16 low high _)
    fun _ => confinedBind (confinedWrite32 current _)
    fun _ => confinedWrite32 (steeringBytes few .receive 4 (by decide)) _

theorem confinedFire : Confined i (Steering i .receive) (fire i) :=
  confinedBind (confinedWrite8 (inSteering few .receive (k := 12) (by decide) (by decide)) _)
    fun _ => confinedWrite8 (inSteering few .receive (k := 11) (by decide) (by decide)) _

omit few in
theorem acknowledgeAside (i : Nat) (s : DmaStatus) (r : Registers) :
    Alike (· ≠ status i .receive) r (Dma.acknowledge i .receive s r).state :=
  (confinedWrite8 (i := i) (t := (· = status i .receive)) rfl s.events).frame r

theorem startReceiveAlike (x : Duplex n size) {r r' : Registers}
    (same : Alike (· ≠ status i .receive) r r') :
    Alike (· ≠ status i .receive) (startReceive i x r).state (startReceive i x r').state := by
  have aimed := (confinedMono (confinedAim few x.receive.reset.fill) fun o own => own.2).state same
  have acknowledged {r r' : Registers} (same : Alike (· ≠ status i .receive) r r') :
      Alike (· ≠ status i .receive) (Dma.acknowledge i .receive .all r).state
        (Dma.acknowledge i .receive .all r').state := by
    refine ⟨same.wiring, fun o apart => ?_⟩
    rw [(acknowledgeAside i .all r').bytes o apart, (acknowledgeAside i .all r).bytes o apart,
      same.bytes o apart]
  exact (confinedMono (confinedFire few) fun o own => own.2).state (acknowledged aimed)

theorem startReceiveStatus (x : Duplex n size) {r : Registers}
    (clears : r.wiring.clearsOnWrite (status i .receive) = true) :
    (startReceive i x r).state.peek8 (status i .receive) =
      r.peek8 (status i .receive) &&& ~~~DmaStatus.all.events := by
  have aimed := (confinedAim few x.receive.reset.fill).frame r
  have still (r : Registers) :=
    ((confinedFire few).frame r).bytes (status i .receive) fun own => own.2 rfl
  have kept : (aim i x.receive.reset.fill r).state.wiring.clearsOnWrite (status i .receive) = true :=
    aimed.wiring ▸ clears
  rw [startReceiveState, still, Dma.acknowledge, writeClears kept, peekPoke8, if_pos rfl,
    aimed.bytes _ fun own => own.2 rfl]

theorem startReceiveSame (x : Duplex n size) {r r' : Registers}
    (clears : r.wiring.clearsOnWrite (status i .receive) = true)
    (same : Alike (· ≠ status i .receive) r r')
    (status : r'.peek8 (status i .receive) &&& ~~~DmaStatus.all.events =
      r.peek8 (Register.status i .receive) &&& ~~~DmaStatus.all.events) :
    (startReceive i x r').state = (startReceive i x r).state := by
  have later := startReceiveAlike few x same
  refine Registers.ext later.wiring fun o => ?_
  by_cases own : o = Register.status i .receive
  · rw [own, startReceiveStatus few x (same.wiring ▸ clears), startReceiveStatus few x clears,
      status]
  · exact later.bytes o own

end Duplex

def InterruptStatus.only : Direction → InterruptStatus
  | .receive => ⟨true, false, false⟩
  | .transmit => ⟨false, true, false⟩

namespace Channel

variable {n size : Nat}

def serve (i : Nat) (d : Direction) (ch : Channel n size) :
    Operation Registers (Channel n size) :=
  match d with
  | .receive => ch.serviceReceive i
  | .transmit => ch.serviceTransmit i

theorem answerAlone {i : Nat} {d : Direction} {ch : Channel n size} (on : ch.isEnabled d = true) :
    answerInterrupts i (.only d) ch = ch.serve i d := by
  funext r
  cases d with
  | receive =>
    have on : (true && ch.receiving) = true := on
    simp only [answerInterrupts, InterruptStatus.only, receiveOn on, transmitPart, modemPart,
      Bool.false_and, Bool.false_eq_true, ↓reduceIte, Operation.bindApply, Operation.pureApply,
      List.append_nil]
    rfl
  | transmit =>
    have on : (true && ch.transmitting) = true := on
    have off : receivePart i false ch = pure ch := rfl
    simp only [answerInterrupts, InterruptStatus.only, off, modemPart, Bool.false_eq_true,
      ↓reduceIte, Operation.bindApply, Operation.pureApply, List.append_nil, List.nil_append,
      transmitOn on]
    rfl

theorem serviceAlone {i : Nat} {d : Direction} {ch : Channel n size} {r : Registers}
    (asked : InterruptStatus.ofByte (r.peek8 (interrupts i)) = .only d)
    (on : ch.isEnabled d = true) :
    let done := ch.serve i d (write8 (interrupts i) (InterruptStatus.only d).toByte r).state
    (ch.service i r).answer = done.answer ∧ (ch.service i r).state = done.state ∧
      events (ch.service i r).seen = events done.seen := by
  have read : (read8 (interrupts i) r).answer = r.peek8 (interrupts i) := rfl
  have some : (InterruptStatus.only d).any = true := by cases d <;> rfl
  rw [serviceEq]
  simp only [Operation.bindApply, read, asked, some, ↓reduceIte, answerAlone on]
  exact ⟨rfl, rfl, rfl⟩

end Channel

end SerialAdapter
