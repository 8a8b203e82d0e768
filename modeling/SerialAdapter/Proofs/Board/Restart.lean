import SerialAdapter.Proofs.Board.Chains
import SerialAdapter.Proofs.Board.Reply
import SerialAdapter.Proofs.Channel.Acknowledge

/-! Recovery from a ring fault. Wherever the receive ring stood and whatever it held, a service that
finds a fault leaves what acknowledging the interrupt and switching the receiver on would leave;
beyond that it counts the interrupt and one overflow. -/
namespace SerialAdapter

open Register Registers

namespace SlotRing

variable {n size : Nat}

structure Armed (old ring : SlotRing n size) : Prop where
  oldest : ring.oldest = 0
  next : ring.next = n - 1
  inFlight : ring.inFlight = n - 1
  free : ring.free = 0
  slots : ∀ k, ring.slot k = (old.slot k).release

theorem refilled (filled : 0 < n) (r : SlotRing n size) : Armed r r.reset.fill := by
  have indexed := indexedReset filled r
  have done := fillFilled indexed
  have count := fillInFlight indexed
  have last := nextPosition done.indexed
  have all := freeAddInFlight done.indexed
  have first : r.reset.fill.oldest = 0 := done.oldest
  rw [first, count, Nat.zero_add, Nat.mod_eq_of_lt (by omega)] at last
  refine ⟨first, last.symm, count, by omega, fun k => ?_⟩
  -- a released slot is as good as armed, so it does not matter which of them were armed
  have arms := fillArms indexed
  have empty (j : Nat) : (r.reset.slot j).arm none = r.reset.slot j := by
    rw [slotReset filled]
    rfl
  rw [← slotReset filled]
  by_cases free : ∃ j < r.reset.free, k % n = (r.reset.next + j) % n
  · obtain ⟨j, low, place⟩ := free
    rw [slotCongr _ place, slotCongr _ place, arms.armed j low, empty]
  · exact arms.untouched k fun j low place => free ⟨j, low, place⟩

end SlotRing

def Traffic.restarted (t : Traffic) : Traffic :=
  { t with
    receive := { t.receive with
      interrupts := t.receive.interrupts + 1
      errors := t.receive.errors + 1 }
    overflow := t.overflow + 1 }

section Channel

variable {n size i : Nat} {ch : Channel n size} {r : Registers}

theorem faultServed {x : Duplex n size} {t : Traffic}
    (fault : (DmaStatus.ofByte (r.peek8 (status i .receive))).ringFault = true) :
    let s := DmaStatus.ofByte (r.peek8 (status i .receive))
    let started := Duplex.startReceive i x (Dma.acknowledge i .receive s r).state
    (x.serviceReceive i t r).answer = (x.withRing .receive x.receive.reset.fill, t.restarted) ∧
      (x.serviceReceive i t r).state = started.state ∧
      events (x.serviceReceive i t r).seen = [.failed i .overflow] := by
  have read : (Dma.readStatus i .receive r).answer =
    DmaStatus.ofByte (r.peek8 (status i .receive)) := rfl
  rw [Duplex.serviceReceiveEq]
  simp only [Operation.bindApply, read, Duplex.answerReceive, fault, ↓reduceIte]
  exact ⟨rfl, rfl, rfl⟩

theorem faultRestarts (few : i < Limits.maxChannels) (acknowledged : r.wiring.Acknowledged i)
    (on : ch.receiving = true)
    (asked : InterruptStatus.ofByte (r.peek8 (interrupts i)) = .only .receive)
    (fault : (DmaStatus.ofByte (r.peek8 (status i .receive))).ringFault = true) :
    let enabled := ch.enable i .receive true (write8 (interrupts i) 1 r).state
    (ch.service i r).answer = { enabled.answer with traffic := ch.traffic.restarted } ∧
      (ch.service i r).state = enabled.state ∧
      events (ch.service i r).seen = [.failed i .overflow] := by
  obtain ⟨r', written⟩ : ∃ r', (write8 (interrupts i) 1 r).state = r' := ⟨_, rfl⟩
  have same : r'.peek8 (status i .receive) = r.peek8 (status i .receive) := by
    rw [← written, writeClears acknowledged.interrupts, peekPoke8,
      if_neg (statusNotInterrupts few .receive)]
  have clears : r'.wiring.clearsOnWrite (status i .receive) = true := by
    rw [← written]
    exact acknowledged.status .receive
  have value : (InterruptStatus.only .receive).toByte = 1 := rfl
  obtain ⟨answer, state, told⟩ := Channel.serviceAlone (n := n) (d := .receive) asked on
  obtain ⟨rings, started, news⟩ := faultServed (x := ch.rings) (t := ch.traffic) (same ▸ fault)
  rw [value, written] at answer state told
  rw [written]
  have whole := Channel.serviceReceiveApply (i := i) ch r'
  have afresh := Duplex.startReceiveSame few ch.rings clears (Duplex.acknowledgeAside i _ r') (by
    rw [Dma.acknowledge, writeClears clears, peekPoke8, if_pos rfl, allAfterEvents])
  refine ⟨?_, ?_, ?_⟩
  · rw [answer, Channel.serve, whole, rings, enableAnswer]
    simp [Channel.withEnabled, enabledRing, Duplex.ring, on]
  · rw [state, Channel.serve, whole, started, afresh]
    rfl
  · rw [told, Channel.serve, whole, news]

end Channel

theorem faultRestartsAfresh {c n size : Nat} (registers : Registers)
    (strikes : List (Strike c n size)) (i : Fin c) :
    let now := run Board.suffer ({ registers := registers } : Board c n size) strikes
    let ch := now.channel i
    let ring := ch.rings.receive.reset.fill
    let served := Board.serviceChannel i now
    let acknowledged :=
      { now with registers := (write8 (interrupts i) 1 now.registers).state }
    let enabled := Board.enable i .receive true acknowledged
    now.initialized = true → now.registers.wiring = Wiring.board c → ch.receiving = true →
    InterruptStatus.ofByte (now.registers.peek8 (interrupts i)) = .only .receive →
    (DmaStatus.ofByte (now.registers.peek8 (status i .receive))).ringFault = true →
      served.answer = .ok () ∧ enabled.answer = .ok () ∧
      events served.seen = [.failed i .overflow] ∧
      served.state = { enabled.state with
        channels := enabled.state.channels.set i
          { enabled.state.channel i with traffic := ch.traffic.restarted } i.isLt } ∧
      served.state = { now with
        registers := enabled.state.registers
        channels := now.channels.set i
          { ch with rings := ch.rings.withRing .receive ring, traffic := ch.traffic.restarted }
          i.isLt } ∧
      SlotRing.Armed ch.rings.receive ring := by
  intro now ch ring served acknowledged enabled up wired on asked fault
  have sound : now.Sound := sufferUp registers strikes up
  have low := Nat.lt_of_lt_of_le i.isLt sound.few
  have cleared : now.registers.wiring.Acknowledged i := wired ▸ boardAcknowledged i.isLt
  obtain ⟨answer, state, told⟩ := faultRestarts low cleared on asked fault
  have channel : (ch.enable i .receive true acknowledged.registers).answer =
      { ch with rings := ch.rings.withRing .receive ring } := by
    rw [enableAnswer]
    simp [Channel.withEnabled, enabledRing, Duplex.ring, ring, on]
  have serves : served = _ := Call.changeDone i.isLt up _
  have enables : enabled = _ := Call.changeDone i.isLt (b := acknowledged) up _
  have filled : 0 < n := Nat.lt_of_lt_of_le (by decide) sound.room
  rw [serves, enables]
  refine ⟨rfl, rfl, told, ?_, ?_, SlotRing.refilled filled _⟩
  · rw [state, answer]
    simp only [Board.channel, Vector.set_set, Vector.getElem_set_self]
    rfl
  · rw [state, answer, channel]

theorem faultBehindTwoFinished :
    let place := Placement.regular 0 64 4
    let strikes : List (Strike 1 4 4) :=
      [.call (.init {} fun _ => place 0), .call (.enable 0 .receive true),
        .noise (.complete (by decide) 0 .receive 0 [1, 2] 2 0x80),
        .noise (.complete (by decide) 0 .receive 1 [3] 1 0x80),
        .noise (.poke (current 0 .receive) 32), .noise (.poke (status 0 .receive) 0x72),
        .noise (.poke (interrupts 0) 1)]
    let now := run Board.suffer ({ registers := .blank (Wiring.board 1) } : Board 1 4 4) strikes
    let ring := (now.channel 0).rings.receive
    let served := Board.serviceChannel 0 now
    ring.completed (now.registers.peek32 (current 0 .receive)) = 2 ∧
      events served.seen = [.failed 0 .overflow] ∧ SlotRing.Armed ring ring.reset.fill := by
  intro place strikes now ring served
  have up : now.initialized = true := rfl
  have wired : now.registers.wiring = Wiring.board 1 := rfl
  have on : (now.channel 0).receiving = true := rfl
  have asked : InterruptStatus.ofByte (now.registers.peek8 (interrupts 0)) = .only .receive := by
    decide +kernel
  have fault : (DmaStatus.ofByte (now.registers.peek8 (status 0 .receive))).ringFault = true := by
    decide +kernel
  have behind : ring.completed (now.registers.peek32 (current 0 .receive)) = 2 := by decide +kernel
  obtain ⟨-, -, told, -, -, armed⟩ :=
    faultRestartsAfresh (.blank (Wiring.board 1)) strikes 0 up wired on asked fault
  exact ⟨behind, told, armed⟩

end SerialAdapter
