import SerialAdapter.Proofs.Board.Hostile
import SerialAdapter.Proofs.Channel.Acknowledge

/-! An interrupt that means nothing. Once a controller was served, its events are acknowledged and
no slot is finished, wherever it stands: the service took all that there was, or as much as was in
flight, or started the ring anew. A service that is asked for once more only counts. -/
namespace SerialAdapter

open Register Registers

namespace SlotRing

variable {n size : Nat} {r r' : SlotRing n size} {a : UInt32}

theorem completedReached {k : Nat} (base : r'.base = r.base) (found : r.slotAt? a = some k)
    (reached : r'.oldest = k) : r'.completed a = 0 := by
  simp only [completed, slotAtBase base, found, reached, Nat.add_sub_cancel, Nat.mod_self,
    Nat.zero_min]

theorem completedEmpty (empty : r'.inFlight = 0) : r'.completed a = 0 :=
  Nat.le_zero.mp (empty ▸ completedLe r' a)

theorem completedDrained (h : r.Indexed) (a : UInt32) :
    (drain (r.completed a) r).2.completed a = 0 := by
  have done := drained h (completedLe r a)
  cases found : r.slotAt? a with
  | none => exact completedAway done.base found
  | some k =>
    have count : r.completed a = min ((n + k - r.oldest) % n) r.inFlight := by
      simp only [completed, found]
    -- either all the way was in flight, or the ring is empty now
    rcases Nat.le_total ((n + k - r.oldest) % n) r.inFlight with within | beyond
    · have reached : (drain (r.completed a) r).2.oldest = k := by
        rw [done.oldest, count, Nat.min_eq_left within]
        exact positionOf h (slotAtLow found)
      exact completedReached done.base found reached
    · refine completedEmpty ?_
      rw [done.inFlight, count, Nat.min_eq_right beyond, Nat.sub_self]

theorem completedCollected (h : r.Indexed) (full : r.inFlight = n - 1) (a : UInt32) :
    (collect (r.completed a) r).2.completed a = 0 := by
  have done := collected h (completedLe r a)
  cases found : r.slotAt? a with
  | none => exact completedAway done.base found
  | some k =>
    have low := Nat.mod_lt (n + k - r.oldest) h.filled
    have count : r.completed a = (n + k - r.oldest) % n := by
      simp only [completed, found]
      exact Nat.min_eq_left (by omega)
    have reached : (collect (r.completed a) r).2.oldest = k := by
      rw [done.oldest, count]
      exact positionOf h (slotAtLow found)
    exact completedReached done.base found reached

theorem completedStarted (filled : 0 < n) (r : SlotRing n size) :
    r.reset.fill.completed (r.reset.fill.address 0) = 0 := by
  have done := fillFilled (indexedReset filled r)
  have first : r.reset.fill.slotAt? (r.reset.fill.address 0) = some 0 :=
    slotAtSome.mpr ⟨filled, by simp [address]⟩
  exact completedReached rfl first done.oldest

end SlotRing

section Left

variable {n size i : Nat} {ch : Channel n size} {r : Registers}

theorem receiveFinished (h : ch.Sound) (on : ch.receiving = true) (s : DmaStatus)
    (control : Control) :
    (Duplex.receiveRing ch.rings.receive s control.current).completed
      (Duplex.receiveControl ch.rings.receive s control).current = 0 := by
  unfold Duplex.receiveRing Duplex.receiveControl
  split
  · exact SlotRing.completedStarted h.indexed.filled _
  · have finished := SlotRing.completedCollected h.indexed (h.armed on) control.current
    split <;> exact finished

structure Channel.Settled (i : Nat) (d : Direction) (ch : Channel n size) (r : Registers) :
    Prop where
  on : ch.isEnabled d = true
  quiet : (InterruptStatus.ofByte (r.peek8 (interrupts i))).any = false
  status : (DmaStatus.ofByte (r.peek8 (status i d))).events = 0
  finished : (ch.rings.ring d).completed (Control.of i d r).current = 0

variable (few : i < Limits.maxChannels)
include few

theorem currentSteers (d : Direction) :
    Confined i (Steering i d) (Dma.currentAddress i d) :=
  confinedRead32 (Duplex.steeringBytes few d 0 (by decide))

theorem reportReceiveSteers (x : Duplex n size) (t : Traffic) (a : UInt32) :
    Confined i (Steering i .receive) (Duplex.reportReceive i x t a) := by
  have handed := confinedBind (Duplex.confinedHandOver few .receive
    ((SlotRing.collect (x.receive.completed a) x.receive).2.address
      (SlotRing.collect (x.receive.completed a) x.receive).2.next)) fun _ =>
    confinedPure (i := i) (x.withRing .receive (SlotRing.collect (x.receive.completed a) x.receive).2,
      (SlotRing.collect (x.receive.completed a) x.receive).1.foldl Reception.count t)
  exact confinedBind (confinedNews (receptionActionsOwn i _)) fun _ =>
    confinedIf handed (confinedPure _)

theorem answerTransmitSteers (x : Duplex n size) (t : Traffic) (s : DmaStatus) :
    Confined i (Steering i .transmit) (Duplex.answerTransmit i x t s) :=
  confinedBind (confinedNews (underrunNewsOwn i s)) fun _ =>
    confinedBind (currentSteers few .transmit) fun _ =>
    confinedBind (confinedNews (transmitNewsOwn i _ _)) fun _ => confinedPure _

theorem servedStatus (d : Direction) (clears : r.wiring.clearsOnWrite (status i d) = true) :
    (DmaStatus.ofByte ((ch.serve i d r).state.peek8 (status i d))).events = 0 := by
  let s := DmaStatus.ofByte (r.peek8 (status i d))
  let after := (Dma.acknowledge i d s r).state
  have cleared : after.peek8 (status i d) = r.peek8 (status i d) &&& ~~~s.events := by
    simp only [after, Dma.acknowledge, writeClears clears, peekPoke8, ↓reduceIte]
  have gone : (DmaStatus.ofByte (after.peek8 (status i d))).events = 0 := by
    rw [cleared]
    exact eventsGone _
  have kept {α : Type} {op : Operation Registers α} (steers : Confined i (Steering i d) op) :
      (op after).state.peek8 (status i d) = after.peek8 (status i d) :=
    (steers.frame after).bytes _ fun own => own.2 rfl
  cases d with
  | receive =>
    have state : (ch.serve i .receive r).state =
        (Duplex.answerReceive i ch.rings (ch.traffic.countInterrupt .receive) s after).state := by
      rw [Channel.serve, Channel.serviceReceiveApply, Duplex.serviceReceiveEq]
      rfl
    rw [state, Duplex.answerReceive]
    split
    · have started := Duplex.startReceiveStatus few ch.rings (r := after) clears
      change (DmaStatus.ofByte ((Duplex.startReceive i ch.rings after).state.peek8 _)).events = 0
      rw [started]
      exact allGone _
    · rw [kept (confinedBind (currentSteers few .receive) fun _ => reportReceiveSteers few _ _ _)]
      exact gone
  | transmit =>
    have state : (ch.serve i .transmit r).state =
        (Duplex.answerTransmit i ch.rings (ch.traffic.countInterrupt .transmit) s after).state := by
      rw [Channel.serve, Channel.serviceTransmitApply, Duplex.serviceTransmitEq]
      rfl
    rw [state, kept (answerTransmitSteers few _ _ _)]
    exact gone

def Answered (i : Nat) (o : UInt16) : Prop := o = modem i ∨ ∃ d, Block i d o

theorem confinedAnswer (s : InterruptStatus) (ch : Channel n size) :
    Confined i (Answered i) (Channel.answerInterrupts i s ch) :=
  confinedBind (confinedMono (Channel.confinedReceivePart few s.receive ch) fun _ inside =>
      .inr ⟨_, inside⟩) fun ch =>
    confinedBind (confinedMono (Channel.confinedTransmitPart few s.transmit ch) fun _ inside =>
      .inr ⟨_, inside⟩) fun _ =>
    confinedBind (confinedMono (Channel.confinedModemPart s.modem) fun _ there => .inl there)
      fun _ => confinedPure _

theorem answeredInterrupts (s : InterruptStatus) :
    (Channel.answerInterrupts i s ch r).state.peek8 (interrupts i) = r.peek8 (interrupts i) := by
  refine ((confinedAnswer few s ch).frame r).bytes _ ?_
  rintro (same | ⟨d, inside⟩)
  · exact interruptsNotModem few same
  · exact interruptsOutside few d inside

theorem answeredStatus {d : Direction} (acknowledged : r.wiring.Acknowledged i)
    (on : ch.isEnabled d = true) {s : InterruptStatus} (asked : s.asks d = true) :
    (DmaStatus.ofByte
      ((Channel.answerInterrupts i s ch r).state.peek8 (status i d))).events = 0 := by
  obtain ⟨one, first⟩ : ∃ one, Channel.receivePart i s.receive ch r = one := ⟨_, rfl⟩
  obtain ⟨two, second⟩ :
      ∃ two, Channel.transmitPart i s.transmit one.answer one.state = two := ⟨_, rfl⟩
  have whole : (Channel.answerInterrupts i s ch r).state =
      (Channel.modemPart i s.modem two.state).state := by
    subst first second
    rfl
  have firstFrame := (Channel.confinedReceivePart few s.receive ch).frame r
  have secondFrame := (Channel.confinedTransmitPart few s.transmit one.answer).frame one.state
  have lastFrame := (Channel.confinedModemPart (i := i) s.modem).frame two.state
  rw [first] at firstFrame
  rw [second] at secondFrame
  have last : (Channel.modemPart i s.modem two.state).state.peek8 (status i d) =
      two.state.peek8 (status i d) :=
    lastFrame.bytes _ fun same => modemOutside few d (same ▸ statusInBlock few d)
  rw [whole, last]
  cases d with
  | receive =>
    have both : (s.receive && ch.receiving) = true := Bool.and_eq_true_iff.mpr ⟨asked, on⟩
    rw [secondFrame.bytes _ (blocksApart i (by decide) _ (statusInBlock few .receive)), ← first,
      Channel.receiveOn both]
    exact servedStatus few .receive (acknowledged.status .receive)
  | transmit =>
    have kept : one.answer.transmitting = ch.transmitting := by
      rw [← first, Channel.receivePart]
      split
      · rw [Channel.serviceReceiveApply]
      · rfl
    have both : (s.transmit && one.answer.transmitting) = true := by
      rw [kept]
      exact Bool.and_eq_true_iff.mpr ⟨asked, on⟩
    rw [← second, Channel.transmitOn both]
    refine servedStatus few .transmit ?_
    rw [firstFrame.wiring]
    exact acknowledged.status .transmit

omit few in
theorem asksAny {s : InterruptStatus} {d : Direction} (asked : s.asks d = true) :
    s.any = true := by
  cases d with
  | receive =>
    have asked : s.receive = true := asked
    simp [InterruptStatus.any, asked]
  | transmit =>
    have asked : s.transmit = true := asked
    simp [InterruptStatus.any, asked]

omit few in
theorem serviceAnswers (any : (InterruptStatus.ofByte (r.peek8 (interrupts i))).any = true) :
    let s := InterruptStatus.ofByte (r.peek8 (interrupts i))
    (ch.service i r).state =
      (Channel.answerInterrupts i s ch (write8 (interrupts i) s.toByte r).state).state := by
  have read : (read8 (interrupts i) r).answer = r.peek8 (interrupts i) := rfl
  rw [Channel.serviceEq]
  simp only [Operation.bindApply, read, any, ↓reduceIte]
  rfl

theorem serviceSettles {d : Direction} (acknowledged : r.wiring.Acknowledged i)
    (plain : r.wiring.Plain i d) (h : ch.Sound) (on : ch.isEnabled d = true)
    (asked : (InterruptStatus.ofByte (r.peek8 (interrupts i))).asks d = true) :
    (ch.service i r).answer.Settled i d (ch.service i r).state := by
  obtain ⟨s, status⟩ : ∃ s, InterruptStatus.ofByte (r.peek8 (interrupts i)) = s := ⟨_, rfl⟩
  obtain ⟨r', written⟩ : ∃ r', (write8 (interrupts i) s.toByte r).state = r' := ⟨_, rfl⟩
  have state : (ch.service i r).state = (Channel.answerInterrupts i s ch r').state := by
    rw [← written, ← status]
    exact serviceAnswers (asksAny asked)
  have left : r'.peek8 (interrupts i) = r.peek8 (interrupts i) &&& ~~~s.toByte := by
    rw [← written, writeClears acknowledged.interrupts, peekPoke8, if_pos rfl]
  have wiring : r'.wiring = r.wiring := by rw [← written, writeClears acknowledged.interrupts]; rfl
  obtain ⟨g, reading, served⟩ := Channel.serviced few ch r
  refine ⟨?_, ?_, ?_, ?_⟩
  · rw [served.channel]
    cases d <;> exact on
  · rw [state, answeredInterrupts few, left, ← status]
    exact interruptsGone _
  · rw [state]
    exact answeredStatus few (wiring ▸ acknowledged) on (status ▸ asked)
  · rw [← reading] at asked
    cases d with
    | receive =>
      have both : (g.asked.receive && ch.receiving) = true := Bool.and_eq_true_iff.mpr ⟨asked, on⟩
      have finished := receiveFinished h on g.receiveStatus (Control.of i .receive r)
      rw [← served.receiveReading plain] at finished
      rw [served.receiveControl plain, Duplex.ring, served.receive, Channel.receiveAfter,
        Channel.receiveControlAfter, both]
      exact finished
    | transmit =>
      have both : (g.asked.transmit && ch.transmitting) = true :=
        Bool.and_eq_true_iff.mpr ⟨asked, on⟩
      rw [served.transmitControl plain, ← served.transmitReading plain, Duplex.ring,
        served.transmit, Channel.transmitAfter, both]
      exact SlotRing.completedDrained h.tagged.indexed _

end Left

section Again

variable {n size i : Nat} {d : Direction} {ch : Channel n size} {r : Registers}

theorem currentAddressRead (plain : r.wiring.Plain i d) :
    Dma.currentAddress i d r =
      ⟨(Control.of i d r).current, r, (Dma.currentAddress i d r).seen⟩ := by
  have answer := currentAddressAnswer plain
  have state : (Dma.currentAddress i d r).state = r := by
    simp [Dma.currentAddress, read32, read16, plain.currentLow, plain.currentHigh]
  rw [← answer]
  exact congrArg (fun s => Outcome.mk _ s _) state

theorem reportReceiveNone {x : Duplex n size} {a : UInt32} (none : x.receive.completed a = 0)
    (t : Traffic) : Duplex.reportReceive i x t a = pure (x, t) := by
  rw [Duplex.reportReceive, none]
  rfl

theorem reportTransmitNone {x : Duplex n size} {a : UInt32} (none : x.transmit.completed a = 0)
    (t : Traffic) : Duplex.reportTransmit i x t a = pure (x, t) := by
  rw [Duplex.reportTransmit, none]
  rfl

theorem answerReceiveNone {x : Duplex n size} {s : DmaStatus} (plain : r.wiring.Plain i .receive)
    (fine : s.ringFault = false)
    (none : x.receive.completed (Control.of i .receive r).current = 0) (t : Traffic) :
    Duplex.answerReceive i x t s r = ⟨(x, t), r, (Dma.currentAddress i .receive r).seen⟩ := by
  rw [Duplex.answerReceive, fine]
  simp only [Bool.false_eq_true, ↓reduceIte, Operation.bindApply]
  rw [currentAddressRead plain]
  simp only [reportReceiveNone none, Operation.pureApply, List.append_nil]

theorem answerTransmitNone {x : Duplex n size} {s : DmaStatus} (plain : r.wiring.Plain i .transmit)
    (fine : s.chainOverflow = false)
    (none : x.transmit.completed (Control.of i .transmit r).current = 0) (t : Traffic) :
    Duplex.answerTransmit i x t s r = ⟨(x, t), r, (Dma.currentAddress i .transmit r).seen⟩ := by
  rw [Duplex.answerTransmit, underrunNews, fine]
  simp only [Bool.false_eq_true, ↓reduceIte, Operation.bindApply, Operation.emit, List.nil_append]
  rw [currentAddressRead plain]
  simp only [reportTransmitNone none, Operation.pureApply, List.append_nil]

theorem servedAgain (clears : r.wiring.clearsOnWrite (status i d) = true)
    (plain : r.wiring.Plain i d) (settled : (DmaStatus.ofByte (r.peek8 (status i d))).events = 0)
    (finished : (ch.rings.ring d).completed (Control.of i d r).current = 0) :
    (ch.serve i d r).answer = { ch with traffic := ch.traffic.countInterrupt d } ∧
      (ch.serve i d r).state = r ∧ events (ch.serve i d r).seen = [] := by
  obtain ⟨fault, chain⟩ := quietStatus _ settled
  have read : (Dma.readStatus i d r).answer = .ofByte (r.peek8 (status i d)) ∧
    (Dma.readStatus i d r).state = r := ⟨rfl, rfl⟩
  have acknowledge : (Dma.acknowledge i d (.ofByte (r.peek8 (status i d))) r).state = r := by
    rw [Dma.acknowledge, settled, writeNone clears]
  cases d with
  | receive =>
    have answer := answerReceiveNone plain fault finished (ch.traffic.countInterrupt .receive)
    simp only [Channel.serve, Channel.serviceReceiveApply, Duplex.serviceReceiveEq,
      Operation.bindApply, read, acknowledge]
    rw [answer]
    exact ⟨rfl, rfl, rfl⟩
  | transmit =>
    have answer := answerTransmitNone plain chain finished (ch.traffic.countInterrupt .transmit)
    simp only [Channel.serve, Channel.serviceTransmitApply, Duplex.serviceTransmitEq,
      Operation.bindApply, read, acknowledge]
    rw [answer]
    exact ⟨rfl, rfl, rfl⟩

end Again

end SerialAdapter
