import SerialAdapter.Proofs.Channel.Service

/-! The service of a channel: it acknowledges the interrupts and answers each of them. The parts keep
to their own registers, so what a service does to one direction does not depend on the other. -/
namespace SerialAdapter

open Registers Duplex

namespace Channel

variable {n size i : Nat}

def receivePart (i : Nat) (asked : Bool) (ch : Channel n size) :
    Operation Registers (Channel n size) :=
  if asked && ch.receiving then ch.serviceReceive i else pure ch

def transmitPart (i : Nat) (asked : Bool) (ch : Channel n size) :
    Operation Registers (Channel n size) :=
  if asked && ch.transmitting then ch.serviceTransmit i else pure ch

def modemPart (i : Nat) (asked : Bool) : Operation Registers Unit :=
  if asked then reportModem i else pure ()

def answerInterrupts (i : Nat) (s : InterruptStatus) (ch : Channel n size) :
    Operation Registers (Channel n size) := do
  let ch ← receivePart i s.receive ch
  let ch ← transmitPart i s.transmit ch
  modemPart i s.modem
  return ch

theorem serviceEq (ch : Channel n size) :
    ch.service i = (do
      let byte ← read8 (Register.interrupts i)
      if (InterruptStatus.ofByte byte).any then do
        write8 (Register.interrupts i) (InterruptStatus.ofByte byte).toByte
        answerInterrupts i (.ofByte byte) ch
      else return ch) := by
  unfold service
  congr 1
  funext byte
  dsimp only
  split
  · simp only [answerInterrupts, receivePart, transmitPart, modemPart, Operation.bindIf]
    rfl
  · rfl

theorem receiveOff {asked : Bool} {ch : Channel n size} (off : (asked && ch.receiving) = false) :
    receivePart i asked ch = pure ch := by
  rw [receivePart, off]
  rfl

theorem transmitOff {asked : Bool} {ch : Channel n size}
    (off : (asked && ch.transmitting) = false) : transmitPart i asked ch = pure ch := by
  rw [transmitPart, off]
  rfl

theorem receiveOn {asked : Bool} {ch : Channel n size} (on : (asked && ch.receiving) = true) :
    receivePart i asked ch = ch.serviceReceive i := by
  rw [receivePart, on]
  rfl

theorem transmitOn {asked : Bool} {ch : Channel n size} (on : (asked && ch.transmitting) = true) :
    transmitPart i asked ch = ch.serviceTransmit i := by
  rw [transmitPart, on]
  rfl

structure Part (i : Nat) (d : Direction) (ch : Channel n size) (r : Registers)
    (ring : SlotRing n size) (traffic : Traffic) (news : List Action) (effect : Control → Control)
    (done : Outcome Registers (Channel n size)) : Prop where
  channel : done.answer = { ch with rings := ch.rings.withRing d ring, traffic := traffic }
  news : about i done.seen = news
  control : r.wiring.Plain i d → Control.of i d done.state = effect (Control.of i d r)

theorem partNone (d : Direction) (ch : Channel n size) (r : Registers) :
    Part i d ch r (ch.rings.ring d) ch.traffic [] id
      ((pure ch : Operation Registers (Channel n size)) r) := by
  refine ⟨?_, rfl, fun _ => rfl⟩
  cases d <;> rfl

structure Readings where
  asked : InterruptStatus
  receiveStatus : DmaStatus
  receiveAt : UInt32
  transmitStatus : DmaStatus
  transmitAt : UInt32
  signals : ModemSignals

def receiveAfter (g : Readings) (ch : Channel n size) : SlotRing n size :=
  if g.asked.receive && ch.receiving then receiveRing ch.rings.receive g.receiveStatus g.receiveAt
  else ch.rings.receive

def transmitAfter (g : Readings) (ch : Channel n size) : SlotRing n size :=
  if g.asked.transmit && ch.transmitting then
    (SlotRing.drain (ch.rings.transmit.completed g.transmitAt) ch.rings.transmit).2
  else ch.rings.transmit

def receiveCounted (g : Readings) (ch : Channel n size) : Traffic :=
  if g.asked.receive && ch.receiving then
    receiveCount ch.rings.receive ch.traffic g.receiveStatus g.receiveAt
  else ch.traffic

def transmitCounted (g : Readings) (ch : Channel n size) (t : Traffic) : Traffic :=
  if g.asked.transmit && ch.transmitting then
    transmitCount ch.rings.transmit t g.transmitStatus g.transmitAt
  else t

def receiveTold (i : Nat) (g : Readings) (ch : Channel n size) : List Action :=
  if g.asked.receive && ch.receiving then
    receiveNews i ch.rings.receive g.receiveStatus g.receiveAt
  else []

def transmitTold (i : Nat) (g : Readings) (ch : Channel n size) : List Action :=
  if g.asked.transmit && ch.transmitting then
    underrunNews i g.transmitStatus ++
      transmitNews i (ch.rings.transmit.completed g.transmitAt)
        (SlotRing.drain (ch.rings.transmit.completed g.transmitAt) ch.rings.transmit).1
  else []

def modemTold (i : Nat) (g : Readings) : List Action :=
  if g.asked.modem then [.event (.modemChanged i g.signals)] else []

def receiveControlAfter (g : Readings) (ch : Channel n size) (control : Control) : Control :=
  if g.asked.receive && ch.receiving then
    receiveControl ch.rings.receive g.receiveStatus control
  else control

structure Serviced (i : Nat) (ch : Channel n size) (r : Registers) (g : Readings)
    (done : Outcome Registers (Channel n size)) : Prop where
  channel : done.answer = { ch with
    rings := ⟨receiveAfter g ch, transmitAfter g ch⟩
    traffic := transmitCounted g ch (receiveCounted g ch) }
  news : about i done.seen = receiveTold i g ch ++ transmitTold i g ch ++ modemTold i g
  receiveControl : r.wiring.Plain i .receive → Control.of i .receive done.state =
    receiveControlAfter g ch (Control.of i .receive r)
  receiveReading : r.wiring.Plain i .receive → g.receiveAt = (Control.of i .receive r).current
  receiveStatus : g.receiveStatus = .ofByte (r.peek8 (Register.status i .receive))
  transmitControl : r.wiring.Plain i .transmit →
    Control.of i .transmit done.state = Control.of i .transmit r
  transmitReading : r.wiring.Plain i .transmit → g.transmitAt = (Control.of i .transmit r).current

namespace Serviced

variable {ch : Channel n size} {r : Registers} {g : Readings}
  {done : Outcome Registers (Channel n size)} (h : Serviced i ch r g done)
include h

theorem receive : done.answer.rings.receive = receiveAfter g ch := by rw [h.channel]

theorem transmit : done.answer.rings.transmit = transmitAfter g ch := by rw [h.channel]

theorem receiving : done.answer.receiving = ch.receiving := by rw [h.channel]

theorem transmitting : done.answer.transmitting = ch.transmitting := by rw [h.channel]

end Serviced

theorem modemNews (i : Nat) (asked : Bool) (r : Registers) :
    ∃ signals, about i (modemPart i asked r).seen =
      if asked then [.event (.modemChanged i signals)] else [] := by
  cases asked with
  | false => exact ⟨⟨false, false⟩, rfl⟩
  | true =>
    refine ⟨(Line.modem i r).answer, ?_⟩
    change about i ([.access _] ++ [.event _]) = _
    simp [about, Action.channel?, Event.channel]

section Parts

variable (few : i < Limits.maxChannels)
include few

theorem confinedReceivePart (asked : Bool) (ch : Channel n size) :
    Confined i (Register.Block i .receive) (receivePart i asked ch) :=
  confinedIf (confinedBind (confinedServiceReceive few _ _) fun _ => confinedPure _)
    (confinedPure _)

theorem confinedTransmitPart (asked : Bool) (ch : Channel n size) :
    Confined i (Register.Block i .transmit) (transmitPart i asked ch) :=
  confinedIf (confinedBind (confinedServiceTransmit few _ _) fun _ => confinedPure _)
    (confinedPure _)

omit few in
theorem confinedModemPart (asked : Bool) :
    Confined i (· = Register.modem i) (modemPart i asked) := by
  have told (signals : ModemSignals) :
      Confined i (· = Register.modem i) (Operation.raise (.modemChanged i signals)) := by
    refine confinedEmit fun a shown => ?_
    cases List.mem_singleton.mp shown
    intro j named
    exact (Option.some.inj named).symm
  exact confinedIf (confinedBind (confinedBind (confinedRead8 rfl) fun _ => confinedPure _)
    fun signals => told signals) (confinedPure _)

omit few in
theorem serviceReceiveApply (ch : Channel n size) (r : Registers) :
    ch.serviceReceive i r =
      ⟨{ ch with
          rings := (ch.rings.serviceReceive i ch.traffic r).answer.1
          traffic := (ch.rings.serviceReceive i ch.traffic r).answer.2 },
        (ch.rings.serviceReceive i ch.traffic r).state,
        (ch.rings.serviceReceive i ch.traffic r).seen⟩ := by
  rw [Channel.serviceReceive]
  simp

omit few in
theorem serviceTransmitApply (ch : Channel n size) (r : Registers) :
    ch.serviceTransmit i r =
      ⟨{ ch with
          rings := (ch.rings.serviceTransmit i ch.traffic r).answer.1
          traffic := (ch.rings.serviceTransmit i ch.traffic r).answer.2 },
        (ch.rings.serviceTransmit i ch.traffic r).state,
        (ch.rings.serviceTransmit i ch.traffic r).seen⟩ := by
  rw [Channel.serviceTransmit]
  simp

theorem receivePartDone (asked : Bool) (ch : Channel n size) (r : Registers) :
    ∃ s a, (r.wiring.Plain i .receive → a = (Control.of i .receive r).current) ∧
      s = .ofByte (r.peek8 (Register.status i .receive)) ∧
      Part i .receive ch r
        (if asked && ch.receiving then receiveRing ch.rings.receive s a else ch.rings.receive)
        (if asked && ch.receiving then receiveCount ch.rings.receive ch.traffic s a
        else ch.traffic)
        (if asked && ch.receiving then receiveNews i ch.rings.receive s a else [])
        (fun control =>
          if asked && ch.receiving then Duplex.receiveControl ch.rings.receive s control
          else control)
        (receivePart i asked ch r) := by
  obtain ⟨s, a, served⟩ := receiveServiced few ch.rings ch.traffic r
  refine ⟨s, a, fun plain => (served.control plain).1, served.status, ?_⟩
  cases on : asked && ch.receiving with
  | false =>
    rw [receiveOff on]
    exact partNone .receive ch r
  | true =>
    rw [receiveOn on, serviceReceiveApply]
    refine ⟨?_, served.news, fun plain => (served.control plain).2⟩
    simp only [served.rings, served.traffic, ↓reduceIte]

theorem transmitPartDone (asked : Bool) (ch : Channel n size) (r : Registers) :
    ∃ s a, (r.wiring.Plain i .transmit → a = (Control.of i .transmit r).current) ∧
      Part i .transmit ch r
        (if asked && ch.transmitting then
          (SlotRing.drain (ch.rings.transmit.completed a) ch.rings.transmit).2
        else ch.rings.transmit)
        (if asked && ch.transmitting then transmitCount ch.rings.transmit ch.traffic s a
        else ch.traffic)
        (if asked && ch.transmitting then
          underrunNews i s ++ transmitNews i (ch.rings.transmit.completed a)
            (SlotRing.drain (ch.rings.transmit.completed a) ch.rings.transmit).1
        else [])
        id (transmitPart i asked ch r) := by
  obtain ⟨s, a, served⟩ := transmitServiced few ch.rings ch.traffic r
  refine ⟨s, a, fun plain => (served.control plain).1, ?_⟩
  cases on : asked && ch.transmitting with
  | false =>
    rw [transmitOff on]
    exact partNone .transmit ch r
  | true =>
    rw [transmitOn on, serviceTransmitApply]
    refine ⟨?_, served.news, fun plain => (served.control plain).2⟩
    simp only [served.rings, served.traffic, ↓reduceIte]

theorem answered (s : InterruptStatus) (ch : Channel n size) (r : Registers) :
    ∃ g, g.asked = s ∧ Serviced i ch r g (answerInterrupts i s ch r) := by
  obtain ⟨one, first⟩ : ∃ one, receivePart i s.receive ch r = one := ⟨_, rfl⟩
  obtain ⟨two, second⟩ : ∃ two, transmitPart i s.transmit one.answer one.state = two := ⟨_, rfl⟩
  obtain ⟨three, third⟩ : ∃ three, modemPart i s.modem two.state = three := ⟨_, rfl⟩
  have whole : answerInterrupts i s ch r =
      ⟨two.answer, three.state, one.seen ++ (two.seen ++ three.seen)⟩ := by
    subst first second third
    simp [answerInterrupts]
  obtain ⟨rs, ra, receiveReading, receiveStatus, receive⟩ := receivePartDone few s.receive ch r
  obtain ⟨ts, ta, transmitReading, transmit⟩ :=
    transmitPartDone few s.transmit one.answer one.state
  obtain ⟨signals, modem⟩ := modemNews i s.modem two.state
  -- each part leaves the registers alone that the others read
  have receiveFrame := (confinedReceivePart few s.receive ch).frame r
  have transmitFrame := (confinedTransmitPart few s.transmit one.answer).frame one.state
  have modemFrame := (confinedModemPart (i := i) s.modem).frame two.state
  rw [first] at receive receiveFrame
  rw [second] at transmit transmitFrame
  rw [third] at modem modemFrame
  have ring : one.answer.rings.transmit = ch.rings.transmit := by rw [receive.channel]; rfl
  have on : one.answer.transmitting = ch.transmitting := by rw [receive.channel]
  have early : Control.of i .transmit one.state = Control.of i .transmit r :=
    controlCongr few (receiveFrame.mono (Register.blocksApart i (by decide)))
  have late (d : Direction) : Control.of i d three.state = Control.of i d two.state :=
    controlCongr few (modemFrame.mono fun o inside there => by
      subst there
      exact Register.modemOutside few d inside)
  refine ⟨⟨s, rs, ra, ts, ta, signals⟩, rfl, ?_⟩
  rw [whole]
  exact {
    channel := by
      rw [transmit.channel, ring, on, receive.channel]
      rfl
    news := by
      rw [aboutAppend, aboutAppend, receive.news, transmit.news, modem, ring, on,
        List.append_assoc]
      rfl
    receiveControl := fun plain => by
      have kept : Control.of i .receive two.state = Control.of i .receive one.state :=
        controlCongr few (transmitFrame.mono (Register.blocksApart i (by decide)))
      exact (late .receive).trans (kept.trans (receive.control plain))
    receiveReading := receiveReading
    receiveStatus := receiveStatus
    transmitControl := fun plain => by
      have plain' : one.state.wiring.Plain i .transmit := receiveFrame.wiring ▸ plain
      exact (late .transmit).trans ((transmit.control plain').trans early)
    transmitReading := fun plain => by
      have plain' : one.state.wiring.Plain i .transmit := receiveFrame.wiring ▸ plain
      exact (transmitReading plain').trans (congrArg Control.current early) }

omit few in
theorem servicedQuiet (s : InterruptStatus) (none : s.any = false) (ch : Channel n size)
    (r : Registers) : ∃ g, g.asked = s ∧
      Serviced i ch r g ((pure ch : Operation Registers (Channel n size)) r) := by
  obtain ⟨⟨receive, transmit⟩, modem⟩ : (s.receive = false ∧ s.transmit = false) ∧
      s.modem = false := by simpa [InterruptStatus.any] using none
  refine ⟨⟨s, .ofByte (r.peek8 (Register.status i .receive)), (Control.of i .receive r).current,
    .all, (Control.of i .transmit r).current, ⟨false, false⟩⟩, rfl, ?_⟩
  exact {
    channel := by
      simp [receiveAfter, transmitAfter, receiveCounted, transmitCounted, receive, transmit]
    news := by simp [receiveTold, transmitTold, modemTold, receive, transmit, modem, about]
    receiveControl := fun _ => by simp [receiveControlAfter, receive]
    receiveReading := fun _ => rfl
    receiveStatus := rfl
    transmitControl := fun _ => rfl
    transmitReading := fun _ => rfl }

omit few in
theorem servicedAfter {ch : Channel n size} {r r' : Registers} {g : Readings}
    {done : Outcome Registers (Channel n size)} {before : List Action}
    (served : Serviced i ch r' g done) (wiring : r'.wiring = r.wiring)
    (same : ∀ d, Control.of i d r' = Control.of i d r)
    (status : r'.peek8 (Register.status i .receive) = r.peek8 (Register.status i .receive))
    (quiet : about i before = []) :
    Serviced i ch r g ⟨done.answer, done.state, before ++ done.seen⟩ where
  channel := served.channel
  news := by rw [aboutAppend, quiet, List.nil_append, served.news]
  receiveControl plain := by rw [served.receiveControl (wiring ▸ plain), same]
  receiveReading plain := by rw [served.receiveReading (wiring ▸ plain), same]
  receiveStatus := by rw [served.receiveStatus, status]
  transmitControl plain := by rw [served.transmitControl (wiring ▸ plain), same]
  transmitReading plain := by rw [served.transmitReading (wiring ▸ plain), same]

theorem serviced (ch : Channel n size) (r : Registers) :
    ∃ g, g.asked = .ofByte (r.peek8 (Register.interrupts i)) ∧
      Serviced i ch r g (ch.service i r) := by
  obtain ⟨s, byte⟩ : ∃ s, InterruptStatus.ofByte (r.peek8 (Register.interrupts i)) = s := ⟨_, rfl⟩
  rw [byte]
  cases any : s.any with
  | false =>
    obtain ⟨g, asked, quiet⟩ := servicedQuiet (i := i) s any ch r
    have whole : ch.service i r =
        ⟨ch, r, [.access (.read8 (Register.interrupts i) (r.peek8 (Register.interrupts i)))] ++
          []⟩ := by
      rw [serviceEq]
      simp [read8, byte, any]
    rw [whole]
    exact ⟨g, asked, servicedAfter quiet rfl (fun _ => rfl) rfl rfl⟩
  | true =>
    obtain ⟨r', written⟩ : ∃ r', (write8 (Register.interrupts i) s.toByte r).state = r' := ⟨_, rfl⟩
    have frame := (confinedWrite8 (i := i) (t := (· = Register.interrupts i)) rfl s.toByte).frame r
    rw [written] at frame
    have same (d : Direction) : Control.of i d r' = Control.of i d r :=
      controlCongr few (frame.mono fun o inside there => by
        subst there
        exact Register.interruptsOutside few d inside)
    have status := frame.bytes _ (Register.statusNotInterrupts few .receive)
    obtain ⟨g, asked, told⟩ := answered few s ch r'
    have whole : ch.service i r =
        ⟨(answerInterrupts i s ch r').answer, (answerInterrupts i s ch r').state,
          [.access (.read8 (Register.interrupts i) (r.peek8 (Register.interrupts i))),
            .access (.write8 (Register.interrupts i) s.toByte)] ++
          (answerInterrupts i s ch r').seen⟩ := by
      rw [serviceEq, ← written]
      simp [read8, byte, any]
      rfl
    rw [whole]
    exact ⟨g, asked, servicedAfter told frame.wiring same status rfl⟩

end Parts

end Channel
end SerialAdapter
