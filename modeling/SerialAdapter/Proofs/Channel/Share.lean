import SerialAdapter.Proofs.Channel.Interrupts

/-! What a call on the board comes to for one channel. Every share lives inside the channel's own
registers, and most of them leave a given direction as it is. -/
namespace SerialAdapter

open Registers

inductive Share where
  | rest
  | init (setup : ChannelSetup) (place : Direction → Placement)
  | enable (direction : Direction) (on : Bool)
  | setMode (mode : ChannelMode)
  | resync
  | clear (scope : ClearScope)
  | send (data : Option Bytes) (length : Nat) (tag : UInt64)
  | prepare (data : Bytes)
  | service
  | tick

namespace Share

variable {n size : Nat}

def perform (i : Nat) (t : Thresholds) :
    Share → Channel n size → Operation Registers (Channel n size)
  | .rest, ch => pure ch
  | .init setup place, ch => ch.init i setup place t
  | .enable d on, ch => ch.enable i d on
  | .setMode mode, ch => ch.setMode i mode t
  | .resync, ch => pure (ch.resync t)
  | .clear scope, ch => pure (ch.clear scope)
  | .send data length tag, ch => do
    let (_, ch) ← ch.send i data length tag
    return ch
  | .prepare data, ch => pure (ch.prepare data).2
  | .service, ch => ch.service i
  | .tick, ch => do
    let (_, ch) ← ch.tick i t
    return ch

def Aside (d : Direction) : Share → Prop
  | .enable d' _ => d' ≠ d
  | .send .. | .prepare _ => d = .receive
  | .init .. | .service => False
  | .rest | .setMode _ | .resync | .clear _ | .tick => True

def switches (d : Direction) : Share → Bool
  | .init .. => true
  | .enable d' _ => d' = d
  | _ => false

theorem receiveCases {share : Share} (started : ∀ setup place, share ≠ .init setup place) :
    share = .service ∨ (∃ on, share = .enable .receive on) ∨ share.Aside .receive := by
  cases share with
  | init setup place => exact (started setup place rfl).elim
  | service => exact .inl rfl
  | enable d on =>
    cases d with
    | receive => exact .inr (.inl ⟨on, rfl⟩)
    | transmit => exact .inr (.inr (by simp [Aside]))
  | _ => exact .inr (.inr (by simp [Aside]))

theorem asideStays {d : Direction} {share : Share} (aside : share.Aside d) :
    share.switches d = false := by
  cases share with
  | init setup place => exact aside.elim
  | enable d' on => exact decide_eq_false aside
  | _ => rfl

end Share

def enabledRing {n size : Nat} (d : Direction) (on : Bool) (ring : SlotRing n size) :
    SlotRing n size :=
  match d, on with
  | .receive, true => ring.reset.fill
  | _, _ => ring.reset

def enabledControl {n size : Nat} (d : Direction) (on : Bool) (ring : SlotRing n size)
    (control : Control) : Control :=
  match d, on with
  | .receive, true => Duplex.receiveStarted ring
  | .transmit, true =>
    { current := ring.reset.address 0
      stop := ring.reset.address 0
      bufferLength := control.bufferLength
      command := Register.startCommand
      interruptEnable := Register.interruptsOn }
  | _, false => { control with command := Register.abortCommand, interruptEnable := 0 }

theorem enableAnswer {n size : Nat} (i : Nat) (d : Direction) (on : Bool) (ch : Channel n size)
    (r : Registers) : (ch.enable i d on r).answer =
      { ch with rings := ch.rings.withRing d (enabledRing d on (ch.rings.ring d)) }.withEnabled
        d on := by
  cases on <;> cases d <;> rfl

theorem enableRest {n size : Nat} (i : Nat) (d : Direction) (on : Bool) (ch : Channel n size)
    (r : Registers) : (ch.enable i d on r).answer.setup = ch.setup ∧
      (ch.enable i d on r).answer.traffic = ch.traffic ∧
      (ch.enable i d on r).answer.line = ch.line := by
  rw [enableAnswer]
  cases d <;> exact ⟨rfl, rfl, rfl⟩

theorem drivesEnable {n size i : Nat} (few : i < Limits.maxChannels) (d : Direction) (on : Bool)
    (ch : Channel n size) : Drives i d (ch.enable i d on)
      (enabledControl d on (ch.rings.ring d)) [.notice (.enabled i d on)] := by
  have told : Drives i d (Operation.notify (.enabled i d on)) id [.notice (.enabled i d on)] :=
    drivesEmit fun a shown => by
      cases List.mem_singleton.mp shown
      rfl
  have rest (rings : Duplex n size) := drivesBind told fun _ =>
    drivesPure (i := i) (d := d) ({ ch with rings := rings }.withEnabled d on)
  cases on with
  | false => cases d <;> exact drivesBind (Duplex.drivesStop few ch.rings) rest
  | true =>
    cases d with
    | receive => exact drivesBind (Duplex.drivesStartReceive few ch.rings) rest
    | transmit => exact drivesBind (Duplex.drivesStartTransmit few ch.rings) rest

section Send

variable {n size : Nat} {ch : Channel n size} {data : Option Bytes} {length : Nat} {tag : UInt64}

theorem sendRefused (i : Nat) {cause : SendError}
    (refused : ch.rings.transmit.enqueue data length tag = .error cause) :
    ch.send i data length tag = pure (.error cause, ch) := by
  simp only [Channel.send, Duplex.send, refused]
  rfl

theorem sendAccepted (i : Nat) {taken : Nat × SlotRing n size}
    (ok : ch.rings.transmit.enqueue data length tag = .ok taken) :
    ch.send i data length tag = (do
      Dma.setStop i .transmit (taken.2.address taken.2.next)
      Dma.start i .transmit
      return (.ok (), { ch with rings := ch.rings.withRing .transmit taken.2 })) := by
  simp only [Channel.send, Duplex.send, ok]
  rfl

end Send

section Confined

variable {n size i : Nat} (few : i < Limits.maxChannels)
include few

omit few in
theorem confinedProgramMode (t : Thresholds) (ch : Channel n size) :
    Confined i (· = Register.mode i) (ch.programMode i t) :=
  confinedBind (confinedWrite8 (t := (· = Register.mode i)) rfl _) fun _ => confinedPure _

theorem confinedSend (data : Option Bytes) (length : Nat) (tag : UInt64) (ch : Channel n size) :
    Confined i (Register.Block i .transmit) (ch.send i data length tag) := by
  cases queued : ch.rings.transmit.enqueue data length tag with
  | error cause =>
    rw [sendRefused i queued]
    exact confinedPure _
  | ok taken =>
    rw [sendAccepted i queued]
    exact (Duplex.drivesHandOver few _ _).confined

def Register.LineBlock (i : Nat) (o : UInt16) : Prop :=
  256 * (i + 1) + 64 ≤ o.toNat ∧ o.toNat < 256 * (i + 1) + 76

theorem inLineBlock {k : Nat} (low : k < 12) :
    Register.LineBlock i (Register.lineBlock i + UInt16.ofNat k) := by
  have place := Register.offsetNat few (k := 64 + k) (by omega)
  have split : Register.lineBlock i + UInt16.ofNat k =
      Register.channelBlock i + UInt16.ofNat (64 + k) := by
    rw [Register.lineBlock, UInt16.add_assoc, UInt16.ofNat_add]
    rfl
  rw [Register.LineBlock, split, place]
  omega

theorem confinedLineWord {k : Nat} (low : k < 11) :
    Confined i (Register.LineBlock i) (read16 (Register.lineBlock i + UInt16.ofNat k)) := by
  have first := inLineBlock few (k := k) (by omega)
  have second := inLineBlock few (k := k + 1) (by omega)
  rw [UInt16.ofNat_add, ← UInt16.add_assoc] at second
  exact confinedRead16 first second

theorem confinedSample : Confined i (Register.LineBlock i) (Line.sample i) :=
  confinedBind (confinedWrite8 (inLineBlock few (k := 10) (by decide)) 1) fun _ =>
    confinedBind (confinedRead8 (inLineBlock few (k := 0) (by decide))) fun _ =>
    confinedBind (confinedLineWord few (k := 2) (by decide)) fun _ =>
    confinedBind (confinedLineWord few (k := 4) (by decide)) fun _ =>
    confinedBind (confinedLineWord few (k := 6) (by decide)) fun _ =>
    confinedBind (confinedLineWord few (k := 8) (by decide)) fun _ => confinedPure _

omit few in
theorem observeSeen (mode : ChannelMode) (crc4 : Bool) (s : Telemetry.Sample) (t : Thresholds)
    (m : Telemetry.Monitor) : ∃ kept, (Telemetry.Monitor.observe mode crc4 s t m).seen = [] ∨
      (Telemetry.Monitor.observe mode crc4 s t m).seen = [.notice (.intervalClosed kept)] := by
  refine ⟨(m.record mode crc4 s t).2.history.length, ?_⟩
  simp only [Telemetry.Monitor.observe]
  split
  · exact .inr rfl
  · exact .inl rfl

theorem confinedTick (t : Thresholds) (ch : Channel n size) :
    Confined i (Register.LineBlock i) (ch.tick i t) := by
  refine confinedIf (confinedBind (confinedSample few) fun s => ?_) (confinedPure _)
  refine confinedBind (confinedEmit fun a shown => ?_) fun _ => confinedPure _
  obtain ⟨kept, none | closed⟩ := observeSeen ch.setup.mode ch.setup.crc4 s t ch.line
  · rw [none] at shown
    contradiction
  · rw [closed] at shown
    cases List.mem_singleton.mp shown
    intro j named
    contradiction

def Register.Served (i : Nat) (o : UInt16) : Prop :=
  o = interrupts i ∨ o = modem i ∨ ∃ d, Block i d o

theorem confinedServed (ch : Channel n size) :
    Confined i (Register.Served i) (ch.service i) := by
  rw [Channel.serviceEq]
  have interrupts : Register.Served i (Register.interrupts i) := .inl rfl
  refine confinedBind (confinedRead8 interrupts) fun byte => confinedIf ?_ (confinedPure _)
  refine confinedBind (confinedWrite8 interrupts _) fun _ => ?_
  refine confinedBind ?_ fun ch => confinedBind ?_ fun ch => confinedBind ?_ fun _ =>
    confinedPure _
  · exact confinedMono (Channel.confinedReceivePart few _ _) fun _ inside => .inr (.inr ⟨_, inside⟩)
  · exact confinedMono (Channel.confinedTransmitPart few _ _) fun _ inside =>
      .inr (.inr ⟨_, inside⟩)
  · exact confinedMono (Channel.confinedModemPart _) fun o there => .inr (.inl there)

theorem confinedService (ch : Channel n size) :
    Confined i (Register.Window i) (ch.service i) := by
  refine confinedMono (confinedServed few ch) fun o served => ?_
  rcases served with rfl | rfl | ⟨d, inside⟩
  · exact Register.inWindow few (k := 0) (by decide)
  · exact Register.inWindow few (k := 2) (by decide)
  · exact Register.blockInWindow inside

theorem confinedInit (setup : ChannelSetup) (place : Direction → Placement) (t : Thresholds)
    (ch : Channel n size) : Confined i (Register.Window i) (ch.init i setup place t) := by
  have off (d : Direction) (rings : Duplex n size) :
      Confined i (Register.Window i) (rings.stop i d) :=
    confinedMono (Duplex.drivesStop few rings).confined fun _ => Register.blockInWindow
  exact confinedBind (off .receive _) fun rings => confinedBind (off .transmit rings) fun _ =>
    confinedMono (confinedProgramMode t _) fun o there =>
      there ▸ Register.inWindow few (k := 1) (by decide)

theorem confinedShare (share : Share) (t : Thresholds) (ch : Channel n size) :
    Confined i (Register.Window i) (share.perform i t ch) := by
  cases share with
  | rest => exact confinedPure _
  | init setup place => exact confinedInit few setup place t ch
  | enable d on =>
    exact confinedMono (drivesEnable few d on ch).confined fun _ => Register.blockInWindow
  | setMode mode =>
    exact confinedMono (confinedProgramMode t _) fun o there =>
      there ▸ Register.inWindow few (k := 1) (by decide)
  | resync => exact confinedPure _
  | clear scope => exact confinedPure _
  | send data length tag =>
    have sent := confinedBind (confinedSend few data length tag ch) fun result =>
      confinedPure result.2
    exact confinedMono sent fun _ => Register.blockInWindow
  | prepare data => exact confinedPure _
  | service => exact confinedService few ch
  | tick =>
    have ticked := confinedBind (confinedTick few t ch) fun result => confinedPure result.2
    exact confinedMono ticked fun o inside => by
      unfold Register.LineBlock at inside
      unfold Register.Window
      omega

end Confined

structure Kept {n size : Nat} (i : Nat) (d : Direction) (ch : Channel n size) (r : Registers)
    (done : Outcome Registers (Channel n size)) : Prop where
  ring : done.answer.rings.ring d = ch.rings.ring d
  enabled : done.answer.isEnabled d = ch.isEnabled d
  control : Control.of i d done.state = Control.of i d r
  quiet : ∀ a ∈ about i done.seen, ∃ d' on, a = .notice (.enabled i d' on)

section Kept

variable {n size i : Nat} (few : i < Limits.maxChannels)
include few

theorem enableKeeps {d d' : Direction} (other : d' ≠ d) (on : Bool) (ch : Channel n size)
    (r : Registers) : Kept i d ch r (ch.enable i d' on r) where
  ring := by
    rw [enableAnswer]
    cases d <;> cases d' <;> first | contradiction | rfl
  enabled := by
    rw [enableAnswer]
    cases d <;> cases d' <;> first | contradiction | rfl
  control := controlFrame few (drivesEnable few d' on ch).confined
    (Register.blocksApart i (Ne.symm other)) r
  quiet a shown := by
    rw [(drivesEnable few d' on ch).news] at shown
    exact ⟨d', on, List.mem_singleton.mp shown⟩

theorem programModeKeeps (d : Direction) (t : Thresholds) (ch : Channel n size) (r : Registers) :
    Kept i d ch r (ch.programMode i t r) where
  ring := by
    simp only [Channel.programMode, Operation.bindApply]
    split <;> rfl
  enabled := by
    simp only [Channel.programMode, Operation.bindApply]
    split <;> cases d <;> rfl
  control := controlFrame few (confinedProgramMode t ch) (fun o inside there => by
    subst there
    exact Register.outsideBlocks few d (k := 1) (by decide) (by decide) inside) r
  quiet a shown := by contradiction

theorem sendKeeps (t : Thresholds) (data : Option Bytes) (length : Nat) (tag : UInt64)
    (ch : Channel n size) (r : Registers) :
    Kept i .receive ch r ((Share.send data length tag).perform i t ch r) := by
  cases queued : ch.rings.transmit.enqueue data length tag with
  | error cause =>
    rw [Share.perform, sendRefused i queued]
    exact ⟨rfl, rfl, rfl, fun a shown => by contradiction⟩
  | ok taken =>
    have sent := drivesBind (Duplex.drivesHandOver few (d := .transmit)
      (taken.2.address taken.2.next) ((.ok () : Except SendError Unit),
        { ch with rings := ch.rings.withRing .transmit taken.2 })) fun result =>
      drivesPure (i := i) (d := .transmit) result.2
    rw [Share.perform, sendAccepted i queued]
    refine ⟨rfl, rfl, controlFrame few sent.confined (Register.blocksApart i (by decide)) r,
      fun a shown => ?_⟩
    have none := sent.news r
    rw [none] at shown
    contradiction

theorem tickKeeps (d : Direction) (t : Thresholds) (ch : Channel n size) (r : Registers) :
    Kept i d ch r (Share.tick.perform i t ch r) := by
  have confined := confinedTick few t ch
  have apart (o : UInt16) (inside : Register.Block i d o) : ¬ Register.LineBlock i o := by
    have start := Register.blockStartLt d
    unfold Register.Block at inside
    unfold Register.LineBlock
    omega
  have control := controlFrame few confined apart r
  obtain ⟨kept, told⟩ := observeSeen ch.setup.mode ch.setup.crc4 (Line.sample i r).answer t ch.line
  have sampled : about i (Line.sample i r).seen = [] := rfl
  have quiet : about i (Share.tick.perform i t ch r).seen = [] := by
    simp only [Share.perform, Operation.bindApply, Operation.pureApply, List.append_nil,
      Channel.tick]
    split
    · simp only [Operation.bindApply, aboutAppend, sampled, Channel.recordSecond, Operation.emit,
        Operation.pureApply, List.append_nil]
      rcases told with none | closed
      · rw [none]
        rfl
      · rw [closed]
        rfl
    · rfl
  refine ⟨?_, ?_, control, fun a shown => ?_⟩
  · simp only [Share.perform, Operation.bindApply, Operation.pureApply, Channel.tick]
    split <;> rfl
  · simp only [Share.perform, Operation.bindApply, Operation.pureApply, Channel.tick]
    split <;> cases d <;> rfl
  · rw [quiet] at shown
    contradiction

theorem asideKeeps {d : Direction} {share : Share} (aside : share.Aside d) (t : Thresholds)
    (ch : Channel n size) (r : Registers) : Kept i d ch r (share.perform i t ch r) := by
  cases share with
  | rest => exact ⟨rfl, rfl, rfl, fun a shown => by contradiction⟩
  | init setup place => exact aside.elim
  | enable d' on => exact enableKeeps few aside on ch r
  | setMode mode =>
    have kept := programModeKeeps few d t { ch with setup := { ch.setup with mode := mode } } r
    exact ⟨kept.ring, kept.enabled.trans (by cases d <;> rfl), kept.control, kept.quiet⟩
  | resync => exact ⟨rfl, by cases d <;> rfl, rfl, fun a shown => by contradiction⟩
  | clear scope =>
    exact ⟨by cases scope <;> rfl, by cases d <;> cases scope <;> rfl, rfl,
      fun a shown => by contradiction⟩
  | send data length tag =>
    cases aside
    exact sendKeeps few t data length tag ch r
  | prepare data =>
    cases aside
    exact ⟨rfl, rfl, rfl, fun a shown => by contradiction⟩
  | service => exact aside.elim
  | tick => exact tickKeeps few d t ch r

end Kept

structure Fresh {n size : Nat} (i : Nat) (d : Direction) (ch : Channel n size) (r : Registers) :
    Prop where
  ring : ∃ old : SlotRing n size, old.Linked ∧ ch.rings.ring d = old.reset
  enabled : ch.isEnabled d = false
  command : r.wiring.Plain i d → (Control.of i d r).command = Register.abortCommand
  interrupts : r.wiring.Plain i d → (Control.of i d r).interruptEnable = 0

theorem initFresh {n size i : Nat} (few : i < Limits.maxChannels) (filled : 0 < n)
    (d : Direction) (setup : ChannelSetup) (place : Direction → Placement) (t : Thresholds)
    (ch : Channel n size) (r : Registers) :
    Fresh i d (ch.init i setup place t r).answer (ch.init i setup place t r).state := by
  let placed := ch.rings.layout place
  have stopped := (Duplex.drivesStop few placed (d := .receive)).confined.frame r
  let one := placed.stop i .receive r
  let two := one.answer.stop i .transmit one.state
  let last : Channel n size := { setup := setup, rings := two.answer, line := ch.line.clear }
  have kept := programModeKeeps few d t last two.state
  have whole : ch.init i setup place t r =
      ⟨(last.programMode i t two.state).answer, (last.programMode i t two.state).state,
        one.seen ++ (two.seen ++ (last.programMode i t two.state).seen)⟩ := rfl
  have off (plain : (last.programMode i t two.state).state.wiring.Plain i d) :
      ∃ control : Control, Control.of i d (last.programMode i t two.state).state =
        { control with command := Register.abortCommand, interruptEnable := 0 } := by
    rw [kept.control]
    have programmed := ((confinedProgramMode (i := i) t last).frame two.state).wiring
    have later := ((Duplex.drivesStop few one.answer (d := .transmit)).confined.frame
      one.state).wiring
    have between : one.state.wiring.Plain i d := later ▸ programmed ▸ plain
    have before : r.wiring.Plain i d := stopped.wiring ▸ between
    cases d with
    | receive =>
      have apart := controlFrame few (Duplex.drivesStop few one.answer (d := .transmit)).confined
        (Register.blocksApart i (by decide : Direction.receive ≠ .transmit)) one.state
      rw [apart, (Duplex.drivesStop few placed (d := .receive)).control r before]
      exact ⟨_, rfl⟩
    | transmit =>
      rw [(Duplex.drivesStop few one.answer (d := .transmit)).control one.state between]
      exact ⟨_, rfl⟩
  rw [whole]
  refine ⟨?_, ?_, fun plain => ?_, fun plain => ?_⟩
  · rw [kept.ring]
    cases d with
    | receive => exact ⟨placed.receive, SlotRing.linkedLayout filled _ _, rfl⟩
    | transmit => exact ⟨placed.transmit, SlotRing.linkedLayout filled _ _, rfl⟩
  · rw [kept.enabled]
    cases d <;> rfl
  · obtain ⟨control, same⟩ := off plain
    rw [same]
  · obtain ⟨control, same⟩ := off plain
    rw [same]

end SerialAdapter
