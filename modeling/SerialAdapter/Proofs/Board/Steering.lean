import SerialAdapter.Proofs.Board.Hostile
import SerialAdapter.Proofs.Board.Lane

/-! What steers the controllers is what the driver believes of them. Between two calls the hardware
may move its current addresses, raise interrupts, count on its lines and write into every ring; the
mode, the commands, the stop addresses and the interrupt enables stay those of the set-up and the
rings. Nothing here says that a controller obeys them. -/
namespace SerialAdapter

variable {c n size i : Nat}

namespace Register

inductive Sensed (c : Nat) : UInt16 → Prop where
  | summary : Sensed c boardInterrupts
  | interrupts {i : Nat} (low : i < c) : Sensed c (interrupts i)
  | modem {i : Nat} (low : i < c) : Sensed c (modem i)
  | status {i : Nat} (low : i < c) (d : Direction) : Sensed c (status i d)
  | current {i k : Nat} (low : i < c) (d : Direction) (byte : k < 4) :
      Sensed c (current i d + UInt16.ofNat k)
  | line {i : Nat} {o : UInt16} (low : i < c) (inside : LineBlock i o) : Sensed c o

def SensedAt (k : Nat) : Prop :=
  k = 0 ∨ k = 2 ∨ k = 26 ∨ k = 42 ∨ (16 ≤ k ∧ k < 20) ∨ (32 ≤ k ∧ k < 36) ∨ (64 ≤ k ∧ k < 76)

theorem sensedPlace (few : c ≤ Limits.maxChannels) {o : UInt16} (sensed : Sensed c o) :
    o.toNat = 0 ∨ ∃ j k, SensedAt k ∧ o.toNat = 256 * (j + 1) + k := by
  cases sensed with
  | summary => exact .inl rfl
  | interrupts low =>
    exact .inr ⟨_, 0, by simp [SensedAt], offsetNat (Nat.lt_of_lt_of_le low few) (by decide)⟩
  | modem low =>
    exact .inr ⟨_, 2, by simp [SensedAt], offsetNat (Nat.lt_of_lt_of_le low few) (by decide)⟩
  | status low d =>
    have place := dmaNat (Nat.lt_of_lt_of_le low few) d (k := 10) (by decide)
    refine .inr ⟨_, blockStart d + 10, ?_, place.trans (Nat.add_assoc _ _ _)⟩
    cases d <;> simp [SensedAt, blockStart]
  | @current j k low d byte =>
    have place := dmaNat (Nat.lt_of_lt_of_le low few) d (k := k) (by omega)
    refine .inr ⟨j, blockStart d + k, ?_, ?_⟩
    · cases d <;> simp only [SensedAt, blockStart] <;> omega
    · rw [Register.current, UInt16.add_zero, place, Nat.add_assoc]
  | @line j _ low inside =>
    unfold LineBlock at inside
    exact .inr ⟨j, o.toNat - 256 * (j + 1), by unfold SensedAt; omega, by omega⟩

theorem settingOwn (few : c ≤ Limits.maxChannels) (low : i < c) {d : Direction} {o : UInt16}
    (own : Setting i d o) : ¬ Sensed c o := by
  obtain ⟨⟨block, other⟩, high⟩ := own
  have status : o.toNat ≠ 256 * (i + 1) + blockStart d + 10 := fun same =>
    other (UInt16.toNat_inj.mp (same.trans
      (dmaNat (Nat.lt_of_lt_of_le low few) d (k := 10) (by decide)).symm))
  intro sensed
  rcases sensedPlace few sensed with bottom | ⟨j, k, at_, place⟩
  · omega
  · unfold Block at block
    unfold SensedAt at at_
    cases d <;> simp only [blockStart] at block high status <;> omega

theorem modeOwn (few : c ≤ Limits.maxChannels) (low : i < c) : ¬ Sensed c (mode i) := by
  have here : (mode i).toNat = 256 * (i + 1) + 1 :=
    offsetNat (Nat.lt_of_lt_of_le low few) (k := 1) (by decide)
  intro sensed
  rcases sensedPlace few sensed with bottom | ⟨j, k, at_, place⟩
  · omega
  · unfold SensedAt at at_
    omega

end Register

structure Wiring.Cells (w : Wiring) (c : Nat) : Prop where
  plain : ∀ (i : Fin c) (d : Direction), w.Plain i d
  mode : ∀ i : Fin c, w.clearsOnWrite (Register.mode i) = false

theorem boardCells (few : c ≤ Limits.maxChannels) : (Wiring.board c).Cells c where
  plain i d := boardPlain few i.isLt d
  mode i := (sideEffectFree few i.isLt (k := 1) (by decide) (by decide)).1

def Strike.Gentle : Strike c n size → Prop
  | .call _ => True
  | .noise w => ∀ b, Alike (fun o => ¬ Register.Sensed c o) b.registers (w.change b).registers

def Noise.poke (o : UInt16) (value : UInt8) : Noise c n size where
  change b := { b with registers := b.registers.poke8 o value }
  tampers _ := ⟨fun _ => ⟨fun _ => .refl _, rfl⟩, rfl⟩

theorem pokeGentle {o : UInt16} (sensed : Register.Sensed c o) (value : UInt8) :
    (Strike.noise (.poke o value) : Strike c n size).Gentle := fun b =>
  outsidePoke8 sensed b.registers value

structure Lane.Driven (d : Direction) (l : Lane n size) : Prop where
  command : l.control.command = Register.startCommand
  interrupts : l.control.interruptEnable = Register.interruptsOn
  stop : l.control.stop = l.ring.address l.ring.next
  length : d = .receive → l.control.bufferLength.toNat = size
  full : d = .receive → l.ring.free = 0

structure Lane.Parked (l : Lane n size) : Prop where
  command : l.control.command = Register.abortCommand
  interrupts : l.control.interruptEnable = 0
  oldest : l.ring.oldest = 0
  next : l.ring.next = 0
  free : l.ring.free = n - 1
  tags : ∀ k, (l.ring.slot k).tag = none

structure Lane.InStep (d : Direction) (l : Lane n size) : Prop where
  on : l.on = true → l.Driven d
  off : l.on = false → l.Parked

theorem parkedReset {old : SlotRing n size} {control : Control} (filled : 0 < n)
    (command : control.command = Register.abortCommand) (interrupts : control.interruptEnable = 0)
    (on : Bool) : Lane.Parked ⟨old.reset, control, on⟩ where
  command := command
  interrupts := interrupts
  oldest := rfl
  next := rfl
  free := Nat.mod_eq_of_lt (by omega : n + 0 - 0 - 1 < n)
  tags k := by simp [SlotRing.slotReset filled, Slot.release]

theorem fullFree {ring : SlotRing n size} (indexed : ring.Indexed)
    (armed : ring.inFlight = n - 1) : ring.free = 0 := by
  have sum := SlotRing.freeAddInFlight indexed
  omega

theorem inStepTampered {d : Direction} {l : Lane n size} (h : l.InStep d) {ring : SlotRing n size}
    (tampered : l.ring.Tampered ring) (a : UInt32) :
    Lane.InStep d ⟨ring, { l.control with current := a }, l.on⟩ where
  on on :=
    have driven := h.on on
    { command := driven.command
      interrupts := driven.interrupts
      stop := by
        rw [SlotRing.addressBase tampered.base, tampered.next]
        exact driven.stop
      length := driven.length
      full := fun same => by
        have free := driven.full same
        simp only [SlotRing.free, tampered.oldest, tampered.next] at free ⊢
        exact free }
  off off :=
    have parked := h.off off
    { command := parked.command
      interrupts := parked.interrupts
      oldest := tampered.oldest.trans parked.oldest
      next := tampered.next.trans parked.next
      free := by
        have free := parked.free
        simp only [SlotRing.free, tampered.oldest, tampered.next] at free ⊢
        exact free
      tags := fun k => (tampered.tags k).trans (parked.tags k) }

theorem modifyTampered (filled : 0 < n) (ring : SlotRing n size) (k : Nat)
    {change : Slot size → Slot size} (keeps : ∀ s, (change s).tag = s.tag) :
    ring.Tampered (ring.modifySlot k change) := by
  refine ⟨rfl, rfl, rfl, fun j => ?_⟩
  rw [SlotRing.slotModify filled]
  split
  · exact keeps _
  · rfl

theorem inStepSwitch (filled : 0 < n) (fits : size ≤ Limits.maxBufferSize) (d : Direction)
    (on : Bool) (l : Lane n size) : (l.switch d on).InStep d := by
  cases on with
  | false =>
    refine ⟨fun on => by contradiction, fun _ => ?_⟩
    cases d <;> exact parkedReset filled rfl rfl _
  | true =>
    refine ⟨fun _ => ?_, fun off => by contradiction⟩
    cases d with
    | receive =>
      have started : l.ring.reset.fill.Indexed ∧ l.ring.reset.fill.inFlight = n - 1 :=
        soundStarted filled
      have small : size < UInt16.size := by
        unfold Limits.maxBufferSize at fits
        unfold UInt16.size
        omega
      exact ⟨rfl, rfl, rfl, fun _ => UInt16.toNat_ofNat_of_lt' small,
        fun _ => fullFree started.1 started.2⟩
    | transmit => exact ⟨rfl, rfl, rfl, fun same => by contradiction, fun same => by contradiction⟩

section Steps

variable (fits : size ≤ Limits.maxBufferSize)
include fits

theorem transmitInStep {l l' : Lane n size} {started : Bool} {frames : List Bytes}
    {sent : List (Slot size)} (h : l.InStep .transmit) (indexed : l.ring.Indexed)
    (step : TransmitStep l started frames sent l') : l'.InStep .transmit := by
  have filled := indexed.filled
  cases step with
  | still => exact h
  | switched on => exact inStepSwitch filled fits .transmit on l
  | taken on whole ok =>
    have driven := h.on on
    exact ⟨fun _ => ⟨rfl, driven.interrupts, rfl, fun same => by contradiction,
      fun same => by contradiction⟩, fun off => absurd (on.symm.trans off) (by decide)⟩
  | prepared data =>
    have tampered : l.ring.Tampered (l.ring.prepare data).2 := by
      unfold SlotRing.prepare
      split
      · exact .refl _
      · exact modifyTampered filled l.ring _ fun _ => rfl
    exact inStepTampered h tampered l.control.current
  | drained on =>
    have driven := h.on on
    have done := SlotRing.drained indexed (SlotRing.completedLe l.ring l.control.current)
    refine ⟨fun _ => ⟨driven.command, driven.interrupts, ?_, fun same => by contradiction,
      fun same => by contradiction⟩, fun off => absurd (on.symm.trans off) (by decide)⟩
    rw [SlotRing.addressBase done.base, done.next]
    exact driven.stop
  | walked running there => exact inStepTampered h (.refl _) _

theorem receiveInStep {l l' : Lane n size} {started : Bool} {written : List (Slot size)}
    (h : l.InStep .receive) (indexed : l.ring.Indexed) (step : ReceiveStep l started written l') :
    l'.InStep .receive := by
  have filled := indexed.filled
  cases step with
  | still => exact h
  | switched on => exact inStepSwitch filled fits .receive on l
  | @collected s on fine =>
    have driven := h.on on
    refine ⟨fun _ => ?_, fun off => absurd (on.symm.trans off) (by decide)⟩
    have done := SlotRing.collected indexed (SlotRing.completedLe l.ring l.control.current)
    have free : (Duplex.receiveRing l.ring s l.control.current).free = 0 := by
      have sum := SlotRing.freeAddInFlight done.indexed
      have before := SlotRing.freeAddInFlight indexed
      have full := driven.full rfl
      have same := done.inFlight
      simp only [Duplex.receiveRing, fine, Bool.false_eq_true, ↓reduceIte]
      omega
    by_cases some : 0 < l.ring.completed l.control.current
    · have moved : Duplex.receiveControl l.ring s l.control =
          { l.control with
            stop := (Duplex.receiveRing l.ring s l.control.current).address
              (Duplex.receiveRing l.ring s l.control.current).next
            command := Register.startCommand } := by simp [Duplex.receiveControl, fine, some]
      rw [moved]
      exact ⟨rfl, driven.interrupts, rfl, driven.length, fun _ => free⟩
    · have none : l.ring.completed l.control.current = 0 := by omega
      have control : Duplex.receiveControl l.ring s l.control = l.control := by
        simp [Duplex.receiveControl, fine, some]
      have ring : Duplex.receiveRing l.ring s l.control.current = l.ring := by
        simp [Duplex.receiveRing, fine, none, SlotRing.collect]
      rw [control, ring]
      exact ⟨driven.command, driven.interrupts, driven.stop, driven.length, driven.full⟩
  | @filled k ring running there frame length status changed =>
    subst changed
    have tampered : l.ring.Tampered (l.ring.modifySlot k (·.complete frame length status)) :=
      modifyTampered filled l.ring k fun _ => rfl
    exact inStepTampered h tampered _

end Steps

def Channel.Programmed (i : Nat) (ch : Channel n size) (r : Registers) : Prop :=
  r.peek8 (Register.mode i) = ch.setup.register

theorem programmedMode {r : Registers} (cell : r.wiring.clearsOnWrite (Register.mode i) = false)
    (t : Thresholds) (ch : Channel n size) :
    (ch.programMode i t r).answer.Programmed i (ch.programMode i t r).state := by
  have setup : (ch.programMode i t r).answer.setup = ch.setup := by
    simp only [Channel.programMode, Operation.bindApply]
    split <;> rfl
  unfold Channel.Programmed
  rw [setup]
  simp [Channel.programMode, Registers.write8, cell, Registers.peekPoke8]

section Mode

variable (few : i < Limits.maxChannels) {ch : Channel n size} {r : Registers}

theorem programmedApart {op : Operation Registers (Channel n size)} {t : UInt16 → Prop}
    (h : ch.Programmed i r) (confined : Confined i t op) (apart : ¬ t (Register.mode i))
    (setup : (op r).answer.setup = ch.setup) : (op r).answer.Programmed i (op r).state := by
  unfold Channel.Programmed
  rw [setup, (confined.frame r).bytes _ apart]
  exact h

include few

theorem modeApart (d : Direction) : ¬ Register.Block i d (Register.mode i) :=
  Register.outsideBlocks few d (k := 1) (by decide) (by decide)

theorem modeServed : ¬ Register.Served i (Register.mode i) := by
  have apart (k : Nat) (low : k < 256) (other : 1 ≠ k) :=
    offsetsApart few few (k := 1) (by decide) low other
  rintro (same | same | ⟨d, inside⟩)
  · exact apart 0 (by decide) (by decide) same
  · exact apart 2 (by decide) (by decide) same
  · exact modeApart few d inside

theorem modeLine : ¬ Register.LineBlock i (Register.mode i) := by
  have place : (Register.mode i).toNat = _ := Register.offsetNat few (k := 1) (by decide)
  unfold Register.LineBlock
  omega

theorem programmedInit (cell : r.wiring.clearsOnWrite (Register.mode i) = false)
    (setup : ChannelSetup) (place : Direction → Placement) (t : Thresholds) :
    (ch.init i setup place t r).answer.Programmed i (ch.init i setup place t r).state := by
  let placed := ch.rings.layout place
  let one := placed.stop i .receive r
  let two := one.answer.stop i .transmit one.state
  have first := ((Duplex.drivesStop few placed (d := .receive)).confined.frame r).wiring
  have second := ((Duplex.drivesStop few one.answer (d := .transmit)).confined.frame
    one.state).wiring
  have wiring : two.state.wiring = r.wiring := second.trans first
  have still : two.state.wiring.clearsOnWrite (Register.mode i) = false := by
    rw [wiring]
    exact cell
  exact programmedMode still t { setup := setup, rings := two.answer, line := ch.line.clear }

theorem programmedShare (cell : r.wiring.clearsOnWrite (Register.mode i) = false)
    (h : ch.Programmed i r) (share : Share) (t : Thresholds) :
    (share.perform i t ch r).answer.Programmed i (share.perform i t ch r).state := by
  cases share with
  | rest => exact h
  | resync => exact h
  | clear scope => cases scope <;> exact h
  | prepare data => exact h
  | init setup place => exact programmedInit few cell setup place t
  | setMode mode => exact programmedMode cell t _
  | enable d on =>
    have setup := (enableRest i d on ch r).1
    exact programmedApart h (drivesEnable few d on ch).confined (modeApart few d) setup
  | send data length tag =>
    have setup : (ch.send i data length tag r).answer.2.setup = ch.setup := rfl
    have sent := confinedBind (confinedSend few data length tag ch) fun result =>
      confinedPure (t := Register.Block i .transmit) result.2
    exact programmedApart h sent (modeApart few .transmit) setup
  | service =>
    obtain ⟨g, -, served⟩ := Channel.serviced few ch r
    have setup : (ch.service i r).answer.setup = ch.setup := by rw [served.channel]
    exact programmedApart h (confinedServed few ch) (modeServed few) setup
  | tick =>
    have setup : (ch.tick i t r).answer.2.setup = ch.setup := by
      unfold Channel.tick
      split <;> rfl
    have ticked := confinedBind (confinedTick few t ch) fun result =>
      confinedPure (t := Register.LineBlock i) result.2
    exact programmedApart h ticked (modeLine few) setup

end Mode

structure Board.InStep (b : Board c n size) : Prop where
  sound : b.Sound
  cells : b.registers.wiring.Cells c
  modes : ∀ i : Fin c, (b.channel i).Programmed i b.registers
  lanes : ∀ (i : Fin c) (d : Direction), (b.lane i d).InStep d

theorem inStepNoise {b : Board c n size} (h : b.InStep) {w : Noise c n size}
    (gentle : Strike.Gentle (.noise w)) : (w.change b).InStep := by
  have few := h.sound.few
  have tampered := w.tampers b
  have alike := gentle b
  refine ⟨h.sound.noise w, alike.wiring ▸ h.cells, fun i => ?_, fun i d => ?_⟩
  · unfold Channel.Programmed
    rw [alike.bytes _ (Register.modeOwn few i.isLt), (tampered.channels i).rest]
    exact h.modes i
  · have low := Nat.lt_of_lt_of_le i.isLt few
    have control := settingCongr low (d := d)
      (alike.mono fun _ own => Register.settingOwn few i.isLt own)
    have on : ((w.change b).channel i).isEnabled d = (b.channel i).isEnabled d := by
      rw [(tampered.channels i).rest]
      cases d <;> rfl
    have lane : (w.change b).lane i d = ⟨((w.change b).channel i).rings.ring d,
        { (b.lane i d).control with
          current := (Control.of i d (w.change b).registers).current }, (b.lane i d).on⟩ :=
      Lane.ext rfl control on
    rw [lane]
    exact inStepTampered (h.lanes i d) ((tampered.channels i).rings d) _

theorem inStepCall (fits : size ≤ Limits.maxBufferSize) {b : Board c n size} (h : b.InStep)
    (k : Call c) : (k.perform b).state.InStep := by
  have few := h.sound.few
  have up := h.sound.up
  have some := h.sound.some
  have wiring : (k.perform b).state.registers.wiring = b.registers.wiring :=
    (moveWiring few up ⟨0, some⟩ (.call k)).1
  refine ⟨h.sound.call k, wiring ▸ h.cells, fun i => ?_, fun i d => ?_⟩
  · have low := Nat.lt_of_lt_of_le i.isLt few
    have split := callSplit few up k i
    have programmed := programmedShare low (h.cells.mode i) (h.modes i) (k.share b i) b.thresholds
    unfold Channel.Programmed at programmed ⊢
    rw [split.channel, ← programmed]
    exact split.registers.bytes _ (Register.inWindow low (k := 1) (by decide))
  · have low := Nat.lt_of_lt_of_le i.isLt few
    have plain := h.cells.plain i d
    have sound := h.sound.channels i
    have lane : (k.perform b).state.lane i d = _ := splitLane few d (callSplit few up k i)
    rw [lane]
    cases d with
    | receive =>
      exact receiveInStep fits (h.lanes i .receive) sound.indexed
        (receiveSteps low plain b.thresholds (k.share b i) (shareStarted b i k))
    | transmit =>
      exact transmitInStep fits (h.lanes i .transmit) sound.tagged.indexed
        (transmitSteps low plain b.thresholds (k.share b i)
          (fun _ _ _ same => ⟨shareTransmitting same, shareWhole same⟩) (shareStarted b i k))

theorem initInStep {b : Board c n size} {setup : BoardSetup c}
    {place : Nat → Direction → Placement} (cells : b.registers.wiring.Cells c)
    (up : (Board.init setup place b).answer = .ok ()) :
    (Board.init setup place b).state.InStep := by
  obtain ⟨-, some, few, room, -, -⟩ := initAccepted up
  have wiring := (initStart up ⟨0, some⟩ .receive).2.1
  refine ⟨initSound up, wiring ▸ cells, fun i => ?_, fun i d => ?_⟩
  · have low := Nat.lt_of_lt_of_le i.isLt few
    have split := splitBringUp (i := i) (b := { b with thresholds := setup.thresholds }) few setup
      place rfl
    let done := (b.channel i).init i (setup.channels.get i) (place i) setup.thresholds b.registers
    have programmed : done.answer.Programmed i done.state :=
      programmedInit low (cells.mode i) _ _ _
    have channel : (Board.init setup place b).state.channel i = done.answer := by
      rw [initState up]
      exact split.channel
    have mode : (Board.init setup place b).state.registers.peek8 (Register.mode i) =
        done.state.peek8 (Register.mode i) := by
      rw [initState up]
      exact split.registers.bytes _ (Register.inWindow low (k := 1) (by decide))
    unfold Channel.Programmed
    rw [channel, mode]
    exact programmed
  · obtain ⟨-, -, fresh⟩ := initStart up i d
    have plain := wiring ▸ cells.plain i d
    obtain ⟨old, -, ring⟩ := fresh.ring
    refine ⟨fun on => ?_, fun _ => ?_⟩
    · exact absurd (fresh.enabled.symm.trans on) (by decide)
    · have parked : Lane.Parked ⟨old.reset, _, _⟩ := parkedReset (by omega)
        (fresh.command plain) (fresh.interrupts plain) false
      rw [← ring, ← fresh.enabled] at parked
      exact parked

theorem sufferInStep (fits : size ≤ Limits.maxBufferSize) {b : Board c n size} (h : b.InStep)
    (strikes : List (Strike c n size)) (gentle : ∀ x ∈ strikes, x.Gentle) :
    (run Board.suffer b strikes).InStep := by
  induction strikes generalizing b with
  | nil => exact h
  | cons x strikes ih =>
    obtain ⟨first, rest⟩ := List.forall_mem_cons.mp gentle
    cases x with
    | call k => exact ih (inStepCall fits h k) rest
    | noise w => exact ih (inStepNoise h first) rest

/-- After every run of a board that was brought up: the mode register is that of the set-up; a
direction that is on is started, interrupts, and stops where its ring goes on, and a receive ring is
armed full; a direction that is off is aborted, quiet and empty. -/
theorem registersInStep {b : Board c n size} {setup : BoardSetup c}
    {place : Nat → Direction → Placement} (cells : b.registers.wiring.Cells c)
    (up : (Board.init setup place b).answer = .ok ()) (strikes : List (Strike c n size))
    (gentle : ∀ x ∈ strikes, x.Gentle) (i : Fin c) :
    let now := run Board.suffer (Board.init setup place b).state strikes
    now.registers.peek8 (Register.mode i) = (now.channel i).setup.register ∧
    ∀ d, ((now.channel i).isEnabled d = true → (now.lane i d).Driven d) ∧
      ((now.channel i).isEnabled d = false → (now.lane i d).Parked) := by
  intro now
  obtain ⟨-, -, -, -, -, fits⟩ := initAccepted up
  have inStep : now.InStep := sufferInStep fits (initInStep cells up) strikes gentle
  exact ⟨inStep.modes i, fun d => ⟨(inStep.lanes i d).on, (inStep.lanes i d).off⟩⟩

theorem faultRestartsInStep :
    let b : Board 1 3 4 := { registers := .blank (Wiring.board 1) }
    let strikes : List (Strike 1 3 4) :=
      [.call (.enable 0 .transmit true), .call (.send 0 [1, 2, 3] 7),
        .call (.enable 0 .receive true), .call (.setMode 0 .e1),
        .noise (.poke (Register.interrupts 0) 1), .noise (.poke (Register.status 0 .receive) 0xFF),
        .call (.serviceChannel 0)]
    let now := run Board.suffer (Board.init {} (Placement.regular 0 64 3) b).state strikes
    now.registers.peek8 (Register.mode 0) = 2 ∧ (now.lane 0 .receive).ring.free = 0 ∧
      (now.lane 0 .transmit).control.stop = (now.lane 0 .transmit).ring.address 1 := by
  intro b strikes now
  have up : (Board.init {} (Placement.regular 0 64 3) b).answer = .ok () := rfl
  have cells : b.registers.wiring.Cells 1 := boardCells (by decide)
  have interrupt : Register.Sensed 1 (Register.interrupts 0) := .interrupts (by decide)
  have status : Register.Sensed 1 (Register.status 0 .receive) := .status (by decide) .receive
  have call (k : Call 1) : (Strike.call k : Strike 1 3 4).Gentle := trivial
  have gentle : ∀ x ∈ strikes, x.Gentle := by
    simp [strikes, call, pokeGentle interrupt, pokeGentle status]
  obtain ⟨mode, lanes⟩ := registersInStep cells up strikes gentle 0
  have setup : (now.channel 0).setup.register = 2 := by decide +kernel
  have receiving : (now.channel 0).isEnabled .receive = true := by decide +kernel
  have transmitting : (now.channel 0).isEnabled .transmit = true := by decide +kernel
  have next : (now.lane 0 .transmit).ring.next = 1 := by decide +kernel
  have receive : (now.lane 0 .receive).Driven .receive := (lanes .receive).1 receiving
  have transmit : (now.lane 0 .transmit).Driven .transmit := (lanes .transmit).1 transmitting
  have stop := transmit.stop
  rw [next] at stop
  exact ⟨mode.trans setup, receive.full rfl, stop⟩

end SerialAdapter
