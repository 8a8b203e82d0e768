import SerialAdapter.Controller
import SerialAdapter.Proofs.Board.Call
import SerialAdapter.Proofs.Run

/-! A board with its hardware. A controller takes a step only while it is started and has not
reached its stop address; every byte that does not steer a controller may change at any time. Each
move leaves the directions alone that it is not about. -/
namespace SerialAdapter

inductive Move (c : Nat) where
  | call (call : Call c)
  | transmit (channel : Fin c)
  | receive (channel : Fin c) (frame : Bytes) (length : UInt16) (status : UInt8)
  | poke (offset : UInt16) (value : UInt8)

namespace Board

variable {c n size : Nat}

def sends? (b : Board c n size) (i : Fin c) : Option (Nat × Slot size × Registers) :=
  if (Control.of i .transmit b.registers).running then
    Controller.transmit i (b.channel i).rings.transmit b.registers
  else none

def fills? (b : Board c n size) (i : Fin c) (frame : Bytes) (length : UInt16) (status : UInt8) :
    Option (Nat × SlotRing n size × Registers) :=
  if (Control.of i .receive b.registers).running then
    Controller.receive i frame length status (b.channel i).rings.receive b.registers
  else none

def steers (c : Nat) (o : UInt16) : Bool :=
  (List.finRange c).any fun i =>
    decide (Register.Steering i .receive o) || decide (Register.Steering i .transmit o)

def move : Move c → Board c n size → Board c n size
  | .call k, b => (k.perform b).state
  | .transmit i, b =>
    match b.sends? i with
    | some (_, _, r) => { b with registers := r }
    | none => b
  | .receive i frame length status, b =>
    match b.fills? i frame length status with
    | some (_, ring, r) => Controller.withRing { b with registers := r } i .receive ring
    | none => b
  | .poke o value, b =>
    if steers c o then b else { b with registers := b.registers.poke8 o value }

end Board

def Entry.seen {c n size : Nat} (e : Entry (Board c n size) (Move c)) : List Action :=
  match e.move with
  | .call k => (k.perform e.before).seen
  | .transmit _ | .receive .. | .poke .. => []

def InterruptStatus.asks (s : InterruptStatus) : Direction → Bool
  | .receive => s.receive
  | .transmit => s.transmit

namespace Entry

variable {c n size : Nat}

def switches (i : Fin c) (d : Direction) (e : Entry (Board c n size) (Move c)) : Bool :=
  match e.move with
  | .call (.enable j d' _) => j = i && d' = d
  | _ => false

def serves (i : Fin c) (d : Direction) (e : Entry (Board c n size) (Move c)) : Bool :=
  (InterruptStatus.ofByte (e.before.registers.peek8 (Register.interrupts i))).asks d &&
  match e.move with
  | .call (.serviceChannel j) => j = i
  | .call .handleInterrupt => (Call.pending e.before).toNat.testBit i
  | _ => false

theorem switchesShare (b : Board c n size) (i : Fin c) (d : Direction) (k : Call c) :
    switches i d ⟨b, .call k⟩ = (k.share b i).switches d := by
  unfold Call.share
  split
  · rename_i reached
    cases k with
    | enable j d' on =>
      have own : j = i := of_decide_eq_true reached
      simp [switches, own, Call.own, Share.switches]
    | _ => rfl
  · rename_i other
    cases k with
    | enable j d' on =>
      have apart : j ≠ i := fun same => other (decide_eq_true same)
      simp [switches, apart, Share.switches]
    | _ => rfl

theorem servesShare {b : Board c n size} {i : Fin c} {d : Direction} {k : Call c}
    (serve : serves i d ⟨b, .call k⟩ = true) : k.share b i = .service ∧
      (InterruptStatus.ofByte (b.registers.peek8 (Register.interrupts i))).asks d = true := by
  obtain ⟨asked, which⟩ := Bool.and_eq_true_iff.mp serve
  refine ⟨?_, asked⟩
  unfold Call.share
  cases k with
  | serviceChannel j => exact if_pos which
  | handleInterrupt => exact if_pos which
  | _ => contradiction

end Entry

section Moves

variable {c n size : Nat} {b : Board c n size} {i : Fin c} {d : Direction}

structure Still (i : Fin c) (d : Direction) (b b' : Board c n size) : Prop where
  ring : (b'.channel i).rings.ring d = (b.channel i).rings.ring d
  enabled : (b'.channel i).isEnabled d = (b.channel i).isEnabled d
  control : Control.of i d b'.registers = Control.of i d b.registers

theorem Still.refl (b : Board c n size) : Still i d b b := ⟨rfl, rfl, rfl⟩

theorem Still.kept {b' : Board c n size} (same : Still i d b b') :
    Kept i d (b.channel i) b.registers ⟨b'.channel i, b'.registers, []⟩ :=
  ⟨same.ring, same.enabled, same.control, fun _ shown => by contradiction⟩

theorem sendsStep {k : Nat} {s : Slot size} {r : Registers} (step : b.sends? i = some (k, s, r)) :
    (Control.of i .transmit b.registers).running = true ∧
      (b.channel i).rings.transmit.slotAt? (Control.of i .transmit b.registers).current = some k ∧
      s = (b.channel i).rings.transmit.slot k ∧
      r = (Dma.setCurrent i .transmit s.descriptor.chain b.registers).state := by
  unfold Board.sends? at step
  split at step
  · rename_i running
    obtain ⟨j, found, taken⟩ := Option.bind_eq_some_iff.mp step
    cases Option.some.inj taken
    exact ⟨running, found, rfl, rfl⟩
  · contradiction

theorem fillsStep {frame : Bytes} {length : UInt16} {status : UInt8} {k : Nat}
    {ring : SlotRing n size} {r : Registers}
    (step : b.fills? i frame length status = some (k, ring, r)) :
    (Control.of i .receive b.registers).running = true ∧
      (b.channel i).rings.receive.slotAt? (Control.of i .receive b.registers).current = some k ∧
      ring = (b.channel i).rings.receive.modifySlot k (·.complete frame length status) ∧
      r = (Dma.setCurrent i .receive (ring.slot k).descriptor.chain b.registers).state := by
  unfold Board.fills? at step
  split at step
  · rename_i running
    obtain ⟨j, found, taken⟩ := Option.bind_eq_some_iff.mp step
    cases Option.some.inj taken
    exact ⟨running, found, rfl, rfl⟩
  · contradiction

theorem portsApart {j : Nat} {d' : Direction} (other : ¬ (j = i ∧ d' = d)) (o : UInt16)
    (inside : Register.Block i d o) : ¬ Register.Block j d' o := by
  by_cases same : j = i
  · subst same
    exact Register.blocksApart i (fun same => other ⟨rfl, same.symm⟩) o inside
  · intro inside'
    exact Register.windowsApart same (Register.blockInWindow inside') (Register.blockInWindow inside)

theorem setCurrentStill (few : c ≤ Limits.maxChannels) {j : Fin c} {d' : Direction}
    (other : ¬ ((j : Nat) = i ∧ d' = d)) (a : UInt32) (r : Registers) :
    Control.of i d (Dma.setCurrent j d' a r).state = Control.of i d r :=
  controlFrame (Nat.lt_of_lt_of_le i.isLt few)
    (drivesSetCurrent (Nat.lt_of_lt_of_le j.isLt few) a).confined (portsApart other) r

theorem withRingOther {j : Fin c} (other : ¬ ((j : Nat) = i ∧ .receive = d))
    (ring : SlotRing n size) :
    ((Controller.withRing b j .receive ring).channel i).rings.ring d =
        (b.channel i).rings.ring d ∧
      ((Controller.withRing b j .receive ring).channel i).isEnabled d =
        (b.channel i).isEnabled d := by
  simp only [Controller.withRing, Board.channel, Vector.getElem_mk, Array.getElem_modify]
  split
  · rename_i own
    cases d with
    | receive => exact (other ⟨own, rfl⟩).elim
    | transmit => exact ⟨rfl, rfl⟩
  · exact ⟨rfl, rfl⟩

theorem withRingOwn (ring : SlotRing n size) :
    ((Controller.withRing b i .receive ring).channel i).rings.receive = ring ∧
      ((Controller.withRing b i .receive ring).channel i).receiving =
        (b.channel i).receiving := by
  simp only [Controller.withRing, Board.channel, Vector.getElem_mk, Array.getElem_modify,
    ↓reduceIte]
  exact ⟨rfl, rfl⟩

variable (few : c ≤ Limits.maxChannels)
include few

theorem transmitStill {j : Fin c} (other : ¬ ((j : Nat) = i ∧ .transmit = d)) :
    Still i d b (b.move (.transmit j)) := by
  simp only [Board.move]
  split
  · rename_i taken
    obtain ⟨-, -, -, rfl⟩ := sendsStep taken
    exact ⟨rfl, rfl, setCurrentStill few other _ _⟩
  · exact .refl b

theorem receiveStill {j : Fin c} {frame : Bytes} {length : UInt16} {status : UInt8}
    (other : ¬ ((j : Nat) = i ∧ .receive = d)) :
    Still i d b (b.move (.receive j frame length status)) := by
  simp only [Board.move]
  split
  · rename_i taken
    obtain ⟨-, -, -, rfl⟩ := fillsStep taken
    exact ⟨(withRingOther other _).1, (withRingOther other _).2, setCurrentStill few other _ _⟩
  · exact .refl b

theorem pokeStill (o : UInt16) (value : UInt8) : Still i d b (b.move (.poke o value)) := by
  simp only [Board.move]
  split
  · exact .refl b
  · rename_i free
    refine ⟨rfl, rfl, steeringCongr (Nat.lt_of_lt_of_le i.isLt few) ⟨rfl, fun o' inside => ?_⟩⟩
    have apart : o' ≠ o := by
      intro same
      subst same
      refine free (List.any_eq_true.mpr ⟨i, List.mem_finRange i, ?_⟩)
      cases d <;> simp [inside]
    rw [Registers.peekPoke8, if_neg apart]

theorem splitCall {share : Share} {k : Call c} (split : Split i share b (k.perform b)) :
    let done := share.perform i b.thresholds (b.channel i) b.registers
    (b.move (.call k)).channel i = done.answer ∧
      Control.of i d (b.move (.call k)).registers = Control.of i d done.state :=
  ⟨split.channel, controlCongr (Nat.lt_of_lt_of_le i.isLt few)
    (split.registers.mono fun _ => Register.blockInWindow)⟩

theorem moveWiring (up : b.initialized = true) (i : Fin c) (m : Move c) :
    (b.move m).registers.wiring = b.registers.wiring ∧ (b.move m).initialized = true := by
  have low := Nat.lt_of_lt_of_le i.isLt few
  cases m with
  | call k =>
    have split := callSplit few up k i
    have share := confinedShare low (k.share b i) b.thresholds (b.channel i)
    exact ⟨split.registers.wiring.trans (share.frame b.registers).wiring,
      split.initialized.trans up⟩
  | transmit j =>
    simp only [Board.move]
    split
    · rename_i taken
      obtain ⟨-, -, -, rfl⟩ := sendsStep taken
      exact ⟨rfl, up⟩
    · exact ⟨rfl, up⟩
  | receive j frame length status =>
    simp only [Board.move]
    split
    · rename_i taken
      obtain ⟨-, -, -, rfl⟩ := fillsStep taken
      exact ⟨rfl, up⟩
    · exact ⟨rfl, up⟩
  | poke o value =>
    simp only [Board.move]
    split
    · exact ⟨rfl, up⟩
    · exact ⟨rfl, up⟩

end Moves

section Start

variable {c n size : Nat} {b : Board c n size} {setup : BoardSetup c}
  {place : Nat → Direction → Placement}

theorem initAccepted (up : (Board.init setup place b).answer = .ok ()) :
    b.initError? setup = none ∧ 0 < c ∧ c ≤ Limits.maxChannels ∧ 2 ≤ n ∧ 0 < size ∧
      size ≤ Limits.maxBufferSize := by
  cases refused : b.initError? setup with
  | some cause =>
    simp only [Board.init, refused] at up
    contradiction
  | none =>
    refine ⟨rfl, ?_⟩
    unfold Board.initError? at refused
    split at refused
    · contradiction
    · split at refused
      · contradiction
      · rename_i sound
        simp only [Board.acceptable, Bool.or_eq_true, Bool.not_eq_true', not_or,
          Bool.not_eq_false, Bool.and_eq_true, decide_eq_true_eq] at sound
        obtain ⟨⟨⟨⟨⟨some, few⟩, filled⟩, room⟩, fits⟩, -⟩ := sound
        exact ⟨some, few, filled, room, fits⟩

theorem initState (up : (Board.init setup place b).answer = .ok ()) :
    (Board.init setup place b).state =
      { (Board.bringUp setup place { b with thresholds := setup.thresholds }).state with
        initialized := true } := by
  simp only [Board.init, (initAccepted up).1]

theorem initStart (up : (Board.init setup place b).answer = .ok ()) (i : Fin c) (d : Direction) :
    (Board.init setup place b).state.initialized = true ∧
      (Board.init setup place b).state.registers.wiring = b.registers.wiring ∧
      Fresh i d ((Board.init setup place b).state.channel i)
        (Board.init setup place b).state.registers := by
  obtain ⟨-, -, few, filled, -, -⟩ := initAccepted up
  have low := Nat.lt_of_lt_of_le i.isLt few
  have split := splitBringUp (i := i) (b := { b with thresholds := setup.thresholds }) few setup
    place rfl
  have share := confinedShare low (.init (setup.channels.get i) (place i)) setup.thresholds
    (b.channel i)
  have fresh := initFresh low (by omega : 0 < n) d (setup.channels.get i) (place i) setup.thresholds
    (b.channel i) b.registers
  have control := controlCongr low (d := d)
    (split.registers.mono fun _ => Register.blockInWindow)
  rw [initState up]
  refine ⟨rfl, split.registers.wiring.trans (share.frame b.registers).wiring, ?_⟩
  refine ⟨?_, ?_, fun plain => ?_, fun plain => ?_⟩
  · obtain ⟨old, linked, ring⟩ := fresh.ring
    refine ⟨old, linked, ?_⟩
    rw [← ring]
    exact congrArg (fun ch => ch.rings.ring d) split.channel
  · rw [← fresh.enabled]
    exact congrArg (fun ch => ch.isEnabled d) split.channel
  · rw [← fresh.command (split.registers.wiring ▸ plain)]
    exact congrArg Control.command control
  · rw [← fresh.interrupts (split.registers.wiring ▸ plain)]
    exact congrArg Control.interruptEnable control

theorem startStays (i : Fin c) (d : Direction) (plain : b.registers.wiring.Plain i d)
    (up : (Board.init setup place b).answer = .ok ()) (moves : List (Move c)) :
    let now := run Board.move (Board.init setup place b).state moves
    now.initialized = true ∧ now.registers.wiring.Plain i d := by
  obtain ⟨-, -, few, -, -, -⟩ := initAccepted up
  obtain ⟨on, wiring, -⟩ := initStart up i d
  refine runKeeps (P := fun _ b => b.initialized = true ∧ b.registers.wiring.Plain i d) Board.move
    ⟨on, wiring.symm ▸ plain⟩ (fun _ b m kept => ?_) moves
  obtain ⟨wiring, up⟩ := moveWiring few kept.1 i m
  exact ⟨up, wiring ▸ kept.2⟩

theorem startKeeps {P : List (Entry (Board c n size) (Move c)) → Board c n size → Prop}
    (cuts : Entry (Board c n size) (Move c) → Bool) (i : Fin c) (d : Direction)
    (plain : b.registers.wiring.Plain i d) (up : (Board.init setup place b).answer = .ok ())
    (start : (Board.init setup place b).state.registers.wiring.Plain i d →
      Fresh i d ((Board.init setup place b).state.channel i)
        (Board.init setup place b).state.registers → P [] (Board.init setup place b).state)
    (cut : ∀ h b m, b.initialized = true → b.registers.wiring.Plain i d → P h b →
      cuts ⟨b, m⟩ = true → P [] (b.move m))
    (grow : ∀ h b m, b.initialized = true → b.registers.wiring.Plain i d → P h b →
      cuts ⟨b, m⟩ = false → P (h ++ [⟨b, m⟩]) (b.move m))
    (moves : List (Move c)) :
    P (epoch cuts (history Board.move (Board.init setup place b).state moves))
      (run Board.move (Board.init setup place b).state moves) := by
  obtain ⟨-, -, few, -, -, -⟩ := initAccepted up
  obtain ⟨on, wiring, fresh⟩ := initStart up i d
  have still := wiring.symm ▸ plain
  refine (epochKeeps (P := fun h b => (b.initialized = true ∧ b.registers.wiring.Plain i d) ∧ P h b)
    Board.move cuts ⟨⟨on, still⟩, start still fresh⟩ ?_ ?_ moves).2
  · rintro h b m ⟨⟨up, plain⟩, books⟩ hit
    obtain ⟨wiring, up'⟩ := moveWiring few up i m
    exact ⟨⟨up', wiring ▸ plain⟩, cut h b m up plain books hit⟩
  · rintro h b m ⟨⟨up, plain⟩, books⟩ miss
    obtain ⟨wiring, up'⟩ := moveWiring few up i m
    exact ⟨⟨up', wiring ▸ plain⟩, grow h b m up plain books miss⟩

end Start

end SerialAdapter
