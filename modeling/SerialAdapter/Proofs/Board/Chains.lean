import SerialAdapter.Proofs.Board.Steering
import SerialAdapter.Proofs.Ring.Chain

/-! The descriptor chains of a board. The layout is made once, when the board is brought up; from
then on calls leave the links of every ring alone, and so does hardware that writes back lengths,
statuses and buffers. The registers may hold anything meanwhile. -/
namespace SerialAdapter

variable {c n size : Nat}

def Channel.Moored (ch ch' : Channel n size) : Prop :=
  ∀ d, (ch.rings.ring d).Moored (ch'.rings.ring d)

section Shares

variable {i : Nat} {ch : Channel n size} {r : Registers}

theorem mooredKept {done : Outcome Registers (Channel n size)}
    (kept : ∀ d, Kept i d ch r done) : ch.Moored done.answer := fun d => by
  rw [(kept d).ring]
  exact .refl _

variable (filled : 0 < n)
include filled

theorem mooredEnable (d : Direction) (on : Bool) (r : Registers) :
    ch.Moored (ch.enable i d on r).answer := by
  rw [enableAnswer]
  intro d'
  cases d <;> cases d'
  · cases on
    · exact SlotRing.mooredReset filled _
    · exact SlotRing.mooredStart filled _
  · exact .refl _
  · exact .refl _
  · cases on <;> exact SlotRing.mooredReset filled _

theorem mooredSend (data : Option Bytes) (length : Nat) (tag : UInt64) (r : Registers) :
    ch.Moored (ch.send i data length tag r).answer.2 := by
  cases queued : ch.rings.transmit.enqueue data length tag with
  | error cause =>
    rw [sendRefused i queued]
    exact fun d => .refl _
  | ok taken =>
    rw [sendAccepted i queued]
    intro d
    cases d with
    | receive => exact .refl _
    | transmit => exact SlotRing.mooredEnqueue filled queued

theorem mooredService (few : i < Limits.maxChannels) (r : Registers) :
    ch.Moored (ch.service i r).answer := by
  obtain ⟨g, -, served⟩ := Channel.serviced few ch r
  intro d
  cases d with
  | receive =>
    simp only [Duplex.ring, served.receive, Channel.receiveAfter, Duplex.receiveRing]
    split
    · split
      · exact SlotRing.mooredStart filled _
      · exact SlotRing.mooredCollect filled _ _
    · exact .refl _
  | transmit =>
    simp only [Duplex.ring, served.transmit, Channel.transmitAfter]
    split
    · exact SlotRing.mooredDrain filled _ _
    · exact .refl _

theorem mooredShare (few : i < Limits.maxChannels) {share : Share}
    (later : ∀ setup place, share ≠ .init setup place) (t : Thresholds) (r : Registers) :
    ch.Moored (share.perform i t ch r).answer := by
  cases share with
  | init setup place => exact (later setup place rfl).elim
  | enable d on => exact mooredEnable filled d on r
  | send data length tag => exact mooredSend filled data length tag r
  | prepare data =>
    intro d
    cases d with
    | receive => exact .refl _
    | transmit => exact SlotRing.mooredPrepare filled ch.rings.transmit data
  | service => exact mooredService filled few r
  | rest => exact mooredKept fun _ => asideKeeps few (by trivial) t ch r
  | setMode mode => exact mooredKept fun _ => asideKeeps few (by trivial) t ch r
  | resync => exact mooredKept fun _ => asideKeeps few (by trivial) t ch r
  | clear scope => exact mooredKept fun _ => asideKeeps few (by trivial) t ch r
  | tick => exact mooredKept fun _ => asideKeeps few (by trivial) t ch r

theorem placedInit (few : i < Limits.maxChannels) (setup : ChannelSetup)
    (place : Direction → Placement) (t : Thresholds) (ch : Channel n size) (r : Registers)
    (d : Direction) :
    ((ch.init i setup place t r).answer.rings.ring d).Placed (place d) := by
  let rings := ((ch.rings.layout place).stop i .receive r).answer
  let stopped := rings.stop i .transmit ((ch.rings.layout place).stop i .receive r).state
  have kept := programModeKeeps few d t
    { setup := setup, rings := stopped.answer, line := ch.line.clear } stopped.state
  have ring : (ch.init i setup place t r).answer.rings.ring d =
      ((ch.rings.ring d).layout (place d)).reset := by
    cases d <;> exact kept.ring
  rw [ring]
  exact (SlotRing.mooredReset filled _).placed (SlotRing.placedLayout filled _ _)

end Shares

def Noise.WritesBack (w : Noise c n size) : Prop :=
  ∀ (b : Board c n size) (i : Fin c), (b.channel i).Moored ((w.change b).channel i)

def Strike.WritesBack : Strike c n size → Prop
  | .call _ => True
  | .noise w => w.WritesBack

theorem withRingChannel (b : Board c n size) (i j : Fin c) (d : Direction)
    (ring : SlotRing n size) : (Controller.withRing b i d ring).channel j =
      if i = j then { b.channel j with rings := (b.channel j).rings.withRing d ring }
      else b.channel j := by
  simp only [Controller.withRing, Board.channel, Vector.getElem_mk, Array.getElem_modify,
    Fin.ext_iff]
  split <;> rfl

def Noise.complete (filled : 0 < n) (i : Fin c) (d : Direction) (k : Nat) (frame : Bytes)
    (length : UInt16) (status : UInt8) : Noise c n size where
  change b := Controller.withRing b i d
    (Controller.complete k frame length status ((b.channel i).rings.ring d))
  tampers b := by
    refine ⟨fun j => ?_, rfl⟩
    rw [withRingChannel]
    split
    · rename_i own
      subst own
      refine ⟨fun d' => ?_, rfl⟩
      cases d <;> cases d' <;> first
        | exact modifyTampered filled _ k fun _ => rfl
        | exact .refl _
    · exact ⟨fun d' => .refl _, rfl⟩

theorem completeWritesBack (filled : 0 < n) (i : Fin c) (d : Direction) (k : Nat) (frame : Bytes)
    (length : UInt16) (status : UInt8) :
    (Noise.complete filled i d k frame length status : Noise c n size).WritesBack := by
  intro b j d'
  have done := SlotRing.mooredComplete filled k frame length status ((b.channel i).rings.ring d)
  simp only [Noise.complete, withRingChannel]
  split
  · rename_i own
    subst own
    cases d <;> cases d' <;> first
      | exact done
      | exact .refl _
  · exact .refl _

theorem registersWriteBack (r : Registers) :
    (Noise.registers c n size r).WritesBack := fun _ _ _ => .refl _

structure Board.Chained (place : Nat → Direction → Placement) (b : Board c n size) : Prop where
  sound : b.Sound
  placed : ∀ (i : Fin c) (d : Direction), ((b.channel i).rings.ring d).Placed (place i d)

namespace Board.Chained

variable {place : Nat → Direction → Placement} {b : Board c n size} (h : b.Chained place)
include h

theorem call (k : Call c) : (k.perform b).state.Chained place where
  sound := h.sound.call k
  placed i d := by
    have filled : 0 < n := Nat.lt_of_lt_of_le (by decide) h.sound.room
    have low := Nat.lt_of_lt_of_le i.isLt h.sound.few
    rw [(callSplit h.sound.few h.sound.up k i).channel]
    exact (mooredShare filled low (shareStarted b i k) b.thresholds b.registers d).placed
      (h.placed i d)

theorem noise {w : Noise c n size} (mild : w.WritesBack) : (w.change b).Chained place where
  sound := h.sound.noise w
  placed i d := (mild b i d).placed (h.placed i d)

theorem suffer {strikes : List (Strike c n size)} (mild : ∀ x ∈ strikes, x.WritesBack) :
    (run Board.suffer b strikes).Chained place := by
  induction strikes generalizing b with
  | nil => exact h
  | cons x strikes ih =>
    obtain ⟨first, rest⟩ := List.forall_mem_cons.mp mild
    cases x with
    | call k => exact ih (h.call k) rest
    | noise w => exact ih (h.noise first) rest

end Board.Chained

theorem initChained {b : Board c n size} {setup : BoardSetup c}
    {place : Nat → Direction → Placement} (up : (Board.init setup place b).answer = .ok ()) :
    (Board.init setup place b).state.Chained place := by
  obtain ⟨-, -, few, room, -, -⟩ := initAccepted up
  refine ⟨initSound up, fun i d => ?_⟩
  have split := splitBringUp (i := i) (b := { b with thresholds := setup.thresholds }) few setup
    place rfl
  rw [initState up]
  have laid := placedInit (by omega : 0 < n) (Nat.lt_of_lt_of_le i.isLt few) (setup.channels.get i)
    (place i) setup.thresholds (b.channel i) b.registers d
  exact split.channel ▸ laid

theorem chainsStayCycles (fits : 16 * n ≤ 2 ^ 32) {b : Board c n size} {setup : BoardSetup c}
    {place : Nat → Direction → Placement} (up : (Board.init setup place b).answer = .ok ())
    (strikes : List (Strike c n size)) (mild : ∀ x ∈ strikes, x.WritesBack) (i : Fin c)
    (d : Direction) :
    (((run Board.suffer (Board.init setup place b).state strikes).channel i).rings.ring d).Cycle
      (place i d) := by
  have start := initChained up
  have now := start.suffer mild
  have filled : 0 < n := Nat.lt_of_lt_of_le (by decide) start.sound.room
  exact (now.placed i d).cycle fits filled

theorem wrappedChainStays :
    let place (_ : Nat) (_ : Direction) : Placement :=
      { table := 0xFFFFFFE0, buffer := fun k => 0x1000 + 0x10 * UInt32.ofNat k }
    let fresh : Board 1 3 4 := { registers := .blank (.board 1) }
    let up := (Board.init {} place fresh).state
    let noisy := (Registers.blank (.board 1)).poke8 (Register.interrupts 0) 1
    let strikes : List (Strike 1 3 4) :=
      [.call (.enable 0 .receive true),
        .noise (.complete (by decide) 0 .receive 2 [7, 8] 2 0x40),
        .noise (.registers 1 3 4 noisy), .call .handleInterrupt, .call (.serviceChannel 0)]
    let ring := ((run Board.suffer up strikes).channel 0).rings.receive
    (ring.slot 2).descriptor.chain = 0xFFFFFFE0 ∧ ring.walk 1 (ring.address 1) = some 0 ∧
      ring.walkSlot 4 2 = some 0 := by
  intro place fresh up noisy strikes ring
  have mild : ∀ x ∈ strikes, x.WritesBack := by
    intro x shown
    simp only [strikes, List.mem_cons, List.not_mem_nil, or_false] at shown
    rcases shown with rfl | rfl | rfl | rfl | rfl
    · trivial
    · exact completeWritesBack _ 0 .receive 2 [7, 8] 2 0x40
    · exact registersWriteBack noisy
    · trivial
    · trivial
  have cycle : ring.Cycle (place 0 .receive) :=
    chainsStayCycles (by decide) (by decide +kernel) strikes mild 0 .receive
  have base : ring.base = 0xFFFFFFE0 := cycle.base
  refine ⟨(cycle.chain 2 (by decide)).trans ?_, (cycle.stays 1 1).trans ?_, cycle.walk 2 4⟩
  · simp [SlotRing.address, base]
  · simp [SlotRing.address, base, Limits.descriptorSize]

end SerialAdapter
