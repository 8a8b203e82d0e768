import SerialAdapter.Proofs.Board.Halves

/-! Runs in which calls, queries and hardware steps of both halves are mixed at will. Leaving out
everything that watches the lines changes nothing of the data path, and leaving out everything that
carries data changes nothing of what is known about the lines. The traffic counters are no part of
either statement. -/
namespace SerialAdapter

open Operation Registers

def Operation.unseen {σ : Type} (change : σ → σ) : Operation σ Unit := fun s => ⟨(), change s, []⟩

theorem confinedPoke8 {i : Nat} {t : UInt16 → Prop} {o : UInt16} (inside : t o) (value : UInt8) :
    Confined i t (unseen (·.poke8 o value)) :=
  ⟨fun r => outsidePoke8 inside r value, fun _ => rfl, fun _ => rfl,
    fun same => alikePoke8 same o value, fun _ _ shown => by cases shown⟩

theorem confinedPoke16 {i : Nat} {t : UInt16 → Prop} {o : UInt16} (low : t o) (high : t (o + 1))
    (value : UInt16) : Confined i t (unseen (·.poke16 o value)) :=
  ⟨fun r => (outsidePoke8 low r _).trans (outsidePoke8 high _ _), fun _ => rfl, fun _ => rfl,
    fun same => alikePoke8 (alikePoke8 same _ _) _ _, fun _ _ shown => by cases shown⟩

inductive Gauge where
  | bipolar
  | crc
  | frameSync
  | remoteCrc
  deriving DecidableEq, Repr

def Register.gauge (i : Nat) : Gauge → UInt16
  | .bipolar => bipolar i
  | .crc => crc i
  | .frameSync => frameSync i
  | .remoteCrc => remoteCrc i

structure Stir (c n size : Nat) where
  change : Board c n size → Board c n size
  holds : Holds .data (unseen change)

section Hardware

variable {c n size : Nat}

theorem holdsUnseen {α : Type} {h : Half} {op : Operation (Board c n size) α} (held : Holds h op) :
    Holds h (unseen fun b => (op b).state) :=
  ⟨fun _ => rfl, fun _ => rfl, held.follows, held.spares, fun _ _ _ => rfl⟩

def Stir.poke (o : UInt16) (value : UInt8) (own : Half.data.Owns c o) : Stir c n size where
  change b := { b with registers := b.registers.poke8 o value }
  holds := holdsUnseen (holdsOnRegisters (confinedPoke8 (i := 0) own value) fun _ _ => rfl)

def Controller.step (i : Fin c) (d : Direction) (can : Control → Bool)
    (work : Nat → SlotRing n size → SlotRing n size) (b : Board c n size) : Board c n size :=
  let control := Control.of i d b.registers
  let ring := (b.channel i).rings.ring d
  match if can control then ring.slotAt? control.current else none with
  | some k =>
    let chain := ((work k ring).slot k).descriptor.chain
    Controller.withRing { b with registers := (Dma.setCurrent i d chain b.registers).state } i d
      (work k ring)
  | none => b

theorem setCurrentData (few : c ≤ Limits.maxChannels) (i : Fin c) (d : Direction) (a : UInt32) :
    Confined i (Half.data.Owns c) (Dma.setCurrent i d a) :=
  confinedMono (drivesSetCurrent (Nat.lt_of_lt_of_le i.isLt few) a).confined fun _ =>
    Half.blockData few

theorem stepHolds (few : c ≤ Limits.maxChannels) (i : Fin c) (d : Direction) (can : Control → Bool)
    (work : Nat → SlotRing n size → SlotRing n size) :
    Holds .data (unseen (Controller.step i d can work)) where
  answer _ := rfl
  seen _ := rfl
  follows {b b'} same := by
    have low := Nat.lt_of_lt_of_le i.isLt few
    have view := same.channels
    have control : Control.of i d b'.registers = Control.of i d b.registers :=
      controlCongr low (same.registers.mono fun _ => Half.blockData few)
    have rings : (b'.channel i).rings = (b.channel i).rings := by
      have whole := congrArg Channel.rings (view i)
      exact whole
    simp only [unseen, Controller.step, control, rings]
    split
    · refine ⟨same.up, same.up', same.thresholds, ?_, fun j => ?_⟩
      · exact (setCurrentData few i d _).state same.registers
      · simp only [withRingChannel]
        have before := view j
        simp only [Half.view, Channel.mk.injEq] at before
        split <;> simp [Half.view, before]
    · exact same
  spares {b} up := by
    simp only [unseen, Controller.step]
    split
    · refine ⟨up, up, rfl, ?_, fun j => ?_⟩
      · exact ((setCurrentData few i d _).frame b.registers).mono fun _ => Half.ownsApart
      · simp only [withRingChannel]
        split <;> rfl
    · exact .refl up
  mute line := by contradiction

theorem withRingSame (b : Board c n size) (i : Fin c) (d : Direction) :
    Controller.withRing b i d ((b.channel i).rings.ring d) = b := by
  rcases b with ⟨registers, channels, thresholds, initialized⟩
  simp only [Controller.withRing, Board.mk.injEq, true_and, and_true]
  ext j hj
  simp only [Vector.getElem_mk, Array.getElem_modify, Board.channel]
  split
  · rename_i own
    subst own
    cases d <;> rfl
  · rfl

theorem receiveStep (i : Fin c) (frame : Bytes) (length : UInt16) (status : UInt8) :
    (Board.move (.receive i frame length status) : Board c n size → Board c n size) =
      Controller.step i .receive Control.running fun k =>
        Controller.complete k frame length status := by
  funext b
  have stands : Controller.slot? i .receive (b.channel i).rings.receive b.registers =
      (b.channel i).rings.receive.slotAt? (Control.of i .receive b.registers).current := rfl
  cases running : (Control.of i .receive b.registers).running with
  | false => simp [Board.move, Board.fills?, Controller.step, running]
  | true =>
    cases found :
        (b.channel i).rings.receive.slotAt? (Control.of i .receive b.registers).current <;>
      simp [Board.move, Board.fills?, Controller.step, Controller.receive, running, stands, found,
        Duplex.ring]
    rfl

theorem transmitStep (i : Fin c) :
    (Board.move (.transmit i) : Board c n size → Board c n size) =
      Controller.step i .transmit Control.running fun _ ring => ring := by
  funext b
  have stands : Controller.slot? i .transmit (b.channel i).rings.transmit b.registers =
      (b.channel i).rings.transmit.slotAt? (Control.of i .transmit b.registers).current := rfl
  cases running : (Control.of i .transmit b.registers).running with
  | false => simp [Board.move, Board.sends?, Controller.step, running]
  | true =>
    cases found : (b.channel i).rings.transmit.slotAt? (Control.of i .transmit b.registers).current
    · simp [Board.move, Board.sends?, Controller.step, Controller.transmit, running, stands, found,
        Duplex.ring]
    · simp only [Board.move, Board.sends?, running, Controller.step, Duplex.ring, found, ↓reduceIte,
        Controller.transmit, stands, Option.bind_eq_bind, Option.bind_some, Option.pure_def]
      exact (withRingSame { b with registers := _ } i .transmit).symm

def Stir.receive (few : c ≤ Limits.maxChannels) (i : Fin c) (frame : Bytes) (length : UInt16)
    (status : UInt8) : Stir c n size where
  change := Board.move (.receive i frame length status)
  holds := by
    rw [receiveStep]
    exact stepHolds few i .receive _ _

def Stir.transmit (few : c ≤ Limits.maxChannels) (i : Fin c) : Stir c n size where
  change := Board.move (.transmit i)
  holds := by
    rw [transmitStep]
    exact stepHolds few i .transmit _ _

end Hardware

inductive Stimulus (c n size : Nat) where
  | call (call : Call c)
  | look (channel : Nat) (direction : Direction)
  | status (channel : Fin c) (value : UInt8)
  | count (channel : Fin c) (gauge : Gauge) (value : UInt16)
  | stir (stir : Stir c n size)

namespace Stimulus

variable {c n size : Nat}

def ask : Stimulus c n size → Operation (Board c n size) Reply
  | .call k => k.ask
  | .look i d => fun b => ⟨.free (b.freeSlots i d), b, []⟩
  | .status i value =>
    (Board.onRegisters (unseen (Controller.setLineStatus i value))).recast fun _ => .none
  | .count i gauge value =>
    (Board.onRegisters (unseen (·.poke16 (Register.gauge i gauge) value))).recast fun _ => .none
  | .stir s => (unseen s.change).recast fun _ => .none

def half : Stimulus c n size → Half
  | .call k => k.half
  | .look .. | .stir _ => .data
  | .status .. | .count .. => .line

def watches : Stimulus c n size → Bool
  | .call .tick | .call (.tickChannel _) | .call (.clearStatistics _) | .call (.resyncLine _)
  | .call (.setMode ..) | .status .. | .count .. => true
  | _ => false

def carries : Stimulus c n size → Bool
  | .call (.enable ..) | .call (.send ..) | .call (.sendPrepared ..) | .call (.prepare ..)
  | .call (.serviceChannel _) | .call .handleInterrupt | .stir _ => true
  | _ => false

theorem watchesLine {x : Stimulus c n size} (watches : x.watches = true) : x.half = .line := by
  rcases x with k | _ | _ | _ | _
  · cases k <;> first | rfl | contradiction
  all_goals first | rfl | contradiction

theorem carriesData {x : Stimulus c n size} (carries : x.carries = true) : x.half = .data := by
  rcases x with k | _ | _ | _ | _
  · cases k <;> first | rfl | contradiction
  all_goals first | rfl | contradiction

end Stimulus

section Ask

variable {c n size : Nat} (few : c ≤ Limits.maxChannels)

theorem lookHolds (i : Nat) (d : Direction) :
    Holds .data ((Stimulus.look i d : Stimulus c n size).ask) := by
  refine ⟨fun {b b'} same => ?_, fun _ => rfl, fun same => same, fun up => .refl up,
    fun line => by contradiction⟩
  by_cases low : i < c
  · have view := congrArg (Channel.free · d) (same.channels ⟨i, low⟩)
    have free : b'.channels[i].free d = b.channels[i].free d := by cases d <;> exact view
    simp [Stimulus.ask, Board.freeSlots, low, free]
  · simp [Stimulus.ask, Board.freeSlots, low]

include few

theorem gaugeInLine (i : Fin c) (g : Gauge) :
    Register.LineBlock i (Register.gauge i g) ∧ Register.LineBlock i (Register.gauge i g + 1) := by
  have word (k : Nat) (low : k < 11) :
      Register.LineBlock i (Register.lineBlock i + UInt16.ofNat k) ∧
        Register.LineBlock i (Register.lineBlock i + UInt16.ofNat k + 1) := by
    have here := Nat.lt_of_lt_of_le i.isLt few
    have next := inLineBlock here (k := k + 1) (by omega)
    rw [UInt16.ofNat_add, ← UInt16.add_assoc] at next
    exact ⟨inLineBlock here (by omega), next⟩
  cases g with
  | bipolar => exact word 2 (by decide)
  | crc => exact word 4 (by decide)
  | frameSync => exact word 6 (by decide)
  | remoteCrc => exact word 8 (by decide)

theorem askHolds (x : Stimulus c n size) : Holds x.half x.ask := by
  cases x with
  | call k => exact callHolds few k
  | look i d => exact lookHolds i d
  | status i value =>
    have inside := inLineBlock (Nat.lt_of_lt_of_le i.isLt few) (k := 0) (by decide)
    have own := Half.lineBlockHalf (o := Register.lineStatus i) i.isLt inside
    refine holdsRecast (fun _ => Reply.none) (holdsOnRegisters (i := i) ?_ fun _ _ => rfl)
    exact confinedPoke8 own value
  | count i gauge value =>
    obtain ⟨low, high⟩ := gaugeInLine few i gauge
    refine holdsRecast (fun _ => Reply.none) (holdsOnRegisters (i := i) ?_ fun _ _ => rfl)
    exact confinedPoke16 (Half.lineBlockHalf i.isLt low) (Half.lineBlockHalf i.isLt high) value
  | stir s => exact holdsRecast (fun _ => Reply.none) s.holds

end Ask

namespace Board

variable {c n size : Nat}

def meet (x : Stimulus c n size) (b : Board c n size) : Board c n size := (x.ask b).state

def replies (h : Half) (b : Board c n size) (steps : List (Stimulus c n size)) : List Reply :=
  (history meet b steps).flatMap fun e =>
    if e.move.half = h then [(e.move.ask e.before).answer] else []

def told (b : Board c n size) (steps : List (Stimulus c n size)) : List Event :=
  (history meet b steps).flatMap fun e => events (e.move.ask e.before).seen

end Board

section Runs

variable {c n size : Nat} (few : c ≤ Limits.maxChannels) {h : Half} {b b' : Board c n size}
include few

theorem meetSame (same : Board.Same h b b') (x : Stimulus c n size) :
    Board.Same h (b.meet x) (b'.meet x) := by
  have holds := askHolds few x
  by_cases own : x.half = h
  · subst own
    exact holds.follows same
  · have left := holds.spares same.up
    have right := holds.spares same.up'
    rw [Half.otherOf own] at left right
    exact (left.symm.trans same).trans right

theorem meetOther (same : Board.Same h b b') {x : Stimulus c n size} (differs : x.half ≠ h) :
    Board.Same h (b.meet x) b' := by
  have spares := (askHolds few x).spares same.up
  rw [Half.otherOf differs] at spares
  exact spares.symm.trans same

theorem filteredSame {keep : Stimulus c n size → Bool}
    (drops : ∀ x, keep x = false → x.half ≠ h) (same : Board.Same h b b')
    (steps : List (Stimulus c n size)) :
    Board.Same h (run Board.meet b steps) (run Board.meet b' (steps.filter keep)) ∧
      b.replies h steps = b'.replies h (steps.filter keep) := by
  induction steps generalizing b b' with
  | nil => exact ⟨same, rfl⟩
  | cons x steps ih =>
    cases kept : keep x with
    | true =>
      have answer (own : x.half = h) : (x.ask b).answer = (x.ask b').answer :=
        ((askHolds few x).answer (own ▸ same)).symm
      obtain ⟨after, rest⟩ := ih (meetSame few same x)
      rw [List.filter_cons_of_pos kept]
      refine ⟨after, ?_⟩
      simp only [Board.replies, history, List.flatMap_cons] at rest ⊢
      rw [rest]
      split
      · rename_i own
        rw [answer own]
      · rfl
    | false =>
      obtain ⟨after, rest⟩ := ih (meetOther few same (drops x kept))
      rw [List.filter_cons_of_neg (by simp [kept])]
      refine ⟨after, ?_⟩
      simp only [Board.replies, history, List.flatMap_cons, if_neg (drops x kept)] at rest ⊢
      exact rest

theorem filteredTold {keep : Stimulus c n size → Bool}
    (drops : ∀ x, keep x = false → x.half ≠ .data) (same : Board.Same .data b b')
    (steps : List (Stimulus c n size)) : b.told steps = b'.told (steps.filter keep) := by
  have mute {b : Board c n size} (up : b.initialized = true) {x : Stimulus c n size}
      (line : x.half ≠ .data) : events (x.ask b).seen = [] :=
    (askHolds few x).mute (by cases half : x.half <;> first | rfl | contradiction) up
  induction steps generalizing b b' with
  | nil => rfl
  | cons x steps ih =>
    cases kept : keep x with
    | true =>
      have rest := ih (meetSame few same x)
      have here : events (x.ask b).seen = events (x.ask b').seen := by
        by_cases own : x.half = .data
        · have seen : (x.ask b').seen = (x.ask b).seen := (askHolds few x).seen (own.symm ▸ same)
          rw [seen]
        · rw [mute same.up own, mute same.up' own]
      rw [List.filter_cons_of_pos kept]
      simp only [Board.told, history, List.flatMap_cons] at rest ⊢
      rw [here, rest]
    | false =>
      have rest := ih (meetOther few same (drops x kept))
      rw [List.filter_cons_of_neg (by simp [kept])]
      simp only [Board.told, history, List.flatMap_cons, mute same.up (drops x kept)] at rest ⊢
      exact rest

end Runs

/-- Without the stimuli that watch the lines, the data path answers, tells and ends up the same: its
rings, its enable flags, and every register but the line interfaces and modes. Without those that
carry data, so do the lines. -/
theorem halvesIndependent {c n size : Nat} (few : c ≤ Limits.maxChannels) {b : Board c n size}
    (up : b.initialized = true) (steps : List (Stimulus c n size)) :
    let now := run Board.meet b steps
    let unwatched := steps.filter (!·.watches)
    let idle := steps.filter (!·.carries)
    (b.replies .data steps = b.replies .data unwatched ∧ b.told steps = b.told unwatched ∧
      (∀ i : Fin c, ∀ d, ((run Board.meet b unwatched).channel i).rings.ring d =
          (now.channel i).rings.ring d ∧
        ((run Board.meet b unwatched).channel i).isEnabled d = (now.channel i).isEnabled d) ∧
      ∀ o, (∀ i < c, ¬ Register.LineBlock i o ∧ o ≠ Register.mode i) →
        (run Board.meet b unwatched).registers.peek8 o = now.registers.peek8 o) ∧
    b.replies .line steps = b.replies .line idle ∧
    ∀ i : Fin c, ((run Board.meet b idle).channel i).setup = (now.channel i).setup ∧
      ((run Board.meet b idle).channel i).line = (now.channel i).line ∧
      ((run Board.meet b idle).channel i).alarms = (now.channel i).alarms ∧
      (run Board.meet b idle).registers.peek8 (Register.mode i) =
        now.registers.peek8 (Register.mode i) := by
  intro now unwatched idle
  have watching (x : Stimulus c n size) (drop : (!x.watches) = false) : x.half ≠ .data := by
    rw [Stimulus.watchesLine (by simpa using drop)]
    exact Half.noConfusion
  have carrying (x : Stimulus c n size) (drop : (!x.carries) = false) : x.half ≠ .line := by
    rw [Stimulus.carriesData (by simpa using drop)]
    exact Half.noConfusion
  obtain ⟨data, dataReplies⟩ := filteredSame few watching (.refl up) steps
  obtain ⟨line, lineReplies⟩ := filteredSame few carrying (.refl up) steps
  refine ⟨⟨dataReplies, filteredTold few watching (.refl up) steps, fun i d => ?_, fun o out => ?_⟩,
    lineReplies, fun i => ?_⟩
  · have side := viewSide (data.channels i) d
    exact ⟨congrArg Prod.fst side, congrArg Prod.snd side⟩
  · refine data.registers.bytes o fun ⟨i, low, inside⟩ => ?_
    obtain ⟨apart, other⟩ := out i low
    exact inside.elim apart other
  · have view := line.channels i
    simp only [Half.view, Channel.mk.injEq] at view
    have mode := line.registers.bytes (Register.mode i) (Half.modeLineHalf i.isLt)
    exact ⟨view.1, view.2.2.2.2.2.1, view.2.2.2.2.2.2, mode⟩

theorem frameBetweenTicks :
    let setup : BoardSetup 1 := { channels := #v[{ mode := .e1 }] }
    let fresh : Board 1 3 4 := { registers := .blank (.board 1) }
    let up := (Board.init setup (Placement.regular 0x1000 0x40 3) fresh).state
    let interrupt : Stir 1 3 4 := .poke (Register.interrupts 0) 2
      (Half.headData (by decide) (by decide) (by decide : 0 < 64) (by decide))
    let steps : List (Stimulus 1 3 4) :=
      [.call (.enable 0 .transmit true), .count 0 .crc 5, .call (.send 0 [7, 8] 1), .call .tick,
        .stir (.transmit (by decide) 0), .call (.resyncLine 0), .stir interrupt,
        .call (.serviceChannel 0), .call (.tickChannel 0)]
    up.told steps = [.sent 0 1 2] ∧
      up.replies .line steps = up.replies .line (steps.filter (!·.carries)) := by
  intro setup fresh up interrupt steps
  have on : up.initialized = true := by decide +kernel
  obtain ⟨⟨-, told, -⟩, line, -⟩ := halvesIndependent (by decide) on steps
  refine ⟨?_, line⟩
  rw [told]
  decide +kernel

end SerialAdapter
