import SerialAdapter.Duplex
import SerialAdapter.Proofs.Register.Footprint

/-! The registers of one controller that only the driver writes, apart from the current address.
They are plain cells: `Wiring.Plain` says that they read back, which holds of a board whose
interrupt and status registers are acknowledged and whose line counters restart. -/
namespace SerialAdapter

namespace Register

def Window (i : Nat) (offset : UInt16) : Prop :=
  256 * (i + 1) ≤ offset.toNat ∧ offset.toNat < 256 * (i + 2)

def blockStart : Direction → Nat
  | .receive => 16
  | .transmit => 32

def Block (i : Nat) (d : Direction) (offset : UInt16) : Prop :=
  256 * (i + 1) + blockStart d ≤ offset.toNat ∧ offset.toNat < 256 * (i + 1) + blockStart d + 16

def Steering (i : Nat) (d : Direction) (offset : UInt16) : Prop :=
  Block i d offset ∧ offset ≠ status i d

def Setting (i : Nat) (d : Direction) (offset : UInt16) : Prop :=
  Steering i d offset ∧ 256 * (i + 1) + blockStart d + 4 ≤ offset.toNat

instance (i : Nat) (d : Direction) (offset : UInt16) : Decidable (Block i d offset) :=
  inferInstanceAs (Decidable (_ ∧ _))

instance (i : Nat) (d : Direction) (offset : UInt16) : Decidable (Steering i d offset) :=
  inferInstanceAs (Decidable (_ ∧ _))

theorem offsetNat {i : Nat} (few : i < Limits.maxChannels) {k : Nat} (low : k < 256) :
    (channelBlock i + UInt16.ofNat k).toNat = 256 * (i + 1) + k := by
  have small : i < 8 := few
  have index : (UInt16.ofNat i).toNat = i := UInt16.toNat_ofNat_of_lt' (by rw [UInt16.size]; omega)
  have offset : (UInt16.ofNat k).toNat = k := UInt16.toNat_ofNat_of_lt' (by rw [UInt16.size]; omega)
  have unit : (0x0100 : UInt16).toNat = 256 := rfl
  rw [channelBlock, UInt16.toNat_add, UInt16.toNat_add, UInt16.toNat_mul, index, offset, unit]
  omega

theorem dmaBlockEq (i : Nat) (d : Direction) :
    dmaBlock i d = channelBlock i + UInt16.ofNat (blockStart d) := by
  cases d <;> rfl

theorem blockStartLt (d : Direction) : blockStart d ≤ 32 := by
  cases d <;> decide

theorem dmaNat {i : Nat} (few : i < Limits.maxChannels) (d : Direction) {k : Nat} (low : k < 16) :
    (dmaBlock i d + UInt16.ofNat k).toNat = 256 * (i + 1) + blockStart d + k := by
  have start := blockStartLt d
  have place := offsetNat few (k := blockStart d + k) (by omega)
  rw [dmaBlockEq, UInt16.add_assoc, ← UInt16.ofNat_add, place, Nat.add_assoc]

theorem inBlock {i : Nat} (few : i < Limits.maxChannels) (d : Direction) {k : Nat} (low : k < 16) :
    Block i d (dmaBlock i d + UInt16.ofNat k) := by
  rw [Block, dmaNat few d low]
  omega

theorem inSteering {i : Nat} (few : i < Limits.maxChannels) (d : Direction) {k : Nat} (low : k < 16)
    (other : k ≠ 10) : Steering i d (dmaBlock i d + UInt16.ofNat k) := by
  refine ⟨inBlock few d low, fun same => other ?_⟩
  have here := dmaNat few d low
  have there : (status i d).toNat = _ := dmaNat few d (k := 10) (by decide)
  rw [same, there] at here
  omega

theorem inSetting {i : Nat} (few : i < Limits.maxChannels) (d : Direction) {k : Nat} (high : 4 ≤ k)
    (low : k < 16) (other : k ≠ 10) : Setting i d (dmaBlock i d + UInt16.ofNat k) := by
  refine ⟨inSteering few d low other, ?_⟩
  rw [dmaNat few d low]
  omega

theorem inWindow {i : Nat} (few : i < Limits.maxChannels) {k : Nat} (low : k < 256) :
    Window i (channelBlock i + UInt16.ofNat k) := by
  rw [Window, offsetNat few low]
  omega

theorem blockInWindow {i : Nat} {d : Direction} {o : UInt16} (inside : Block i d o) :
    Window i o := by
  have start := blockStartLt d
  unfold Block at inside
  unfold Window
  omega

theorem windowsApart {i j : Nat} (other : i ≠ j) {o : UInt16} (inside : Window i o) :
    ¬ Window j o := by
  unfold Window at *
  omega

theorem blocksApart (i : Nat) {d d' : Direction} (other : d ≠ d') (o : UInt16)
    (inside : Block i d o) : ¬ Block i d' o := by
  unfold Block at *
  cases d with
  | receive =>
    cases d' with
    | receive => contradiction
    | transmit =>
      simp only [blockStart] at *
      omega
  | transmit =>
    cases d' with
    | receive =>
      simp only [blockStart] at *
      omega
    | transmit => contradiction

theorem outsideBlocks {i : Nat} (few : i < Limits.maxChannels) (d : Direction) {k : Nat}
    (low : k < 256) (out : k < 16 ∨ 48 ≤ k) :
    ¬ Block i d (channelBlock i + UInt16.ofNat k) := by
  have start := blockStartLt d
  have end_ : 16 ≤ blockStart d := by cases d <;> decide
  rw [Block, offsetNat few low]
  omega

theorem interruptsOutside {i : Nat} (few : i < Limits.maxChannels) (d : Direction) :
    ¬ Block i d (interrupts i) := outsideBlocks few d (k := 0) (by decide) (by decide)

theorem modemOutside {i : Nat} (few : i < Limits.maxChannels) (d : Direction) :
    ¬ Block i d (modem i) := outsideBlocks few d (k := 2) (by decide) (by decide)

theorem statusInBlock {i : Nat} (few : i < Limits.maxChannels) (d : Direction) :
    Block i d (status i d) := inBlock few d (k := 10) (by decide)

theorem statusNotInterrupts {i : Nat} (few : i < Limits.maxChannels) (d : Direction) :
    status i d ≠ interrupts i :=
  fun same => interruptsOutside few d (same ▸ statusInBlock few d)

end Register

structure Control where
  current : UInt32
  stop : UInt32
  bufferLength : UInt16
  command : UInt8
  interruptEnable : UInt8
  deriving DecidableEq, Repr

def Control.of (i : Nat) (d : Direction) (r : Registers) : Control where
  current := r.peek32 (Register.current i d)
  stop := r.peek32 (Register.stop i d)
  bufferLength := r.peek16 (Register.bufferLength i d)
  command := r.peek8 (Register.command i d)
  interruptEnable := r.peek8 (Register.interruptEnable i d)

def Control.running (k : Control) : Bool :=
  k.command == Register.startCommand && k.current != k.stop

theorem controlEq (i : Nat) (d : Direction) (r : Registers) :
    Control.of i d r =
      { current := r.peek32 (Register.dmaBlock i d)
        stop := r.peek32 (Register.dmaBlock i d + 4)
        bufferLength := r.peek16 (Register.dmaBlock i d + 8)
        command := r.peek8 (Register.dmaBlock i d + 11)
        interruptEnable := r.peek8 (Register.dmaBlock i d + 12) } := by
  simp [Control.of, Register.current, Register.stop, Register.bufferLength, Register.command,
    Register.interruptEnable]

structure Wiring.Plain (w : Wiring) (i : Nat) (d : Direction) : Prop where
  currentLow : w.clearsOnRead (Register.current i d) = false
  currentHigh : w.clearsOnRead (Register.current i d + 2) = false
  command : w.clearsOnWrite (Register.command i d) = false
  interruptEnable : w.clearsOnWrite (Register.interruptEnable i d) = false

theorem offsetsApart {i j k l : Nat} (hi : i < Limits.maxChannels) (hj : j < Limits.maxChannels)
    (hk : k < 256) (hl : l < 256) (apart : k ≠ l) :
    Register.channelBlock i + UInt16.ofNat k ≠ Register.channelBlock j + UInt16.ofNat l := by
  intro same
  have left := Register.offsetNat hi hk
  rw [same, Register.offsetNat hj hl] at left
  omega

theorem sideEffectFree {c i k : Nat} (few : c ≤ Limits.maxChannels) (low : i < c) (hk : k < 256)
    (quiet : k ≠ 0 ∧ k ≠ 26 ∧ k ≠ 42 ∧ k ≠ 66 ∧ k ≠ 68 ∧ k ≠ 70 ∧ k ≠ 72) :
    (Wiring.board c).clearsOnWrite (Register.channelBlock i + UInt16.ofNat k) = false ∧
      (Wiring.board c).clearsOnRead (Register.channelBlock i + UInt16.ofNat k) = false := by
  have here := Nat.lt_of_lt_of_le low few
  obtain ⟨h0, h26, h42, h66, h68, h70, h72⟩ := quiet
  have other (j l : Nat) (hj : j < c) (hl : l < 256) (apart : k ≠ l) :
      (Register.channelBlock i + UInt16.ofNat k == Register.channelBlock j + UInt16.ofNat l) =
        false :=
    beq_false_of_ne (offsetsApart here (Nat.lt_of_lt_of_le hj few) hk hl apart)
  constructor
  · have summary :
        (Register.channelBlock i + UInt16.ofNat k == Register.boardInterrupts) = false := by
      refine beq_false_of_ne fun same => ?_
      have place := Register.offsetNat here hk
      rw [same] at place
      change 0 = _ at place
      omega
    simp only [Wiring.board, summary, Bool.false_or, List.any_eq_false, List.mem_range,
      Register.interrupts, Register.status, Register.dmaBlock, UInt16.add_assoc]
    intro j hj
    simp only [Bool.not_eq_true, Bool.or_eq_false_iff]
    exact ⟨⟨other j 0 hj (by decide) h0, other j 26 hj (by decide) h26⟩,
      other j 42 hj (by decide) h42⟩
  · simp only [Wiring.board, List.any_eq_false, List.mem_range, Register.bipolar,
      Register.crc, Register.frameSync, Register.remoteCrc, Register.lineBlock, UInt16.add_assoc]
    intro j hj
    simp only [Bool.not_eq_true, Bool.or_eq_false_iff]
    exact ⟨⟨⟨other j 66 hj (by decide) h66, other j 68 hj (by decide) h68⟩,
      other j 70 hj (by decide) h70⟩, other j 72 hj (by decide) h72⟩

theorem boardPlain {c i : Nat} (few : c ≤ Limits.maxChannels) (low : i < c) (d : Direction) :
    (Wiring.board c).Plain i d := by
  have free (k : Nat) (inside : k < 16) (other : k ≠ 10) :
      (Wiring.board c).clearsOnWrite (Register.dmaBlock i d + UInt16.ofNat k) = false ∧
        (Wiring.board c).clearsOnRead (Register.dmaBlock i d + UInt16.ofNat k) = false := by
    have start := Register.blockStartLt d
    rw [Register.dmaBlockEq, UInt16.add_assoc, ← UInt16.ofNat_add]
    refine sideEffectFree few low (by omega) ?_
    cases d with
    | receive => simp only [Register.blockStart]; omega
    | transmit => simp only [Register.blockStart]; omega
  have high := (free 2 (by decide) (by decide)).2
  exact {
    currentLow := (free 0 (by decide) (by decide)).2
    currentHigh := by simpa [Register.current] using high
    command := (free 11 (by decide) (by decide)).1
    interruptEnable := (free 12 (by decide) (by decide)).1 }

theorem settingCongr {i : Nat} (few : i < Limits.maxChannels) {d : Direction} {r r' : Registers}
    (same : Alike (Register.Setting i d) r r') :
    Control.of i d r' = { Control.of i d r with current := (Control.of i d r').current } := by
  have byte (start k : Nat) (high : 4 ≤ start) (low : start + k < 10) :
      Register.Setting i d (Register.dmaBlock i d + UInt16.ofNat start + UInt16.ofNat k) := by
    rw [UInt16.add_assoc, ← UInt16.ofNat_add]
    exact Register.inSetting few d (by omega) (by omega) (by omega)
  have stop : r'.peek32 (Register.dmaBlock i d + 4) = r.peek32 (Register.dmaBlock i d + 4) :=
    alikePeek32 same fun k small => byte 4 k (by decide) (by omega)
  have first : Register.Setting i d (Register.dmaBlock i d + 8) :=
    Register.inSetting few d (k := 8) (by decide) (by decide) (by decide)
  have length : r'.peek16 (Register.dmaBlock i d + 8) = r.peek16 (Register.dmaBlock i d + 8) :=
    alikePeek16 same first (byte 8 1 (by decide) (by decide))
  have command : r'.peek8 (Register.dmaBlock i d + 11) = r.peek8 (Register.dmaBlock i d + 11) :=
    same.bytes _ (Register.inSetting few d (k := 11) (by decide) (by decide) (by decide))
  have interrupts : r'.peek8 (Register.dmaBlock i d + 12) = r.peek8 (Register.dmaBlock i d + 12) :=
    same.bytes _ (Register.inSetting few d (k := 12) (by decide) (by decide) (by decide))
  rw [controlEq, controlEq, stop, length, command, interrupts]

theorem steeringCongr {i : Nat} (few : i < Limits.maxChannels) {d : Direction} {r r' : Registers}
    (same : Alike (Register.Steering i d) r r') :
    Control.of i d r' = Control.of i d r := by
  have current : (Control.of i d r').current = (Control.of i d r).current := by
    rw [controlEq, controlEq]
    exact alikePeek32 same fun k low => Register.inSteering few d (by omega) (by omega)
  rw [settingCongr few (same.mono fun _ inside => inside.1), current]

theorem controlCongr {i : Nat} (few : i < Limits.maxChannels) {d : Direction} {r r' : Registers}
    (same : Alike (Register.Block i d) r r') : Control.of i d r' = Control.of i d r :=
  steeringCongr few (same.mono fun _ inside => inside.1)

theorem controlFrame {i : Nat} (few : i < Limits.maxChannels) {d : Direction} {α : Type}
    {j : Nat} {t : UInt16 → Prop} {op : Operation Registers α} (h : Confined j t op)
    (apart : ∀ offset, Register.Block i d offset → ¬ t offset) (r : Registers) :
    Control.of i d (op r).state = Control.of i d r :=
  controlCongr few ((h.frame r).mono apart)

structure Drives {α : Type} (i : Nat) (d : Direction) (op : Operation Registers α)
    (effect : Control → Control) (news : List Action := []) : Prop where
  confined : Confined i (Register.Block i d) op
  control : ∀ r, r.wiring.Plain i d → Control.of i d (op r).state = effect (Control.of i d r)
  news : ∀ r, about i (op r).seen = news

section Drives

variable {α β : Type} {i : Nat} {d : Direction}

theorem drivesPure (a : α) : Drives i d (pure a) id :=
  ⟨confinedPure a, fun _ _ => rfl, fun _ => rfl⟩

theorem drivesEmit {actions : List Action} (own : ∀ a ∈ actions, a.channel? = some i) :
    Drives i d (Operation.emit actions) id actions := by
  have all : about i actions = actions :=
    List.filter_eq_self.mpr fun a shown => by simp [own a shown]
  exact ⟨confinedNews own, fun _ _ => rfl, fun _ => all⟩

theorem drivesBind {op : Operation Registers α} {next : α → Operation Registers β}
    {f g : Control → Control} {news more : List Action} (first : Drives i d op f news)
    (second : ∀ a, Drives i d (next a) g more) :
    Drives i d (op >>= next) (g ∘ f) (news ++ more) := by
  refine ⟨confinedBind first.confined fun a => (second a).confined, fun r plain => ?_, fun r => ?_⟩
  · have still : (op r).state.wiring.Plain i d := (first.confined.frame r).wiring ▸ plain
    exact ((second _).control _ still).trans (congrArg g (first.control r plain))
  · rw [Operation.bindApply, aboutAppend, first.news, (second _).news]

theorem drivesIf {p : Prop} [Decidable p] {yes no : Operation Registers α} {f g : Control → Control}
    {news more : List Action} (left : Drives i d yes f news) (right : Drives i d no g more) :
    Drives i d (if p then yes else no) (if p then f else g) (if p then news else more) := by
  split
  · exact left
  · exact right

variable (few : i < Limits.maxChannels)
include few

theorem blockBytes (start : Nat) (low : start + 4 ≤ 16) (k : Nat) (byte : k < 4) :
    Register.Block i d (Register.dmaBlock i d + UInt16.ofNat start + UInt16.ofNat k) := by
  rw [UInt16.add_assoc, ← UInt16.ofNat_add]
  exact Register.inBlock few d (by omega)

theorem drivesSetCurrent (a : UInt32) :
    Drives i d (Dma.setCurrent i d a) ({ · with current := a }) := by
  refine ⟨confinedWrite32 (blockBytes few 0 (by decide)) a, fun r _ => ?_, fun _ => rfl⟩
  change Control.of i d (r.poke32 (Register.dmaBlock i d + 0) a) = _
  have there := Registers.peekPoke32 r (Register.dmaBlock i d) a
  simp [controlEq, there]
  simp [Registers.peek32, Registers.peek16, Registers.poke32, Registers.poke16, Registers.peekPoke8,
    UInt16.add_assoc]

theorem drivesSetStop (a : UInt32) : Drives i d (Dma.setStop i d a) ({ · with stop := a }) := by
  refine ⟨confinedWrite32 (blockBytes few 4 (by decide)) a, fun r _ => ?_, fun _ => rfl⟩
  change Control.of i d (r.poke32 (Register.dmaBlock i d + 4) a) = _
  have there := Registers.peekPoke32 r (Register.dmaBlock i d + 4) a
  simp [controlEq, there]
  simp [Registers.peek32, Registers.peek16, Registers.poke32, Registers.poke16, Registers.peekPoke8,
    UInt16.add_assoc]

theorem drivesSetBufferLength (length : UInt16) :
    Drives i d (Dma.setBufferLength i d length) ({ · with bufferLength := length }) := by
  have low := Register.inBlock few d (k := 8) (by decide)
  have high := Register.inBlock few d (k := 9) (by decide)
  refine ⟨confinedWrite16 low (by simpa [Register.bufferLength, UInt16.add_assoc] using high)
    length, fun r _ => ?_, fun _ => rfl⟩
  change Control.of i d (r.poke16 (Register.dmaBlock i d + 8) length) = _
  have there := Registers.peekPoke16 r (Register.dmaBlock i d + 8) length
  simp [controlEq, there]
  simp [Registers.peek32, Registers.peek16, Registers.poke16, Registers.peekPoke8, UInt16.add_assoc]

theorem drivesAcknowledge (s : DmaStatus) : Drives i d (Dma.acknowledge i d s) id := by
  have inside := Register.inBlock few d (k := 10) (by decide)
  refine ⟨confinedWrite8 inside _, fun r _ => ?_, fun _ => rfl⟩
  simp [Dma.acknowledge, Registers.write8, Register.status, controlEq, Registers.peek32,
    Registers.peek16, Registers.peekPoke8, UInt16.add_assoc]

theorem drivesCommand (value : UInt8) :
    Drives i d (Registers.write8 (Register.command i d) value) ({ · with command := value }) := by
  have inside := Register.inBlock few d (k := 11) (by decide)
  refine ⟨confinedWrite8 inside _, fun r plain => ?_, fun _ => rfl⟩
  have stored := plain.command
  simp only [Register.command] at stored
  simp [Registers.write8, Register.command, stored, controlEq, Registers.peek32, Registers.peek16,
    Registers.peekPoke8, UInt16.add_assoc]

theorem drivesSetInterrupts (on : Bool) :
    Drives i d (Dma.setInterrupts i d on)
      ({ · with interruptEnable := if on then Register.interruptsOn else 0 }) := by
  have inside := Register.inBlock few d (k := 12) (by decide)
  refine ⟨confinedWrite8 inside _, fun r plain => ?_, fun _ => rfl⟩
  have stored := plain.interruptEnable
  simp only [Register.interruptEnable] at stored
  simp [Dma.setInterrupts, Registers.write8, Register.interruptEnable, stored, controlEq,
    Registers.peek32, Registers.peek16, Registers.peekPoke8, UInt16.add_assoc]

theorem drivesReadStatus : Drives i d (Dma.readStatus i d) id :=
  ⟨confinedBind (confinedRead8 (Register.inBlock few d (k := 10) (by decide))) fun _ =>
    confinedPure _, fun _ _ => rfl, fun _ => rfl⟩

theorem drivesCurrentAddress : Drives i d (Dma.currentAddress i d) id := by
  refine ⟨confinedRead32 (blockBytes few 0 (by decide)), fun r plain => ?_, fun _ => rfl⟩
  simp [Dma.currentAddress, Registers.read32, Registers.read16, plain.currentLow, plain.currentHigh]

omit few in
theorem currentAddressAnswer {r : Registers} (plain : r.wiring.Plain i d) :
    (Dma.currentAddress i d r).answer = (Control.of i d r).current := by
  simp [Dma.currentAddress, Registers.read32, Registers.read16, plain.currentLow, Control.of,
    Registers.peek32]

end Drives

end SerialAdapter
