import SerialAdapter.Proofs.Board.Independence
import SerialAdapter.Proofs.Channel.Telling

/-! The two halves of a channel and of its registers. The data half is what moves frames: rings,
enable flags, and every register but the line interface and the mode; the line half is the set-up,
the telemetry and the alarms. Each operation works on one half without looking at the other. The
traffic counters are in neither: data and line calls both change them, and nothing reads them. -/
namespace SerialAdapter

open Registers

namespace Operation

variable {σ α β γ : Type}

theorem recastBind (op : Operation σ α) (next : α → Operation σ β) (f : β → γ) :
    (op >>= next).recast f = op >>= fun a => (next a).recast f := rfl

theorem recastIf {p : Prop} [Decidable p] (yes no : Operation σ α) (f : α → β) :
    (if p then yes else no).recast f = if p then yes.recast f else no.recast f := by
  split <;> rfl

theorem recastBindCongr {δ : Type} {op op' : Operation σ α} {next next' : α → Operation σ β}
    {f : α → γ} {g : β → δ} (first : op'.recast f = op.recast f)
    (second : ∀ a a', f a' = f a → (next' a').recast g = (next a).recast g) :
    (op' >>= next').recast g = (op >>= next).recast g := by
  funext s
  have here := congrFun first s
  simp only [recastApply, Outcome.mk.injEq] at here
  obtain ⟨answer, state, seen⟩ := here
  have there := congrFun (second _ _ answer) (op s).state
  simp only [recastApply, Outcome.mk.injEq] at there
  simp only [recastApply, bindApply, state, seen, there]

end Operation

open Operation

inductive Half where
  | data
  | line
  deriving DecidableEq, Repr

namespace Half

variable {n size : Nat}

def other : Half → Half
  | .data => .line
  | .line => .data

def Owns (c : Nat) : Half → UInt16 → Prop
  | .data, o => ¬ ∃ i < c, Register.LineBlock i o ∨ o = Register.mode i
  | .line, o => ∃ i < c, Register.LineBlock i o ∨ o = Register.mode i

def view : Half → Channel n size → Channel n size
  | .data, ch => { rings := ch.rings, receiving := ch.receiving, transmitting := ch.transmitting }
  | .line, ch => { setup := ch.setup, line := ch.line, alarms := ch.alarms }

theorem ownsApart {c : Nat} {h : Half} {o : UInt16} (own : h.other.Owns c o) : ¬ h.Owns c o := by
  cases h with
  | data => exact fun away => away own
  | line => exact own

theorem otherOf {h h' : Half} (differs : h' ≠ h) : h'.other = h := by
  cases h <;> cases h' <;> first | rfl | contradiction

section Registers

variable {c i : Nat} (few : c ≤ Limits.maxChannels) (low : i < c)
include few low

omit low in
theorem dataUnless {o : UInt16}
    (outside : ∀ j, ¬ Register.LineBlock j o ∧ o.toNat ≠ 256 * (j + 1) + 1) :
    Half.data.Owns c o := by
  rintro ⟨j, hj, line | rfl⟩
  · exact (outside j).1 line
  · exact (outside j).2
      (Register.offsetNat (Nat.lt_of_lt_of_le hj few) (k := 1) (by decide))

theorem headData {k : Nat} (inside : k < 64) (other : k ≠ 1) :
    Half.data.Owns c (Register.channelBlock i + UInt16.ofNat k) := by
  have place := Register.offsetNat (Nat.lt_of_lt_of_le low few) (k := k) (by omega)
  refine dataUnless few fun j => ?_
  unfold Register.LineBlock
  omega

omit low in
theorem boardData {o : UInt16} (inside : o.toNat < 256) : Half.data.Owns c o := by
  refine dataUnless few fun j => ?_
  unfold Register.LineBlock
  omega

omit low in
theorem blockData {d : Direction} {o : UInt16} (inside : Register.Block i d o) :
    Half.data.Owns c o := by
  have start : Register.blockStart d ≤ 32 ∧ 16 ≤ Register.blockStart d := by cases d <;> decide
  unfold Register.Block at inside
  refine dataUnless few fun j => ?_
  unfold Register.LineBlock
  omega

omit few in
theorem modeLineHalf : Half.line.Owns c (Register.mode i) := ⟨i, low, .inr rfl⟩

omit few in
theorem lineBlockHalf {o : UInt16} (inside : Register.LineBlock i o) : Half.line.Owns c o :=
  ⟨i, low, .inl inside⟩

theorem servedData {o : UInt16} (served : Register.Served i o) : Half.data.Owns c o := by
  rcases served with rfl | rfl | ⟨d, inside⟩
  · exact headData few low (k := 0) (by decide) (by decide)
  · exact headData few low (k := 2) (by decide) (by decide)
  · exact blockData few inside

end Registers

end Half

/-- Work on one half of channel `i`: it stays inside the registers of the half, does not look at the
rest of the channel, and leaves the other half as it is. Only the data half raises events. -/
structure Rides {n size : Nat} {α : Type} (h : Half) (c i : Nat) (work : Channel.Work n size α) :
    Prop where
  confined : ∀ ch, Confined i (h.Owns c) (work ch)
  blind : ∀ {ch ch' : Channel n size}, h.view ch' = h.view ch →
    (work ch').recast (Prod.map id h.view) = (work ch).recast (Prod.map id h.view)
  spares : ∀ ch r, h.other.view (work ch r).answer.2 = h.other.view ch
  mute : h = .line → ∀ ch r, events (work ch r).seen = []

section Data

variable {n size c i : Nat}

theorem viewSide {ch ch' : Channel n size} (same : Half.data.view ch' = Half.data.view ch)
    (d : Direction) : ch'.side d = ch.side d := by
  have sides := congrArg (Channel.side · d) same
  cases d <;> exact sides

theorem viewWithSide {ch ch' : Channel n size} (same : Half.data.view ch' = Half.data.view ch)
    (d : Direction) (x : SlotRing n size × Bool) :
    Half.data.view (ch'.withSide d x) = Half.data.view (ch.withSide d x) := by
  have both := congrArg (Channel.withSide · d x) same
  cases d <;> exact both

theorem sidedRides (few : c ≤ Limits.maxChannels) {α : Type} {d : Direction}
    {work : Channel.Work n size α}
    (sided : Sided i d work) : Rides .data c i work where
  confined ch := confinedMono (sided.confined ch) fun _ => Half.blockData few
  blind {ch ch'} same := by
    funext r
    have left := sided.reads (viewSide same d) r
    have right := sided.reads (rfl : ch.side d = ch.side d) r
    have whole := viewWithSide same d ((work ch r).answer.2.side d)
    have kept := congrArg (·.answer.2) right
    simp only [recastApply, left, Prod.map, whole]
    simp only at kept
    rw [← kept]
  spares ch r := by
    have kept := congrArg (·.answer.2) (sided.reads (rfl : ch.side d = ch.side d) r)
    simp only at kept
    rw [kept]
    cases d <;> rfl
  mute line := by contradiction

end Data

namespace Duplex

variable {n size : Nat}

theorem receiveBlind (i : Nat) (x : Duplex n size) (t t' : Traffic) :
    (serviceReceive i x t').recast Prod.fst = (serviceReceive i x t).recast Prod.fst := by
  have report (a : UInt32) (t t' : Traffic) :
      (reportReceive i x t' a).recast Prod.fst = (reportReceive i x t a).recast Prod.fst := by
    simp only [reportReceive, recastBind, recastIf]
    rfl
  have answered (s : DmaStatus) (t t' : Traffic) :
      (answerReceive i x t' s).recast Prod.fst = (answerReceive i x t s).recast Prod.fst := by
    unfold answerReceive
    split
    · rfl
    · simp only [recastBind, report _ t t']
  simp only [serviceReceiveEq, recastBind,
    answered _ (t.countInterrupt .receive) (t'.countInterrupt .receive)]

theorem transmitBlind (i : Nat) (x : Duplex n size) (t t' : Traffic) :
    (serviceTransmit i x t').recast Prod.fst = (serviceTransmit i x t).recast Prod.fst := by
  simp only [serviceTransmitEq, recastBind]
  rfl

end Duplex

namespace Channel

variable {n size i : Nat} {ch ch' : Channel n size}

theorem receivePartBlind (same : Half.data.view ch' = Half.data.view ch) (asked : Bool) :
    (receivePart i asked ch').recast Half.data.view =
      (receivePart i asked ch).recast Half.data.view := by
  obtain ⟨rings, receiving, transmitting⟩ : ch'.rings = ch.rings ∧ ch'.receiving = ch.receiving ∧
      ch'.transmitting = ch.transmitting := by simpa [Half.view] using same
  unfold receivePart
  rw [receiving]
  split
  · funext r
    have blind := congrFun (Duplex.receiveBlind i ch.rings ch.traffic ch'.traffic) r
    simp only [recastApply, Outcome.mk.injEq] at blind
    simp only [recastApply, serviceReceiveApply, Half.view, rings, receiving, transmitting, blind]
  · funext r
    simp [same]

theorem transmitPartBlind (same : Half.data.view ch' = Half.data.view ch) (asked : Bool) :
    (transmitPart i asked ch').recast Half.data.view =
      (transmitPart i asked ch).recast Half.data.view := by
  obtain ⟨rings, receiving, transmitting⟩ : ch'.rings = ch.rings ∧ ch'.receiving = ch.receiving ∧
      ch'.transmitting = ch.transmitting := by simpa [Half.view] using same
  unfold transmitPart
  rw [transmitting]
  split
  · funext r
    have blind := congrFun (Duplex.transmitBlind i ch.rings ch.traffic ch'.traffic) r
    simp only [recastApply, Outcome.mk.injEq] at blind
    simp only [recastApply, serviceTransmitApply, Half.view, rings, receiving, transmitting, blind]
  · funext r
    simp [same]

theorem serviceBlind (same : Half.data.view ch' = Half.data.view ch) :
    (ch'.service i).recast Half.data.view = (ch.service i).recast Half.data.view := by
  have answered (s : InterruptStatus) : (answerInterrupts i s ch').recast Half.data.view =
      (answerInterrupts i s ch).recast Half.data.view := by
    refine recastBindCongr (receivePartBlind same s.receive) fun a a' first => ?_
    refine recastBindCongr (transmitPartBlind first s.transmit) fun b b' second => ?_
    funext r
    simp [second]
  simp only [serviceEq, recastBind, recastIf, answered]
  refine congrArg (read8 (Register.interrupts i) >>= ·) (funext fun byte => ?_)
  split
  · rfl
  · funext r
    simp [same]

end Channel

def Call.half {c : Nat} : Call c → Half
  | .setMode .. | .resyncLine _ | .clearStatistics _ | .tickChannel _ | .tick => .line
  | .init .. | .enable .. | .send .. | .sendPrepared .. | .prepare .. | .takePending
  | .serviceChannel _ | .handleInterrupt => .data

section Works

variable {n size c i : Nat}

theorem lineRides {α : Type} {work : Channel.Work n size α}
    (confined : ∀ ch, Confined i (Half.line.Owns c) (work ch))
    (reads : ∀ ch, (work ch).recast (Prod.map id Half.line.view) =
      (work (Half.line.view ch)).recast (Prod.map id Half.line.view))
    (spares : ∀ ch r, Half.data.view (work ch r).answer.2 = Half.data.view ch)
    (mute : ∀ ch r, events (work ch r).seen = []) : Rides .line c i work where
  confined := confined
  blind {ch ch'} same := by rw [reads, reads ch, same]
  spares := spares
  mute _ := mute

theorem resyncRides {α : Type} (reply : α) (t : Thresholds) :
    Rides .line c i fun (ch : Channel n size) => pure (reply, ch.resync t) :=
  lineRides (fun _ => confinedPure _) (fun _ => rfl) (fun _ _ => rfl) fun _ _ => rfl

theorem clearRides {α : Type} (reply : α) (scope : ClearScope) :
    Rides .line c i fun (ch : Channel n size) => Operation.recast (reply, ·) do
      Operation.notify (.cleared scope)
      return ch.clear scope := by
  refine lineRides (fun ch => ?_) (fun ch => ?_) (fun ch r => ?_) fun ch r => rfl
  · refine confinedRecast (confinedBind (confinedEmit fun a shown => ?_) fun _ => confinedPure _) _
    cases List.mem_singleton.mp shown
    intro j named
    contradiction
  · cases scope <;> rfl
  · cases scope <;> rfl

section Line

variable (low : i < c)
include low

theorem setModeRides {α : Type} (reply : α) (mode : ChannelMode) (t : Thresholds) :
    Rides .line c i fun (ch : Channel n size) => (ch.setMode i mode t).recast (reply, ·) := by
  refine lineRides (fun ch => ?_) (fun ch => ?_) (fun ch r => ?_) fun ch r => rfl
  · refine confinedRecast (confinedMono (confinedProgramMode t _) fun o there => ?_) _
    exact there ▸ Half.modeLineHalf low
  · cases mode <;> rfl
  · cases mode <;> rfl

theorem tickRides {α : Type} (few : c ≤ Limits.maxChannels)
    (reply : Option Telemetry.Verdict → α) (t : Thresholds) :
    Rides .line c i fun (ch : Channel n size) =>
      (ch.tick i t).recast fun done => (reply done.1, done.2) := by
  refine lineRides (fun ch => ?_) (fun ch => ?_) (fun ch r => ?_) fun ch r => ?_
  · have ticked := confinedTick (Nat.lt_of_lt_of_le low few) t ch
    exact confinedRecast (confinedMono ticked fun _ => Half.lineBlockHalf low) _
  · cases on : ch.setup.mode.isLine <;>
      simp only [Channel.tick, Half.view, on, Bool.false_eq_true, ↓reduceIte] <;> rfl
  · simp only [Channel.tick, recastIf]
    split <;> rfl
  · simp only [Channel.tick, recastIf]
    split
    · obtain ⟨kept, told⟩ :=
        observeSeen ch.setup.mode ch.setup.crc4 (Line.sample i r).answer t ch.line
      have sampled : events (Line.sample i r).seen = [] := rfl
      simp only [recastApply, bindApply, Channel.recordSecond, emit, eventsAppend, sampled]
      rcases told with none | closed
      · rw [none]
        rfl
      · rw [closed]
        rfl
    · rfl

end Line

variable (few : c ≤ Limits.maxChannels) (low : i < c)
include few low

theorem serviceRides {α : Type} (reply : α) :
    Rides .data c i fun (ch : Channel n size) => (ch.service i).recast (reply, ·) where
  confined ch :=
    confinedRecast (confinedMono (confinedServed (Nat.lt_of_lt_of_le low few) ch) fun _ =>
      Half.servedData few low) _
  blind {ch ch'} same :=
    congrArg (Operation.recast (Prod.mk reply)) (Channel.serviceBlind (i := i) same)
  spares ch r := by
    obtain ⟨g, -, served⟩ := Channel.serviced (Nat.lt_of_lt_of_le low few) ch r
    simp only [recastApply, served.channel]
    rfl
  mute line := by contradiction

omit few low in
theorem sidedPrepare (t : Thresholds) (j : Nat) (data : Bytes) :
    Sided i .transmit (Call.within i t (.prepare j data : Call c) : Channel.Work n size Reply) := by
  refine ⟨fun ch => confinedIf (confinedPure _) (confinedPure _), fun {ch ch'} same r => ?_⟩
  rcases ch with ⟨setup, ⟨receive, transmit⟩, receiving, transmitting, traffic, line, alarms⟩
  rcases ch' with ⟨setup', ⟨receive', transmit'⟩, receiving', transmitting', traffic', line',
    alarms'⟩
  obtain ⟨rfl, rfl⟩ : transmit' = transmit ∧ transmitting' = transmitting := by
    simpa [Channel.side, Duplex.ring, Channel.isEnabled] using same
  simp only [Call.within]
  split <;> rfl

theorem withinRides {k : Call c} (named : k.channel? = some i) (t : Thresholds) :
    Rides k.half c i (k.within i t : Channel.Work n size Reply) := by
  have here := Nat.lt_of_lt_of_le low few
  cases k with
  | enable j d on => exact sidedRides few (sidedEnable here t j d on)
  | send j data tag => exact sidedRides few (sidedSend here _ _ _)
  | sendPrepared j length tag => exact sidedRides few (sidedSend here _ _ _)
  | prepare j data => exact sidedRides few (sidedPrepare t j data)
  | serviceChannel j => exact serviceRides few low _
  | setMode j mode => exact setModeRides low _ mode t
  | resyncLine j => exact resyncRides _ t
  | clearStatistics scope => exact clearRides _ scope
  | tickChannel j => exact tickRides low few (fun verdict => Reply.second (.ok verdict)) t
  | _ => contradiction

end Works

end SerialAdapter
