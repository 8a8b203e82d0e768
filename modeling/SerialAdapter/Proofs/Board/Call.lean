import SerialAdapter.Board
import SerialAdapter.Proofs.Channel.Share

/-! The calls on a board, and what each comes to for one channel. A board is no more than its
channels: a call takes a channel where the share of the call takes it, whatever happens to the
other channels on the way. `openWith` is not among the calls, it is two of them. -/
namespace SerialAdapter

open Registers

inductive Call (c : Nat) where
  | init (setup : BoardSetup c) (place : Nat → Direction → Placement)
  | enable (channel : Nat) (direction : Direction) (on : Bool)
  | setMode (channel : Nat) (mode : ChannelMode)
  | resyncLine (channel : Nat)
  | clearStatistics (scope : ClearScope)
  | send (channel : Nat) (data : Bytes) (tag : UInt64)
  | sendPrepared (channel length : Nat) (tag : UInt64)
  | prepare (channel : Nat) (data : Bytes)
  | takePending
  | serviceChannel (channel : Nat)
  | handleInterrupt
  | tickChannel (channel : Nat)
  | tick

namespace Operation

variable {σ α : Type}

def silent (op : Operation σ α) : Operation σ Unit := fun s => ⟨(), (op s).state, (op s).seen⟩

end Operation

abbrev Board.channel {c n size : Nat} (b : Board c n size) (i : Fin c) : Channel n size :=
  getElem b.channels i.val i.isLt

namespace Call

variable {c n size : Nat}

def perform : Call c → Operation (Board c n size) Unit
  | .init setup place => (Board.init setup place).silent
  | .enable i d on => (Board.enable i d on).silent
  | .setMode i mode => (Board.setMode i mode).silent
  | .resyncLine i => (Board.resyncLine i).silent
  | .clearStatistics scope => (Board.clearStatistics scope).silent
  | .send i data tag => (Board.send i data tag).silent
  | .sendPrepared i length tag => (Board.sendPrepared i length tag).silent
  | .prepare i data => (Board.prepare i data).silent
  | .takePending => Board.takePending.silent
  | .serviceChannel i => (Board.serviceChannel i).silent
  | .handleInterrupt => Board.handleInterrupt
  | .tickChannel i => (Board.tickChannel i).silent
  | .tick => Board.tick

def pending (b : Board c n size) : UInt8 :=
  b.registers.peek8 Register.boardInterrupts &&& Board.channelMask c

def concerns (b : Board c n size) (i : Fin c) : Call c → Bool
  | .init .. | .takePending => false
  | .enable j .. | .setMode j _ | .resyncLine j | .serviceChannel j | .tickChannel j => j = i
  | .clearStatistics (.channel j) | .clearStatistics (.line j) => j = i
  | .clearStatistics .board | .tick => true
  | .send j data _ => j = i && (b.channel i).transmitting && data.length != 0
  | .sendPrepared j length _ => j = i && (b.channel i).transmitting && length != 0
  | .prepare j _ => j = i && (b.channel i).transmitting
  | .handleInterrupt => (pending b).toNat.testBit i

def own : Call c → Share
  | .init .. | .takePending => .rest
  | .enable _ d on => .enable d on
  | .setMode _ mode => .setMode mode
  | .resyncLine _ => .resync
  | .clearStatistics scope => .clear scope
  | .send _ data tag => .send (some data) data.length tag
  | .sendPrepared _ length tag => .send none length tag
  | .prepare _ data => .prepare data
  | .serviceChannel _ | .handleInterrupt => .service
  | .tickChannel _ | .tick => .tick

def share (b : Board c n size) (i : Fin c) (k : Call c) : Share :=
  if k.concerns b i then k.own else .rest

end Call

structure Split {c n size : Nat} {α : Type} (i : Fin c) (share : Share) (b : Board c n size)
    (done : Outcome (Board c n size) α) : Prop where
  channel : done.state.channel i =
    (share.perform i b.thresholds (b.channel i) b.registers).answer
  registers : Alike (Register.Window i)
    (share.perform i b.thresholds (b.channel i) b.registers).state done.state.registers
  news : about i done.seen =
    about i (share.perform i b.thresholds (b.channel i) b.registers).seen
  thresholds : done.state.thresholds = b.thresholds
  initialized : done.state.initialized = b.initialized

section Split

variable {c n size : Nat} {α β : Type} {i : Fin c} {b : Board c n size}

theorem splitSilent {share : Share} {op : Operation (Board c n size) α}
    (h : Split i share b (op b)) : Split i share b (op.silent b) :=
  ⟨h.channel, h.registers, h.news, h.thresholds, h.initialized⟩

theorem splitSame (done : Outcome (Board c n size) α) (state : done.state = b)
    (quiet : about i done.seen = []) : Split i .rest b done := by
  refine ⟨?_, ?_, quiet, ?_, ?_⟩
  all_goals rw [state]
  · rfl
  · exact .refl _

theorem splitRefuse {ε : Type} (error : ε) :
    Split i .rest b (Board.refuse error b : Outcome (Board c n size) (Except ε α)) :=
  splitSame _ rfl rfl

theorem splitThenRest {share : Share} {op : Operation (Board c n size) α}
    {next : α → Operation (Board c n size) β} (first : Split i share b (op b))
    (second : Split i .rest (op b).state (next (op b).answer (op b).state)) :
    Split i share b ((op >>= next) b) where
  channel := second.channel.trans first.channel
  registers := first.registers.trans second.registers
  news := by
    rw [Operation.bindApply, aboutAppend, first.news, second.news]
    exact List.append_nil _
  thresholds := second.thresholds.trans first.thresholds
  initialized := second.initialized.trans first.initialized

theorem splitRestThen (few : i < Limits.maxChannels) {share : Share}
    {op : Operation (Board c n size) α} {next : α → Operation (Board c n size) β}
    (first : Split i .rest b (op b))
    (second : Split i share (op b).state (next (op b).answer (op b).state)) :
    Split i share b ((op >>= next) b) := by
  -- the first part may have changed any register but those that the share depends on
  have confined := confinedShare few share b.thresholds (b.channel i)
  have channel : (op b).state.channel i = b.channel i := first.channel
  have alike : Alike (Register.Window i) b.registers (op b).state.registers := first.registers
  have answer := second.channel
  have registers := second.registers
  have news := second.news
  rw [channel, first.thresholds] at answer registers news
  exact {
    channel := answer.trans (confined.answer alike)
    registers := (confined.state alike).trans registers
    news := by
      rw [Operation.bindApply, aboutAppend, first.news, news, confined.seen alike]
      rfl
    thresholds := second.thresholds.trans first.thresholds
    initialized := second.initialized.trans first.initialized }

structure Plays (i : Nat) (t : Thresholds) (share : Share)
    (op : Channel n size → Operation Registers (α × Channel n size)) : Prop where
  answer : ∀ ch r, (op ch r).answer.2 = (share.perform i t ch r).answer
  state : ∀ ch r, (op ch r).state = (share.perform i t ch r).state
  news : ∀ j ch r, about j (op ch r).seen = about j (share.perform i t ch r).seen

theorem playsShare {t : Thresholds} {share : Share} {j : Nat} :
    Plays j t share fun (ch : Channel n size) => do
      let ch ← share.perform j t ch
      return ((), ch) := by
  refine ⟨fun _ _ => rfl, fun _ _ => rfl, fun k ch r => ?_⟩
  rw [Operation.bindApply, Operation.pureApply, List.append_nil]

theorem aboutOther {j k : Nat} {t : UInt16 → Prop} (other : j ≠ k) {seen : List Action}
    (tells : ∀ a ∈ seen, a.Of j t) : about k seen = [] := by
  refine List.filter_eq_nil_iff.mpr fun a shown named => ?_
  have own := tells a shown
  have channel : a.channel? = some k := by simpa using named
  cases a with
  | access a => contradiction
  | wait micros => contradiction
  | remark text => contradiction
  | event e => exact other (own k channel).symm
  | notice m => exact other (own k channel).symm

theorem splitOnChannel (few : c ≤ Limits.maxChannels) {share : Share} {j : Nat} (h : j < c)
    {op : Channel n size → Operation Registers (α × Channel n size)}
    (plays : Plays j b.thresholds share op) :
    Split i (if j = i then share else .rest) b (Board.onChannel j h op b) := by
  split
  · rename_i own
    subst own
    refine ⟨?_, ?_, plays.news i _ _, rfl, rfl⟩
    · simp [Board.onChannel, Board.channel, plays.answer]
    · simp only [Board.onChannel, plays.state]
      exact .refl _
  · rename_i other
    have confined := confinedShare (Nat.lt_of_lt_of_le h few) share b.thresholds b.channels[j]
    refine ⟨?_, ?_, ?_, rfl, rfl⟩
    · simp [Board.onChannel, Board.channel, other, Share.perform]
    · simp only [Board.onChannel, plays.state]
      exact (confined.frame b.registers).mono fun o inside inside' =>
        Register.windowsApart other inside' inside
    · have quiet := aboutOther other (confined.tells b.registers)
      exact (plays.news i b.channels[j] b.registers).trans quiet

theorem splitChecked (few : c ≤ Limits.maxChannels) (up : b.initialized = true) {share : Share}
    {j : Nat} {op : Thresholds → Channel n size → Operation Registers (α × Channel n size)}
    (plays : Plays j b.thresholds share (op b.thresholds)) :
    Split i (if j = i then share else .rest) b (Board.checked j op b) := by
  unfold Board.checked Board.obstacle?
  by_cases low : j < c
  · have split := splitOnChannel (i := i) few low plays
    have high : ¬ c ≤ j := by omega
    simp only [up, Bool.not_true, Bool.false_eq_true, ↓reduceIte, high, low, ↓reduceDIte]
    refine ⟨split.channel, split.registers, ?_, split.thresholds, split.initialized⟩
    rw [← split.news]
    exact congrArg (about i) (List.append_nil _)
  · have other : j ≠ i := by omega
    have high : c ≤ j := by omega
    simp only [up, Bool.not_true, Bool.false_eq_true, ↓reduceIte, high, other]
    exact splitRefuse _

theorem splitChange (few : c ≤ Limits.maxChannels) (up : b.initialized = true) (share : Share)
    (j : Nat) : Split i (if j = i then share else .rest) b
      (Board.change j (fun t ch => share.perform j t ch) b) :=
  splitChecked few up playsShare

theorem splitTransmitting (few : c ≤ Limits.maxChannels) {share : Share} {j : Nat}
    {op : Channel n size → Operation Registers (α × Channel n size)}
    (plays : Plays j b.thresholds share op) {off away : Outcome (Board c n size) α}
    (idle : Split i .rest b off) (missing : Split i .rest b away) :
    Split i (if j = i ∧ (b.channel i).transmitting then share else .rest) b
      (if h : j < c then
        if b.channels[j].transmitting then Board.onChannel j h op b else off
      else away) := by
  by_cases low : j < c
  · simp only [low, ↓reduceDIte]
    have split := splitOnChannel (i := i) few low plays
    by_cases own : j = i
    · subst own
      by_cases on : (b.channel i).transmitting
      · simpa [on] using split
      · simpa [on] using idle
    · simp only [own, false_and, ↓reduceIte] at split ⊢
      split
      · exact split
      · exact idle
  · have other : j ≠ i := by omega
    simp only [low, ↓reduceDIte, other, false_and, ↓reduceIte]
    exact missing

theorem splitSendable (few : c ≤ Limits.maxChannels) {share : Share} {j : Nat}
    {op : Channel n size → Operation Registers (Except SendError α × Channel n size)}
    (plays : Plays j b.thresholds share op) :
    Split i (if j = i ∧ (b.channel i).transmitting then share else .rest) b
      (Board.sendable j op b) :=
  splitTransmitting few plays (splitRefuse _) (splitRefuse _)

theorem splitSendFrame (few : c ≤ Limits.maxChannels) (j : Nat) (data : Option Bytes)
    (length : Nat) (tag : UInt64) :
    Split i (if j = i && (b.channel i).transmitting && length != 0 then .send data length tag
      else .rest) b (Board.sendFrame j data length tag b) := by
  unfold Board.sendFrame
  by_cases empty : length = 0
  · have plays : Plays j b.thresholds .rest fun ch =>
        (pure (Except.error SendError.invalidLength, ch) :
          Operation Registers (Except SendError Unit × Channel n size)) :=
      ⟨fun _ _ => rfl, fun _ _ => rfl, fun _ _ _ => rfl⟩
    have split := splitSendable (i := i) few plays
    simpa [empty] using split
  · have plays : Plays j b.thresholds (.send data length tag) fun (ch : Channel n size) =>
        ch.send j data length tag := by
      refine ⟨fun _ _ => rfl, fun _ _ => rfl, fun k ch r => ?_⟩
      simp [Share.perform]
    have split := splitSendable (i := i) few plays
    simpa [empty] using split

theorem splitPrepare (few : c ≤ Limits.maxChannels) (j : Nat) (data : Bytes) :
    Split i (if j = i ∧ (b.channel i).transmitting then .prepare data else .rest) b
      (Board.prepare j data b) := by
  have plays : Plays j b.thresholds (.prepare data) fun ch =>
      (pure (ch.prepare data) : Operation Registers (Option Nat × Channel n size)) :=
    ⟨fun _ _ => rfl, fun _ _ => rfl, fun _ _ _ => rfl⟩
  have refused : Split i .rest b (⟨none, b, []⟩ : Outcome (Board c n size) (Option Nat)) :=
    splitSame _ rfl rfl
  exact splitTransmitting few plays refused refused

theorem splitOnRegisters {op : Operation Registers α}
    (confined : ∀ j, Confined j (·.toNat < 256) op) :
    Split i .rest b (Board.onRegisters op b) where
  channel := rfl
  registers := ((confined i).frame b.registers).mono fun o inside low => by
    unfold Register.Window at inside
    omega
  news := by
    have tells := (confined (i + 1)).tells b.registers
    exact aboutOther (by omega) tells
  thresholds := rfl
  initialized := rfl

theorem confinedPending (c j : Nat) : Confined j (·.toNat < 256) (do
    let summary ← read8 Register.boardInterrupts
    let pending := summary &&& Board.channelMask c
    if pending ≠ 0 then write8 Register.boardInterrupts pending
    return pending) := by
  have low : Register.boardInterrupts.toNat < 256 := by decide
  refine confinedBind (confinedRead8 low) fun summary => confinedIf ?_ (confinedPure _)
  exact confinedBind (confinedWrite8 low _) fun _ => confinedPure _

theorem splitTakePending (up : b.initialized = true) :
    Split i .rest b (Board.takePending b) := by
  unfold Board.takePending
  rw [if_pos up]
  exact splitOnRegisters (confinedPending c)

theorem takePendingAnswer (up : b.initialized = true) :
    (Board.takePending b).answer = Call.pending b := by
  unfold Board.takePending
  rw [if_pos up]
  simp only [Board.onRegisters, Operation.bindApply]
  split <;> rfl

section ForM

variable (few : c ≤ Limits.maxChannels) {share : Share}
  {step : Fin c → Operation (Board c n size) Unit} {t : Thresholds}
  (each : ∀ (j : Fin c) b, b.thresholds = t →
    Split i (if (j : Nat) = i then share else .rest) b (step j b))
include each

theorem splitForMRest {l : List (Fin c)} (absent : i ∉ l) (shared : b.thresholds = t) :
    Split i .rest b (List.forM l step b) := by
  induction l generalizing b with
  | nil => exact splitSame _ rfl rfl
  | cons j l ih =>
    obtain ⟨apart, absent⟩ := not_or.mp (mt List.mem_cons.mpr absent)
    have first := each j b shared
    rw [if_neg fun same => apart (Fin.ext same).symm] at first
    exact splitThenRest first (ih absent (first.thresholds.trans shared))

include few

theorem splitForM {l : List (Fin c)} (once : l.Nodup) (present : i ∈ l)
    (shared : b.thresholds = t) : Split i share b (List.forM l step b) := by
  induction l generalizing b with
  | nil => contradiction
  | cons j l ih =>
    obtain ⟨fresh, once⟩ := List.nodup_cons.mp once
    have first := each j b shared
    by_cases own : j = i
    · subst own
      rw [if_pos rfl] at first
      exact splitThenRest first (splitForMRest each fresh (first.thresholds.trans shared))
    · have rest := (List.mem_cons.mp present).resolve_left (Ne.symm own)
      rw [if_neg fun same => own (Fin.ext same)] at first
      exact splitRestThen (Nat.lt_of_lt_of_le i.isLt few) first
        (ih once rest (first.thresholds.trans shared))

end ForM

theorem playsService (i : Nat) (t : Thresholds) :
    Plays i t .service fun (ch : Channel n size) => do
      let ch ← ch.service i
      return ((), ch) := playsShare

theorem splitServicePending (few : c ≤ Limits.maxChannels) (j : Fin c) :
    Split i (if (j : Nat) = i then .service else .rest) b (Board.servicePending j b) :=
  splitOnChannel few j.isLt (playsService j b.thresholds)

theorem playsTick (i : Nat) (t : Thresholds) :
    Plays i t .tick fun (ch : Channel n size) => ch.tick i t := by
  refine ⟨fun _ _ => rfl, fun _ _ => rfl, fun k ch r => ?_⟩
  exact congrArg (about k) (List.append_nil _).symm

theorem splitTickEach (few : c ≤ Limits.maxChannels) (j : Fin c) :
    Split i (if (j : Nat) = i then .tick else .rest) b (Board.tickEach j b) := by
  have split := splitOnChannel (i := i) (b := b) few j.isLt (playsTick j b.thresholds)
  exact ⟨split.channel, split.registers, split.news, split.thresholds, split.initialized⟩

theorem splitHandleInterrupt (few : c ≤ Limits.maxChannels) (up : b.initialized = true) :
    Split i (if (Call.pending b).toNat.testBit i then .service else .rest) b
      (Board.handleInterrupt b) := by
  have first := splitTakePending (i := i) up
  have answer := takePendingAnswer up
  have once : (Board.pendingChannels c (Board.takePending b).answer).Nodup :=
    (List.nodup_finRange c).filter _
  have member : i ∈ Board.pendingChannels c (Board.takePending b).answer ↔
      (Call.pending b).toNat.testBit i = true := by simp [Board.pendingChannels, answer]
  have each (j : Fin c) (b' : Board c n size) (_ : b'.thresholds = b.thresholds) :=
    splitServicePending (i := i) (b := b') few j
  refine splitRestThen (Nat.lt_of_lt_of_le i.isLt few) first ?_
  split
  · rename_i asked
    exact splitForM few each once (member.mpr asked) first.thresholds
  · rename_i idle
    exact splitForMRest each (mt member.mp idle) first.thresholds

theorem splitTick (few : c ≤ Limits.maxChannels) (up : b.initialized = true) :
    Split i .tick b (Board.tick b) := by
  unfold Board.tick
  rw [if_pos up]
  exact splitForM few (fun j b _ => splitTickEach few j) (List.nodup_finRange c)
    (List.mem_finRange i) rfl

theorem splitClear (few : c ≤ Limits.maxChannels) (up : b.initialized = true)
    (scope : ClearScope) (j : Nat) :
    Split i (if j = i then .clear scope else .rest) b (Board.clearChannel j scope b) := by
  unfold Board.clearChannel Board.change
  refine splitChecked few up ?_
  exact ⟨fun _ _ => rfl, fun _ _ => rfl, fun _ _ _ => rfl⟩

theorem splitClearBoard (up : b.initialized = true) :
    Split i (.clear .board) b (Board.clearBoard b) := by
  unfold Board.clearBoard
  rw [if_pos up]
  refine ⟨?_, .refl _, rfl, rfl, rfl⟩
  simp [Board.channel, Share.perform]

theorem splitInitChannel (few : c ≤ Limits.maxChannels) (setup : BoardSetup c)
    (place : Nat → Direction → Placement) (shared : b.thresholds = setup.thresholds) (j : Fin c) :
    Split i (if (j : Nat) = i then .init (setup.channels.get i) (place i) else .rest) b
      (Board.initChannel setup place j b) := by
  have plays : Plays j b.thresholds
      (.init (setup.channels.get j) (place j)) fun (ch : Channel n size) => do
        let ch ← ch.init j (setup.channels.get j) (place j) setup.thresholds
        return ((), ch) := by
    rw [← shared]
    exact playsShare
  have split := splitOnChannel (i := i) few j.isLt plays
  by_cases own : (j : Nat) = i
  · cases Fin.ext own
    exact split
  · rw [if_neg own] at split ⊢
    exact split

theorem splitBringUp (few : c ≤ Limits.maxChannels) (setup : BoardSetup c)
    (place : Nat → Direction → Placement) (shared : b.thresholds = setup.thresholds) :
    Split i (.init (setup.channels.get i) (place i)) b (Board.bringUp setup place b) := by
  have reset (j : Nat) : Confined j (·.toNat < 256) Board.resetControllers :=
    confinedBind (confinedWrite8 (by decide) 1) fun _ =>
      confinedBind (confinedEmit fun a shown => by
        cases List.mem_singleton.mp shown
        intro k named
        contradiction) fun _ =>
      confinedBind (confinedWrite8 (by decide) 0) fun _ => confinedEmit fun a shown => by
        cases List.mem_singleton.mp shown
        intro k named
        contradiction
  have mask (j : Nat) : Confined j (·.toNat < 256)
      (write8 Register.boardInterrupts (Board.channelMask c)) := confinedWrite8 (by decide) _
  have low := Nat.lt_of_lt_of_le i.isLt few
  have first : Split i .rest b (Board.onRegisters Board.resetControllers b) :=
    splitOnRegisters reset
  have each := splitForM few (fun j _ shared => splitInitChannel few setup place shared j)
    (List.nodup_finRange c) (List.mem_finRange i) (first.thresholds.trans shared)
  refine splitRestThen low first (splitThenRest each ?_)
  exact splitThenRest (splitOnRegisters mask) (splitSame _ rfl rfl)

theorem callSplit (few : c ≤ Limits.maxChannels) (up : b.initialized = true) (k : Call c)
    (i : Fin c) : Split i (k.share b i) b (k.perform b) := by
  have named {share : Share} {α : Type} {j : Nat} {done : Outcome (Board c n size) α}
      (split : Split i (if j = i then share else .rest) b done) :
      Split i (if decide (j = i) = true then share else .rest) b done := by
    simpa using split
  cases k with
  | init setup place =>
    refine splitSilent ?_
    unfold Board.init Board.initError?
    rw [if_pos up]
    exact splitRefuse _
  | enable j d on => exact splitSilent (named (splitChange few up (.enable d on) j))
  | setMode j mode => exact splitSilent (named (splitChange few up (.setMode mode) j))
  | resyncLine j => exact splitSilent (named (splitChange few up .resync j))
  | clearStatistics scope =>
    refine splitSilent ?_
    cases scope with
    | channel j => exact named (splitClear few up _ j)
    | line j => exact named (splitClear few up _ j)
    | board => exact splitClearBoard up
  | send j data tag => exact splitSilent (splitSendFrame few j _ _ _)
  | sendPrepared j length tag => exact splitSilent (splitSendFrame few j _ _ _)
  | prepare j data =>
    have split := splitPrepare (b := b) (i := i) few j data
    refine splitSilent ?_
    simpa [Call.share, Call.concerns, Call.own] using split
  | takePending => exact splitSilent (splitTakePending up)
  | serviceChannel j => exact splitSilent (named (splitChange few up .service j))
  | handleInterrupt => exact splitHandleInterrupt few up
  | tickChannel j => exact splitSilent (named (splitChecked few up (playsTick j b.thresholds)))
  | tick => exact splitTick few up

theorem shareStarted (b : Board c n size) (i : Fin c) (k : Call c) (setup : ChannelSetup)
    (place : Direction → Placement) : k.share b i ≠ .init setup place := by
  unfold Call.share
  split
  · cases k <;> exact Share.noConfusion
  · exact Share.noConfusion

theorem shareTransmitting {k : Call c} {data : Option Bytes} {length : Nat} {tag : UInt64}
    (same : k.share b i = .send data length tag) : (b.channel i).transmitting = true := by
  unfold Call.share at same
  split at same
  · rename_i reached
    cases k with
    | send j bytes t =>
      simp only [Call.concerns, Bool.and_eq_true] at reached
      exact reached.1.2
    | sendPrepared j l t =>
      simp only [Call.concerns, Bool.and_eq_true] at reached
      exact reached.1.2
    | _ => exact Share.noConfusion same
  · exact Share.noConfusion same

end Split

end SerialAdapter
