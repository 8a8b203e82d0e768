import SerialAdapter.Proofs.Board.Run
import SerialAdapter.Proofs.Ring.Queue

/-! A board on hostile hardware. Before every call the registers and all that the bus can reach of
the rings may change at will. What the driver relies on for its own memory holds nevertheless: the
indices, and the tags, of which every armed slot of a transmit ring has one and no other slot has. -/
namespace SerialAdapter.SlotRing

variable {n size : Nat} {r r' : SlotRing n size}

structure Tagged (r : SlotRing n size) : Prop where
  indexed : r.Indexed
  held : ∀ s ∈ r.held, s.tag.isSome = true
  spare : ∀ s ∈ r.spare, s.tag = none

theorem taggedAt (h : r.Tagged) {k : Nat} (low : k < n) :
    (r.slot (r.oldest + k)).tag.isSome = true ↔ k < r.inFlight := by
  have whole : (r.held ++ r.spare)[k]? = some (r.slot (r.oldest + k)) := by
    rw [heldSpare h.indexed]
    exact windowGet r r.oldest low
  rw [List.getElem?_append, heldLength] at whole
  constructor
  · intro some
    refine Decidable.byContradiction fun outside => ?_
    rw [if_neg outside] at whole
    have none := h.spare _ (List.mem_of_getElem? whole)
    rw [none] at some
    contradiction
  · intro inside
    rw [if_pos inside] at whole
    exact h.held _ (List.mem_of_getElem? whole)

theorem taggedReset (filled : 0 < n) (r : SlotRing n size) : r.reset.Tagged where
  indexed := indexedReset filled r
  held s shown := by
    rw [heldReset] at shown
    contradiction
  spare s shown := by
    rw [spareReset filled] at shown
    obtain ⟨old, -, rfl⟩ := List.mem_map.mp shown
    rfl

theorem taggedEnqueue (h : r.Tagged) {data : Option Bytes} {length k : Nat} {tag : UInt64}
    (ok : r.enqueue data length tag = .ok (k, r')) : r'.Tagged := by
  obtain ⟨-, free, -, rfl⟩ := enqueueOk ok
  have room := roomOfFree h.indexed free
  refine ⟨extendIndexed (indexedModify h.indexed _ _), fun s shown => ?_, fun s shown => ?_⟩
  · rw [heldPut h.indexed _ room] at shown
    rcases List.mem_append.mp shown with old | new
    · exact h.held s old
    · cases List.mem_singleton.mp new
      rfl
  · rw [sparePut h.indexed _ room] at shown
    exact h.spare s (List.mem_of_mem_tail shown)

theorem taggedPrepare (h : r.Tagged) (data : Bytes) : (r.prepare data).2.Tagged := by
  unfold prepare
  split
  · exact h
  · refine ⟨indexedModify h.indexed _ _, fun s shown => ?_, fun s shown => ?_⟩
    · rw [heldModifyNext h.indexed] at shown
      exact h.held s shown
    · rw [spareModifyNext h.indexed] at shown
      have gap := h.spare (r.slot r.next) (by
        rw [spareCons h.indexed]
        exact List.mem_cons_self)
      rcases List.mem_cons.mp shown with rfl | rest
      · exact gap
      · exact h.spare s (List.mem_of_mem_tail rest)

theorem taggedDrain (h : r.Tagged) {count : Nat} (enough : count ≤ r.inFlight) :
    (drain count r).2.Tagged := by
  have done := drained h.indexed enough
  refine ⟨done.indexed, fun s shown => ?_, fun s shown => ?_⟩
  · rw [done.held] at shown
    exact h.held s (List.mem_of_mem_drop shown)
  · rw [done.spare] at shown
    rcases List.mem_append.mp shown with old | given
    · exact h.spare s old
    · obtain ⟨slot, -, rfl⟩ := List.mem_map.mp given
      rfl

/-- What the other side of the bus can do to a ring: anything, but to the driver's indices, the
tags and the place of the table. -/
structure Tampered (r r' : SlotRing n size) : Prop where
  oldest : r'.oldest = r.oldest
  next : r'.next = r.next
  base : r'.base = r.base
  tags : ∀ k, (r'.slot k).tag = (r.slot k).tag

theorem Tampered.refl (r : SlotRing n size) : Tampered r r := ⟨rfl, rfl, rfl, fun _ => rfl⟩

theorem tamperedIndexed (h : Tampered r r') (indexed : r.Indexed) : r'.Indexed :=
  ⟨h.oldest ▸ indexed.oldest, h.next ▸ indexed.next⟩

theorem tamperedInFlight (h : Tampered r r') : r'.inFlight = r.inFlight := by
  unfold inFlight
  rw [h.oldest, h.next]

theorem tamperedWindow (h : Tampered r r') {start count : Nat} {s : Slot size}
    (shown : s ∈ r'.window start count) : ∃ old ∈ r.window start count, s.tag = old.tag := by
  obtain ⟨k, low, rfl⟩ := List.mem_map.mp shown
  exact ⟨r.slot (start + k), List.mem_map.mpr ⟨k, low, rfl⟩, h.tags _⟩

theorem tamperedTagged (h : Tampered r r') (tagged : r.Tagged) : r'.Tagged := by
  refine ⟨tamperedIndexed h tagged.indexed, fun s shown => ?_, fun s shown => ?_⟩
  · rw [held, h.oldest, tamperedInFlight h] at shown
    obtain ⟨old, there, same⟩ := tamperedWindow h shown
    rw [same]
    exact tagged.held old there
  · rw [spare, h.next, tamperedInFlight h] at shown
    obtain ⟨old, there, same⟩ := tamperedWindow h shown
    rw [same]
    exact tagged.spare old there

end SerialAdapter.SlotRing

namespace SerialAdapter

variable {c n size : Nat}

structure Channel.Sound (ch : Channel n size) : Prop where
  indexed : ch.rings.receive.Indexed
  armed : ch.receiving = true → ch.rings.receive.inFlight = n - 1
  tagged : ch.rings.transmit.Tagged

section Shares

variable {i : Nat} {ch : Channel n size} {r : Registers}

theorem soundKept {done : Outcome Registers (Channel n size)} (h : ch.Sound)
    (receive : Kept i .receive ch r done) (transmit : Kept i .transmit ch r done) :
    done.answer.Sound := by
  have receiveRing : done.answer.rings.receive = ch.rings.receive := receive.ring
  have receiving : done.answer.receiving = ch.receiving := receive.enabled
  have transmitRing : done.answer.rings.transmit = ch.rings.transmit := transmit.ring
  refine ⟨?_, fun on => ?_, ?_⟩
  · rw [receiveRing]
    exact h.indexed
  · rw [receiving] at on
    rw [receiveRing]
    exact h.armed on
  · rw [transmitRing]
    exact h.tagged

theorem soundFresh (filled : 0 < n) (receive : Fresh i .receive ch r)
    (transmit : Fresh i .transmit ch r) : ch.Sound := by
  obtain ⟨old, -, receiveRing⟩ := receive.ring
  obtain ⟨old', -, transmitRing⟩ := transmit.ring
  have receiveRing : ch.rings.receive = old.reset := receiveRing
  have transmitRing : ch.rings.transmit = old'.reset := transmitRing
  have off : ch.receiving = false := receive.enabled
  refine ⟨?_, fun on => ?_, ?_⟩
  · rw [receiveRing]
    exact SlotRing.indexedReset filled old
  · rw [off] at on
    contradiction
  · rw [transmitRing]
    exact SlotRing.taggedReset filled old'

theorem soundStarted {ring : SlotRing n size} (filled : 0 < n) :
    ring.reset.fill.Indexed ∧ ring.reset.fill.inFlight = n - 1 := by
  have indexed := SlotRing.indexedReset filled ring
  exact ⟨(SlotRing.fillFilled indexed).indexed, SlotRing.fillInFlight indexed⟩

theorem soundEnable (h : ch.Sound) (d : Direction) (on : Bool) (r : Registers) :
    (ch.enable i d on r).answer.Sound := by
  have filled := h.indexed.filled
  rw [enableAnswer]
  cases d with
  | receive =>
    cases on with
    | true => exact ⟨(soundStarted filled).1, fun _ => (soundStarted filled).2, h.tagged⟩
    | false => exact ⟨SlotRing.indexedReset filled _, fun on => by contradiction, h.tagged⟩
  | transmit => exact ⟨h.indexed, h.armed, SlotRing.taggedReset filled _⟩

theorem soundSend (h : ch.Sound) (data : Option Bytes) (length : Nat) (tag : UInt64)
    (r : Registers) : (ch.send i data length tag r).answer.2.Sound := by
  cases queued : ch.rings.transmit.enqueue data length tag with
  | error cause =>
    rw [sendRefused i queued]
    exact h
  | ok taken =>
    rw [sendAccepted i queued]
    exact ⟨h.indexed, h.armed, SlotRing.taggedEnqueue h.tagged queued⟩

theorem soundReceived (h : ch.Sound) (g : Channel.Readings) :
    (Channel.receiveAfter g ch).Indexed ∧
      (ch.receiving = true → (Channel.receiveAfter g ch).inFlight = n - 1) := by
  unfold Channel.receiveAfter Duplex.receiveRing
  split
  · split
    · exact ⟨(soundStarted h.indexed.filled).1, fun _ => (soundStarted h.indexed.filled).2⟩
    · have done := SlotRing.collected h.indexed (SlotRing.completedLe _ g.receiveAt)
      exact ⟨done.indexed, fun on => done.inFlight.trans (h.armed on)⟩
  · exact ⟨h.indexed, h.armed⟩

theorem soundTransmitted (h : ch.Sound) (g : Channel.Readings) :
    (Channel.transmitAfter g ch).Tagged := by
  unfold Channel.transmitAfter
  split
  · exact SlotRing.taggedDrain h.tagged (SlotRing.completedLe _ _)
  · exact h.tagged

theorem soundService (few : i < Limits.maxChannels) (h : ch.Sound) (r : Registers) :
    (ch.service i r).answer.Sound := by
  obtain ⟨g, -, served⟩ := Channel.serviced few ch r
  obtain ⟨indexed, armed⟩ := soundReceived h g
  refine ⟨?_, fun on => ?_, ?_⟩
  · rw [served.receive]
    exact indexed
  · rw [served.receiving] at on
    rw [served.receive]
    exact armed on
  · rw [served.transmit]
    exact soundTransmitted h g

theorem soundShare (few : i < Limits.maxChannels) (h : ch.Sound) (share : Share) (t : Thresholds)
    (r : Registers) : (share.perform i t ch r).answer.Sound := by
  have filled := h.indexed.filled
  cases share with
  | init setup place =>
    exact soundFresh filled (initFresh few filled .receive setup place t ch r)
      (initFresh few filled .transmit setup place t ch r)
  | enable d on => exact soundEnable h d on r
  | send data length tag => exact soundSend h data length tag r
  | prepare data => exact ⟨h.indexed, h.armed, SlotRing.taggedPrepare h.tagged data⟩
  | service => exact soundService few h r
  | rest => exact h
  | resync => exact ⟨h.indexed, h.armed, h.tagged⟩
  | clear scope => cases scope <;> exact ⟨h.indexed, h.armed, h.tagged⟩
  | setMode mode =>
    exact soundKept h (asideKeeps few (by trivial) t ch r) (asideKeeps few (by trivial) t ch r)
  | tick =>
    exact soundKept h (asideKeeps few (by trivial) t ch r) (asideKeeps few (by trivial) t ch r)

end Shares

structure Channel.Tampered (ch ch' : Channel n size) : Prop where
  rings : ∀ d, (ch.rings.ring d).Tampered (ch'.rings.ring d)
  rest : ch' = { ch with rings := ch'.rings }

structure Board.Tampered (b b' : Board c n size) : Prop where
  channels : ∀ i : Fin c, (b.channel i).Tampered (b'.channel i)
  rest : b' = { b with registers := b'.registers, channels := b'.channels }

structure Noise (c n size : Nat) where
  change : Board c n size → Board c n size
  tampers : ∀ b, Board.Tampered b (change b)

def Noise.none (c n size : Nat) : Noise c n size where
  change := id
  tampers _ := ⟨fun _ => ⟨fun _ => .refl _, rfl⟩, rfl⟩

def Noise.registers (c n size : Nat) (r : Registers) : Noise c n size where
  change b := { b with registers := r }
  tampers _ := ⟨fun _ => ⟨fun _ => .refl _, rfl⟩, rfl⟩

structure Board.Sound (b : Board c n size) : Prop where
  up : b.initialized = true
  some : 0 < c
  few : c ≤ Limits.maxChannels
  room : 2 ≤ n
  channels : ∀ i : Fin c, (b.channel i).Sound

theorem tamperedSound {ch ch' : Channel n size} (h : ch.Tampered ch') (sound : ch.Sound) :
    ch'.Sound := by
  have receive : ch.rings.receive.Tampered ch'.rings.receive := h.rings .receive
  have transmit : ch.rings.transmit.Tampered ch'.rings.transmit := h.rings .transmit
  have receiving : ch'.receiving = ch.receiving := by rw [h.rest]
  refine ⟨SlotRing.tamperedIndexed receive sound.indexed, fun on => ?_,
    SlotRing.tamperedTagged transmit sound.tagged⟩
  rw [SlotRing.tamperedInFlight receive]
  exact sound.armed (receiving ▸ on)

namespace Board.Sound

variable {b : Board c n size} (h : b.Sound)
include h

theorem noise (w : Noise c n size) : (w.change b).Sound where
  up := by
    rw [(w.tampers b).rest]
    exact h.up
  some := h.some
  few := h.few
  room := h.room
  channels i := tamperedSound ((w.tampers b).channels i) (h.channels i)

theorem call (k : Call c) : (k.perform b).state.Sound where
  up := (callSplit h.few h.up k ⟨0, h.some⟩).initialized.trans h.up
  some := h.some
  few := h.few
  room := h.room
  channels i := by
    have low := Nat.lt_of_lt_of_le i.isLt h.few
    rw [(callSplit h.few h.up k i).channel]
    exact soundShare low (h.channels i) _ _ _

end Board.Sound

theorem initSound {b : Board c n size} {setup : BoardSetup c}
    {place : Nat → Direction → Placement} (up : (Board.init setup place b).answer = .ok ()) :
    (Board.init setup place b).state.Sound := by
  obtain ⟨-, some, few, room, -, -⟩ := initAccepted up
  have start (i : Fin c) (d : Direction) := initStart up i d
  exact {
    up := (start ⟨0, some⟩ .receive).1
    some := some
    few := few
    room := room
    channels := fun i => soundFresh (by omega) (start i .receive).2.2 (start i .transmit).2.2 }

inductive Strike (c n size : Nat) where
  | call (call : Call c)
  | noise (noise : Noise c n size)

def Board.suffer : Strike c n size → Board c n size → Board c n size
  | .call k, b => (k.perform b).state
  | .noise w, b => w.change b

theorem sufferSound {b : Board c n size} (h : b.Sound) (strikes : List (Strike c n size)) :
    (run Board.suffer b strikes).Sound := by
  refine runKeeps (P := fun _ b => b.Sound) Board.suffer h (fun _ b x sound => ?_) strikes
  cases x with
  | call k => exact sound.call k
  | noise w => exact sound.noise w

section Down

variable {b : Board c n size} (down : b.initialized = false)

theorem sendableUp {α : Type} (i : Nat)
    (op : Channel n size → Operation Registers (Except SendError α × Channel n size)) :
    (Board.sendable i op b).state.initialized = b.initialized := by
  unfold Board.sendable
  split
  · split <;> rfl
  · rfl

include down

theorem checkedDown {α : Type} (i : Nat)
    (op : Thresholds → Channel n size → Operation Registers (α × Channel n size)) :
    (Board.checked i op b).state = b := by
  simp [Board.checked, Board.obstacle?, down, Board.refuse]

theorem takePendingDown : Board.takePending b = ⟨0, b, []⟩ := by
  simp [Board.takePending, down]

theorem handleInterruptDown : Board.handleInterrupt b = ⟨(), b, []⟩ := by
  have idle : Board.pendingChannels c 0 = [] := by simp [Board.pendingChannels]
  simp only [Board.handleInterrupt, Operation.bindApply, takePendingDown down, idle]
  rfl

theorem callDown (k : Call c) (up : (k.perform b).state.initialized = true) :
    ∃ setup place, k = .init setup place ∧ (Board.init setup place b).answer = .ok () := by
  have off (same : (k.perform b).state.initialized = b.initialized) : False := by
    rw [same, down] at up
    contradiction
  cases k with
  | init setup place =>
    refine ⟨setup, place, rfl, ?_⟩
    cases refused : b.initError? setup with
    | none => simp [Board.init, refused]
    | some cause =>
      refine (off ?_).elim
      simp [Call.perform, Operation.silent, Board.init, refused, Board.refuse]
  | enable i d on => exact (off (congrArg Board.initialized (checkedDown down i _))).elim
  | setMode i mode => exact (off (congrArg Board.initialized (checkedDown down i _))).elim
  | resyncLine i => exact (off (congrArg Board.initialized (checkedDown down i _))).elim
  | serviceChannel i => exact (off (congrArg Board.initialized (checkedDown down i _))).elim
  | tickChannel i => exact (off (congrArg Board.initialized (checkedDown down i _))).elim
  | clearStatistics scope =>
    refine (off ?_).elim
    cases scope with
    | channel i => exact congrArg Board.initialized (checkedDown down i _)
    | line i => exact congrArg Board.initialized (checkedDown down i _)
    | board =>
      simp [Call.perform, Operation.silent, Board.clearStatistics, Board.clearBoard, down,
        Board.refuse]
  | send i data tag => exact (off (sendableUp i _)).elim
  | sendPrepared i length tag => exact (off (sendableUp i _)).elim
  | prepare i data =>
    refine (off ?_).elim
    simp only [Call.perform, Operation.silent, Board.prepare]
    split
    · split <;> rfl
    · rfl
  | takePending =>
    refine (off ?_).elim
    simp [Call.perform, Operation.silent, takePendingDown down]
  | handleInterrupt =>
    refine (off ?_).elim
    simp [Call.perform, handleInterruptDown down]
  | tick =>
    refine (off ?_).elim
    simp [Call.perform, Board.tick, down]

end Down

theorem sufferUp (registers : Registers) (strikes : List (Strike c n size)) :
    let now := run Board.suffer ({ registers := registers } : Board c n size) strikes
    now.initialized = true → now.Sound := by
  refine runKeeps (P := fun _ b => b.initialized = true → b.Sound) Board.suffer
    (fun up => by contradiction) (fun _ b x sound up => ?_) strikes
  cases before : b.initialized with
  | true =>
    cases x with
    | call k => exact (sound before).call k
    | noise w => exact (sound before).noise w
  | false =>
    cases x with
    | call k =>
      obtain ⟨setup, place, rfl, accepted⟩ := callDown before k up
      exact initSound accepted
    | noise w =>
      have same : (w.change b).initialized = b.initialized := by rw [(w.tampers b).rest]
      rw [Board.suffer, same, before] at up
      contradiction

end SerialAdapter
