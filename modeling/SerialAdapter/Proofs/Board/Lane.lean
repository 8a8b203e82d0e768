import SerialAdapter.Proofs.Receive.Delivery
import SerialAdapter.Proofs.Transmit.Completion

/-! One direction of one channel: its ring, what steers its controller, and whether it is on. Every
move of a board is a step of each of its lanes, of which there are only a few, and what is said of a
lane is said of these. A step shows whether the lane starts over, the frames that it takes, and the
slots that the controller finishes. Nothing here asks in which order they come. -/
namespace SerialAdapter

@[ext] structure Lane (n size : Nat) where
  ring : SlotRing n size
  control : Control
  on : Bool

variable {c n size i : Nat}

def Channel.lane (i : Nat) (d : Direction) (ch : Channel n size) (r : Registers) : Lane n size :=
  ⟨ch.rings.ring d, Control.of i d r, ch.isEnabled d⟩

def Board.lane (i : Fin c) (d : Direction) (b : Board c n size) : Lane n size :=
  (b.channel i).lane i d b.registers

def Lane.switch (d : Direction) (on : Bool) (l : Lane n size) : Lane n size :=
  ⟨enabledRing d on l.ring, enabledControl d on l.ring l.control, on⟩

def Lane.stand (a : UInt32) (l : Lane n size) : Lane n size :=
  { l with control := { l.control with current := a } }

def Slot.freight (s : Slot size) (data : Option Bytes) (length : Nat) : Bytes :=
  match data with
  | some bytes => bytes
  | none => s.buffer.toList.take length

inductive TransmitStep (l : Lane n size) :
    Bool → List Bytes → List (Slot size) → Lane n size → Prop where
  | still : TransmitStep l false [] [] l
  | switched (on : Bool) : TransmitStep l true [] [] (l.switch .transmit on)
  | taken {data : Option Bytes} {length k : Nat} {tag : UInt64} {ring : SlotRing n size}
      (on : l.on = true) (whole : ∀ bytes ∈ data, bytes.length = length)
      (ok : l.ring.enqueue data length tag = .ok (k, ring)) :
      TransmitStep l false [(l.ring.slot l.ring.next).freight data length] []
        ⟨ring, { l.control with
          stop := ring.address ring.next, command := Register.startCommand }, l.on⟩
  | prepared (data : Bytes) :
      TransmitStep l false [] [] ⟨(l.ring.prepare data).2, l.control, l.on⟩
  | drained (on : l.on = true) : TransmitStep l false [] []
      ⟨(SlotRing.drain (l.ring.completed l.control.current) l.ring).2, l.control, l.on⟩
  | walked {k : Nat} (running : l.control.running = true)
      (there : l.ring.slotAt? l.control.current = some k) :
      TransmitStep l false [] [l.ring.slot k] (l.stand (l.ring.slot k).descriptor.chain)

inductive ReceiveStep (l : Lane n size) : Bool → List (Slot size) → Lane n size → Prop where
  | still : ReceiveStep l false [] l
  | switched (on : Bool) : ReceiveStep l true [] (l.switch .receive on)
  | collected {s : DmaStatus} (on : l.on = true) (fine : s.ringFault = false) :
      ReceiveStep l false [] ⟨Duplex.receiveRing l.ring s l.control.current,
        Duplex.receiveControl l.ring s l.control, l.on⟩
  | filled {k : Nat} {ring : SlotRing n size} (running : l.control.running = true)
      (there : l.ring.slotAt? l.control.current = some k)
      (frame : Bytes) (length : UInt16) (status : UInt8)
      (changed : ring = l.ring.modifySlot k (·.complete frame length status)) :
      ReceiveStep l false [ring.slot k]
        ({ l with ring := ring }.stand (ring.slot k).descriptor.chain)

def Share.loads (ch : Channel n size) : Share → List Bytes
  | .send data length tag =>
    match ch.rings.transmit.enqueue data length tag with
    | .ok _ => [(ch.rings.transmit.slot ch.rings.transmit.next).freight data length]
    | .error _ => []
  | _ => []

section Shares

variable {ch : Channel n size} {r : Registers}

theorem keptLane {d : Direction} {done : Outcome Registers (Channel n size)}
    (same : Kept i d ch r done) : done.answer.lane i d done.state = ch.lane i d r := by
  simp only [Channel.lane, same.ring, same.enabled, same.control]

variable (few : i < Limits.maxChannels)
include few

theorem enabledLane {d : Direction} (plain : r.wiring.Plain i d) (on : Bool) :
    (ch.enable i d on r).answer.lane i d (ch.enable i d on r).state =
      (ch.lane i d r).switch d on := by
  have control := (drivesEnable few d on ch).control r plain
  rw [enableAnswer, Channel.lane, control]
  cases d <;> rfl

theorem serviceTransmitStep (plain : r.wiring.Plain i .transmit) :
    TransmitStep (ch.lane i .transmit r) false [] []
      ((ch.service i r).answer.lane i .transmit (ch.service i r).state) := by
  obtain ⟨g, -, served⟩ := Channel.serviced few ch r
  have lane : (ch.service i r).answer.lane i .transmit (ch.service i r).state =
      ⟨Channel.transmitAfter g ch, Control.of i .transmit r, ch.transmitting⟩ := by
    rw [← served.transmit, ← served.transmitControl plain, ← served.transmitting]
    rfl
  rw [lane, Channel.transmitAfter]
  cases asked : g.asked.transmit && ch.transmitting with
  | false => exact .still
  | true =>
    rw [served.transmitReading plain]
    exact .drained (Bool.and_eq_true_iff.mp asked).2

theorem serviceReceiveStep (plain : r.wiring.Plain i .receive) :
    ReceiveStep (ch.lane i .receive r) (restartsIn i (ch.service i r).seen) []
      ((ch.service i r).answer.lane i .receive (ch.service i r).state) := by
  obtain ⟨g, -, served⟩ := Channel.serviced few ch r
  have lane : (ch.service i r).answer.lane i .receive (ch.service i r).state =
      ⟨Channel.receiveAfter g ch, Channel.receiveControlAfter g ch (Control.of i .receive r),
        ch.receiving⟩ := by
    rw [← served.receive, ← served.receiveControl plain, ← served.receiving]
    rfl
  rw [lane, (servicedOutcomes served).2, Channel.receiveAfter, Channel.receiveControlAfter,
    Channel.receiveTold]
  cases asked : g.asked.receive && ch.receiving with
  | false => exact .still
  | true =>
    have on : ch.receiving = true := (Bool.and_eq_true_iff.mp asked).2
    simp only [↓reduceIte]
    rw [served.receiveReading plain, receiveNewsRestarts]
    cases fault : g.receiveStatus.ringFault with
    | true =>
      have restarted : ReceiveStep (ch.lane i .receive r) true [] _ := .switched true
      simp only [Duplex.receiveRing, Duplex.receiveControl, fault, on, ↓reduceIte]
      exact restarted
    | false => exact .collected on fault

theorem transmitSteps (plain : r.wiring.Plain i .transmit) (t : Thresholds) (share : Share)
    (opened : ∀ data length tag, share = .send data length tag →
      ch.transmitting = true ∧ ∀ bytes ∈ data, bytes.length = length)
    (started : ∀ setup place, share ≠ .init setup place) :
    TransmitStep (ch.lane i .transmit r) (share.switches .transmit) (share.loads ch) []
      ((share.perform i t ch r).answer.lane i .transmit (share.perform i t ch r).state) := by
  have aside (aside : share.Aside .transmit) (none : share.loads ch = []) :
      TransmitStep (ch.lane i .transmit r) (share.switches .transmit) (share.loads ch) []
        ((share.perform i t ch r).answer.lane i .transmit (share.perform i t ch r).state) := by
    rw [keptLane (asideKeeps few aside t ch r), Share.asideStays aside, none]
    exact .still
  cases share with
  | init setup place => exact (started setup place rfl).elim
  | enable d on =>
    cases d with
    | receive => exact aside (by simp [Share.Aside]) rfl
    | transmit =>
      have lane : _ = (ch.lane i .transmit r).switch .transmit on := enabledLane few plain on
      exact lane ▸ .switched on
  | send data length tag =>
    obtain ⟨on, whole⟩ := opened data length tag rfl
    cases queued : ch.rings.transmit.enqueue data length tag with
    | error cause =>
      simp only [Share.perform, Share.loads, queued, sendRefused i queued]
      exact .still
    | ok taken =>
      have control := (Duplex.drivesHandOver few (d := .transmit) (taken.2.address taken.2.next)
        ((.ok () : Except SendError Unit),
          { ch with rings := ch.rings.withRing .transmit taken.2 })).control r plain
      have step : TransmitStep (ch.lane i .transmit r) false _ [] _ := .taken on whole queued
      simp only [Share.perform, Share.loads, queued, sendAccepted i queued]
      unfold Channel.lane at step ⊢
      rw [← control] at step
      exact step
  | prepare data => exact .prepared data
  | service => exact serviceTransmitStep few plain
  | rest => exact aside (by trivial) rfl
  | setMode mode => exact aside (by trivial) rfl
  | resync => exact aside (by trivial) rfl
  | clear scope => exact aside (by trivial) rfl
  | tick => exact aside (by trivial) rfl

theorem receiveSteps (plain : r.wiring.Plain i .receive) (t : Thresholds) (share : Share)
    (started : ∀ setup place, share ≠ .init setup place) :
    ReceiveStep (ch.lane i .receive r)
      (share.switches .receive || restartsIn i (share.perform i t ch r).seen) []
      ((share.perform i t ch r).answer.lane i .receive (share.perform i t ch r).state) := by
  obtain rfl | ⟨on, rfl⟩ | aside := Share.receiveCases started
  · exact serviceReceiveStep few plain
  · have lane : _ = (ch.lane i .receive r).switch .receive on := enabledLane few plain on
    exact lane ▸ .switched on
  · have kept := asideKeeps few aside t ch r
    rw [keptLane kept, Share.asideStays aside, (outcomesQuiet kept.quiet).2]
    exact .still

end Shares

namespace Entry

def content (i : Fin c) (e : Entry (Board c n size) (Move c)) (length : Nat) : Bytes :=
  match e.move with
  | .call (.send _ data _) => data
  | _ => ((e.before.nextBuffer? i).map fun buffer => buffer.toList.take length).getD []

def loaded (i : Fin c) (e : Entry (Board c n size) (Move c)) : List Bytes :=
  (e.accepted i).map fun frame => e.content i frame.2

def processed (i : Fin c) (e : Entry (Board c n size) (Move c)) : List (Slot size) :=
  match e.move with
  | .transmit j =>
    match e.before.sends? j with
    | some (_, s, _) => if j = i then [s] else []
    | none => []
  | _ => []

theorem finishedProcessed (i : Fin c) (e : Entry (Board c n size) (Move c)) :
    e.finished i = (e.processed i).map Slot.transmission := by
  obtain ⟨b, m⟩ := e
  cases m with
  | transmit j =>
    cases step : b.sends? j with
    | none => simp [finished, processed, step]
    | some taken =>
      simp only [finished, processed, step]
      split <;> rfl
  | _ => rfl

end Entry

section Moves

variable {b : Board c n size} {i : Fin c}

theorem shareWhole {k : Call c} {data : Option Bytes} {length : Nat} {tag : UInt64}
    (same : k.share b i = .send data length tag) : ∀ bytes ∈ data, bytes.length = length := by
  unfold Call.share at same
  split at same
  · cases k with
    | send j bytes t =>
      cases same
      intro bytes found
      cases found
      rfl
    | sendPrepared j l t =>
      cases same
      intro bytes found
      contradiction
    | _ => exact Share.noConfusion same
  · exact Share.noConfusion same

theorem loadedShare (k : Call c) :
    Entry.loaded i ⟨b, .call k⟩ = (k.share b i).loads (b.channel i) := by
  rw [Entry.loaded, acceptedShare, Call.share]
  split
  · rename_i reached
    cases k with
    | send j data tag =>
      simp only [Call.own, Share.takes, Share.loads]
      cases (b.channel i).rings.transmit.enqueue (some data) data.length tag <;> rfl
    | sendPrepared j length tag =>
      simp only [Call.concerns, Bool.and_eq_true] at reached
      simp only [Call.own, Share.takes, Share.loads]
      cases queued : (b.channel i).rings.transmit.enqueue none length tag with
      | error cause => rfl
      | ok taken =>
        obtain ⟨slot, ring⟩ := taken
        obtain ⟨-, free, -, -⟩ := SlotRing.enqueueOk queued
        have buffer : b.nextBuffer? i =
            some ((b.channel i).rings.transmit.slot (b.channel i).rings.transmit.next).buffer := by
          simp only [Board.nextBuffer?, Vector.getElem?_eq_getElem i.isLt]
          rw [if_pos reached.1.2, SlotRing.nextBuffer?, if_neg free]
        simp only [List.map_singleton, Entry.content, buffer]
        rfl
    | _ => rfl
  · rfl

theorem stillLane {d : Direction} {b' : Board c n size} (same : Still i d b b') :
    b'.lane i d = b.lane i d := by
  simp only [Board.lane, Channel.lane, same.ring, same.enabled, same.control]

theorem splitLane (few : c ≤ Limits.maxChannels) (d : Direction) {share : Share} {k : Call c}
    (split : Split i share b (k.perform b)) :
    let done := share.perform i b.thresholds (b.channel i) b.registers
    (b.move (.call k)).lane i d = done.answer.lane i d done.state := by
  obtain ⟨channel, control⟩ := splitCall (d := d) few split
  simp only [Board.lane, Channel.lane, channel, control]

variable (few : c ≤ Limits.maxChannels) (up : b.initialized = true)
include few up

theorem transmitMoves (plain : b.registers.wiring.Plain i .transmit) (m : Move c) :
    TransmitStep (b.lane i .transmit) (Entry.switches i .transmit ⟨b, m⟩) (Entry.loaded i ⟨b, m⟩)
      (Entry.processed i ⟨b, m⟩) ((b.move m).lane i .transmit) := by
  have low := Nat.lt_of_lt_of_le i.isLt few
  have still (same : Still i .transmit b (b.move m)) (nothing : Entry.processed i ⟨b, m⟩ = [])
      (kept : Entry.switches i .transmit ⟨b, m⟩ = false)
      (took : Entry.loaded i ⟨b, m⟩ = []) :
      TransmitStep (b.lane i .transmit) (Entry.switches i .transmit ⟨b, m⟩)
        (Entry.loaded i ⟨b, m⟩) (Entry.processed i ⟨b, m⟩) ((b.move m).lane i .transmit) := by
    rw [kept, took, nothing, stillLane same]
    exact .still
  cases m with
  | call k =>
    have split := callSplit few up k i
    rw [Entry.switchesShare, loadedShare, splitLane few .transmit split]
    exact transmitSteps low plain b.thresholds (k.share b i)
      (fun _ _ _ same => ⟨shareTransmitting same, shareWhole same⟩) (shareStarted b i k)
  | transmit j =>
    by_cases own : j = i
    · subst own
      cases step : b.sends? j with
      | none =>
        have same : b.move (.transmit j) = b := by simp only [Board.move, step]
        exact still (same.symm ▸ .refl b) (by simp only [Entry.processed, step]) rfl rfl
      | some taken =>
        obtain ⟨k, s, r⟩ := taken
        obtain ⟨running, there, rfl, rfl⟩ := sendsStep step
        have found : Entry.processed j ⟨b, .transmit j⟩ =
            [(b.channel j).rings.transmit.slot k] := by simp only [Entry.processed, step, ↓reduceIte]
        have moved := (drivesSetCurrent low (d := .transmit)
          ((b.channel j).rings.transmit.slot k).descriptor.chain).control b.registers plain
        have lane : (b.move (.transmit j)).lane j .transmit = (b.lane j .transmit).stand
            ((b.channel j).rings.transmit.slot k).descriptor.chain := by
          simp only [Board.move, step]
          exact Lane.ext rfl moved rfl
        rw [found, lane]
        exact .walked running there
    · refine still (transmitStill few fun same => own (Fin.ext same.1)) ?_ rfl rfl
      simp only [Entry.processed]
      split
      · rw [if_neg own]
      · rfl
  | receive j frame length status =>
    exact still (receiveStill few fun same => by cases same.2) rfl rfl rfl
  | poke o value => exact still (pokeStill few o value) rfl rfl rfl

theorem receiveMoves (plain : b.registers.wiring.Plain i .receive) (m : Move c) :
    ReceiveStep (b.lane i .receive) (Entry.restarts i ⟨b, m⟩) (Entry.written i ⟨b, m⟩)
      ((b.move m).lane i .receive) := by
  have low := Nat.lt_of_lt_of_le i.isLt few
  have still (same : Still i .receive b (b.move m)) (nothing : Entry.written i ⟨b, m⟩ = [])
      (kept : Entry.restarts i ⟨b, m⟩ = false) :
      ReceiveStep (b.lane i .receive) (Entry.restarts i ⟨b, m⟩) (Entry.written i ⟨b, m⟩)
        ((b.move m).lane i .receive) := by
    rw [kept, nothing, stillLane same]
    exact .still
  cases m with
  | call k =>
    have split := callSplit few up k i
    rw [Entry.restarts, Entry.switchesShare, callRestarts split, splitLane few .receive split]
    exact receiveSteps low plain b.thresholds (k.share b i) (shareStarted b i k)
  | receive j frame length status =>
    by_cases own : j = i
    · subst own
      cases step : b.fills? j frame length status with
      | none =>
        have same : b.move (.receive j frame length status) = b := by simp only [Board.move, step]
        exact still (same.symm ▸ .refl b) (by simp only [Entry.written, step]) rfl
      | some taken =>
        obtain ⟨k, ring, r⟩ := taken
        obtain ⟨running, there, changed, rfl⟩ := fillsStep step
        have found : Entry.written j ⟨b, .receive j frame length status⟩ = [ring.slot k] := by
          simp only [Entry.written, step, ↓reduceIte]
        have moved := (drivesSetCurrent low (d := .receive)
          (ring.slot k).descriptor.chain).control b.registers plain
        have lane : (b.move (.receive j frame length status)).lane j .receive =
            { b.lane j .receive with ring := ring }.stand (ring.slot k).descriptor.chain := by
          simp only [Board.move, step]
          obtain ⟨put, on⟩ := withRingOwn (i := j) (b := { b with registers := (Dma.setCurrent j
            .receive (ring.slot k).descriptor.chain b.registers).state }) ring
          exact Lane.ext put moved on
        rw [found, lane]
        exact .filled running there frame length status changed
    · refine still (receiveStill few fun same => own (Fin.ext same.1)) ?_ rfl
      simp only [Entry.written]
      split
      · rw [if_neg own]
      · rfl
  | transmit j => exact still (transmitStill few fun same => by cases same.2) rfl rfl
  | poke o value => exact still (pokeStill few o value) rfl rfl

end Moves

structure Slot.Cleared (s : Slot size) : Prop where
  length : s.descriptor.length = 0
  status : s.descriptor.status = 0

theorem releaseCleared (s : Slot size) : s.release.Cleared := ⟨rfl, rfl⟩

theorem resetCleared (s : Slot size) : s.reset.Cleared := ⟨rfl, rfl⟩

theorem emptyArmCleared (s : Slot size) : (s.arm none).Cleared := ⟨rfl, rfl⟩

theorem resetSpareCleared (filled : 0 < n) (ring : SlotRing n size) :
    ∀ s ∈ ring.reset.spare, s.Cleared := by
  intro s shown
  rw [SlotRing.spareReset filled] at shown
  obtain ⟨old, -, rfl⟩ := List.mem_map.mp shown
  exact releaseCleared old

structure Lane.Stands (l : Lane n size) (k : Nat) : Prop where
  indexed : l.ring.Indexed
  within : k ≤ l.ring.inFlight
  current : l.on = true → l.control.current = l.ring.address (l.ring.oldest + k)
  stop : l.on = true → l.control.stop = l.ring.address l.ring.next
  moving : l.control.running = true → l.on = true ∧ k < l.ring.inFlight

theorem transmitStands {l : Lane n size} {accepted : List Receipt} {finished : List Transmission}
    {reported : List Receipt}
    (h : TransmitLedger l.ring l.control l.on accepted finished reported) :
    l.Stands (finished.length - reported.length) := by
  have count := h.inFlight
  have order := h.order
  have enough := h.finishedLe
  refine ⟨h.indexed, by omega, fun on => (h.armed on).1, fun on => (h.armed on).2,
    fun running => ?_⟩
  obtain ⟨on, more⟩ := h.standing running
  exact ⟨on, by omega⟩

theorem receiveStands {l : Lane n size} {written : List (Slot size)}
    {reported : List (Except ChannelError Bytes)}
    (h : ReceiveLedger l.ring l.control l.on written reported) :
    l.Stands (written.length - reported.length) := by
  refine ⟨h.indexed, ?_, fun on => (h.armed on).current, fun on => (h.armed on).stop, h.standing⟩
  cases on : l.on with
  | true =>
    have armed := h.armed on
    rw [armed.full]
    exact armed.room
  | false =>
    obtain ⟨none, -, -⟩ := h.idle on
    simp [none]

section Stands

variable {l : Lane n size} {k : Nat} (h : l.Stands k)
include h

theorem Lane.Stands.slot (fits : 16 * n ≤ 2 ^ 32) (on : l.on = true) {j : Nat}
    (there : l.ring.slotAt? l.control.current = some j) : j = (l.ring.oldest + k) % n := by
  rw [h.current on, SlotRing.slotAtAddress fits h.indexed.filled] at there
  exact (Option.some.inj there).symm

theorem Lane.Stands.completed (fits : 16 * n ≤ 2 ^ 32) (on : l.on = true) :
    l.ring.completed l.control.current = k := by
  rw [h.current on]
  exact SlotRing.completedAtPosition fits h.indexed h.within

end Stands

end SerialAdapter
