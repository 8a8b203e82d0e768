import SerialAdapter.Proofs.Channel.Share
import SerialAdapter.Proofs.Transmit.Ledger

/-! The ledger of a channel's transmitter through each share of a call: switching starts new books, a
frame that is taken is entered, a service reports, and nothing else shows in them. -/
namespace SerialAdapter

def Action.sent? (i : Nat) : Action → Option Receipt
  | .event (.sent j tag length) => if j = i then some (tag, length) else none
  | _ => none

def sentIn (i : Nat) (seen : List Action) : List Receipt := seen.filterMap (Action.sent? i)

theorem sentAppend (i : Nat) (first second : List Action) :
    sentIn i (first ++ second) = sentIn i first ++ sentIn i second := List.filterMap_append

theorem sentChannel {i : Nat} {a : Action} {frame : Receipt} (told : a.sent? i = some frame) :
    a.channel? = some i := by
  unfold Action.sent? at told
  split at told
  · split at told
    · rename_i own
      exact congrArg some own
    · contradiction
  · contradiction

theorem sentAbout (i : Nat) (seen : List Action) : sentIn i (about i seen) = sentIn i seen :=
  readAbout (fun _ _ => sentChannel) seen

theorem sentQuiet {i : Nat} {seen : List Action}
    (quiet : ∀ a ∈ about i seen, ∃ d on, a = .notice (.enabled i d on)) : sentIn i seen = [] := by
  rw [← sentAbout]
  refine List.filterMap_eq_nil_iff.mpr fun a shown => ?_
  obtain ⟨d, on, rfl⟩ := quiet a shown
  rfl

theorem sentTransmissions (i : Nat) (sent : List Receipt) :
    sentIn i ((sent.map Receipt.transmission).flatMap (Transmission.actions i)) = sent := by
  induction sent with
  | nil => rfl
  | cons first sent ih =>
    rw [List.map_cons, List.flatMap_cons, sentAppend, ih]
    simp [sentIn, Transmission.actions, Receipt.transmission, Action.sent?]

theorem sentReceptions (i : Nat) (receptions : List Reception) :
    sentIn i (receptions.flatMap (Reception.actions i)) = [] := by
  induction receptions with
  | nil => rfl
  | cons first receptions ih =>
    rw [List.flatMap_cons, sentAppend, ih, List.append_nil]
    unfold Reception.actions
    split <;> rfl

theorem sentReceiveTold {n size : Nat} (i : Nat) (g : Channel.Readings) (ch : Channel n size) :
    sentIn i (Channel.receiveTold i g ch) = [] := by
  unfold Channel.receiveTold Duplex.receiveNews
  split
  · split
    · rfl
    · exact sentReceptions i _
  · rfl

theorem sentModemTold (i : Nat) (g : Channel.Readings) : sentIn i (Channel.modemTold i g) = [] := by
  unfold Channel.modemTold
  split <;> rfl

theorem sentTransmitNews (i : Nat) (s : DmaStatus) (count : Nat) (sent : List Receipt) :
    sentIn i (underrunNews i s ++ transmitNews i count (sent.map Receipt.transmission)) = sent := by
  have underrun : sentIn i (underrunNews i s) = [] := by
    unfold underrunNews
    split <;> rfl
  have counted : sentIn i (if 0 < count then [.notice (.framesSent i count)] else []) = [] := by
    split <;> rfl
  rw [sentAppend, underrun, transmitNews, sentAppend, sentTransmissions, counted]
  exact List.append_nil sent

def Share.takes {n size : Nat} (ch : Channel n size) : Share → List Receipt
  | .send data length tag =>
    match ch.rings.transmit.enqueue data length tag with
    | .ok _ => [(tag, length)]
    | .error _ => []
  | _ => []

variable {n size i : Nat} {ch : Channel n size} {r : Registers} {accepted : List Receipt}
  {finished : List Transmission} {reported : List Receipt}

def TransmitBooks (i : Nat) (ch : Channel n size) (r : Registers) (accepted : List Receipt)
    (finished : List Transmission) (reported : List Receipt) : Prop :=
  TransmitLedger ch.rings.transmit (Control.of i .transmit r) ch.transmitting accepted finished
    reported

namespace TransmitBooks

theorem fresh (filled : 0 < n) (plain : r.wiring.Plain i .transmit)
    (start : Fresh i .transmit ch r) : TransmitBooks i ch r [] [] [] := by
  obtain ⟨old, linked, ring⟩ := start.ring
  have off : ch.transmitting = false := start.enabled
  have ring : ch.rings.transmit = old.reset := ring
  unfold TransmitBooks
  rw [ring, off]
  refine TransmitLedger.started filled linked (fun on => by contradiction) fun _ => ?_
  rw [start.command plain]
  decide

theorem kept (h : TransmitBooks i ch r accepted finished reported)
    {done : Outcome Registers (Channel n size)} (same : Kept i .transmit ch r done) :
    TransmitBooks i done.answer done.state accepted finished reported := by
  have ring : done.answer.rings.transmit = ch.rings.transmit := same.ring
  have on : done.answer.transmitting = ch.transmitting := same.enabled
  unfold TransmitBooks
  rw [ring, on, same.control]
  exact h

theorem prepared (h : TransmitBooks i ch r accepted finished reported) (data : Bytes) :
    TransmitBooks i (ch.prepare data).2 r accepted finished reported :=
  TransmitLedger.prepared h data

section Shares

variable (few : i < Limits.maxChannels) (plain : r.wiring.Plain i .transmit)
  (h : TransmitBooks i ch r accepted finished reported)
include few plain h

theorem enabled (on : Bool) :
    TransmitBooks i (ch.enable i .transmit on r).answer (ch.enable i .transmit on r).state
      [] [] [] := by
  have control := (drivesEnable few .transmit on ch).control r plain
  rw [enableAnswer]
  unfold TransmitBooks
  rw [control]
  cases on with
  | false =>
    exact TransmitLedger.started h.indexed.filled h.linked (fun on => by contradiction)
      fun _ => by
        change Register.abortCommand ≠ Register.startCommand
        decide
  | true =>
    exact TransmitLedger.started h.indexed.filled h.linked (fun _ => ⟨rfl, rfl⟩)
      fun off => by contradiction

theorem sent (fits : size ≤ Limits.maxBufferSize) (on : ch.transmitting = true)
    {data : Option Bytes} {length : Nat} {tag : UInt64} {taken : Nat × SlotRing n size}
    (ok : ch.rings.transmit.enqueue data length tag = .ok taken) :
    TransmitBooks i (ch.send i data length tag r).answer.2 (ch.send i data length tag r).state
        (accepted ++ [(tag, length)]) finished reported ∧
      about i (ch.send i data length tag r).seen = [] := by
  have handed := Duplex.drivesHandOver few (d := .transmit) (taken.2.address taken.2.next)
    ((.ok () : Except SendError Unit),
      { ch with rings := ch.rings.withRing .transmit taken.2 })
  rw [sendAccepted i ok]
  refine ⟨?_, handed.news r⟩
  unfold TransmitBooks at h ⊢
  rw [handed.control r plain]
  rw [on] at h
  have entered := h.sent fits ok
  rw [← on] at entered
  exact entered

theorem serviced (fits : 16 * n ≤ 2 ^ 32) :
    TransmitBooks i (ch.service i r).answer (ch.service i r).state accepted finished
        (reported ++ sentIn i (ch.service i r).seen) ∧
      ((InterruptStatus.ofByte (r.peek8 (Register.interrupts i))).transmit = true →
        (reported ++ sentIn i (ch.service i r).seen).map Receipt.transmission = finished) := by
  obtain ⟨g, asked, served⟩ := Channel.serviced few ch r
  have told : sentIn i (ch.service i r).seen = sentIn i (Channel.transmitTold i g ch) := by
    rw [← sentAbout, served.news, sentAppend, sentAppend, sentReceiveTold, sentModemTold]
    simp
  unfold TransmitBooks at h ⊢
  rw [told, served.transmit, served.transmitting, served.transmitControl plain, ← asked]
  unfold Channel.transmitAfter Channel.transmitTold
  cases on : g.asked.transmit && ch.transmitting with
  | true =>
    have transmitting : ch.transmitting = true := (Bool.and_eq_true_iff.mp on).2
    rw [transmitting] at h ⊢
    obtain ⟨sent, drained, all, after⟩ := h.reports fits
    rw [served.transmitReading plain]
    simp only [↓reduceIte]
    rw [drained, sentTransmitNews]
    refine ⟨after, fun _ => after.settled ?_⟩
    rw [List.length_append]
    exact all
  | false =>
    simp only [Bool.false_eq_true, ↓reduceIte]
    have none : sentIn i [] = [] := rfl
    rw [none, List.append_nil]
    refine ⟨h, fun asked => ?_⟩
    -- asked but off: nothing was accepted since, so there is nothing to settle
    have off : ch.transmitting = false := by simpa [asked] using on
    have none := (h.idle off).1
    have le := h.finishedLe
    refine h.settled ?_
    have order := h.order
    rw [none, List.length_nil] at le
    omega

end Shares

end TransmitBooks

structure TransmitShare (i : Nat) (share : Share) (ch : Channel n size) (r : Registers)
    (done : Outcome Registers (Channel n size)) (accepted : List Receipt)
    (finished : List Transmission) (reported : List Receipt) : Prop where
  cut : share.switches .transmit = true →
    TransmitBooks i done.answer done.state [] [] []
  books : share.switches .transmit = false →
    TransmitBooks i done.answer done.state (accepted ++ share.takes ch) finished
      (reported ++ sentIn i done.seen)
  settled : share = .service →
    (InterruptStatus.ofByte (r.peek8 (Register.interrupts i))).transmit = true →
    (reported ++ sentIn i done.seen).map Receipt.transmission = finished

section Any

variable (few : i < Limits.maxChannels) (plain : r.wiring.Plain i .transmit)
  (fits : 16 * n ≤ 2 ^ 32) (words : size ≤ Limits.maxBufferSize)
  (h : TransmitBooks i ch r accepted finished reported)
include few h

theorem transmitAside {share : Share} (aside : share.Aside .transmit) (t : Thresholds) :
    TransmitShare i share ch r (share.perform i t ch r) accepted finished reported := by
  have kept := asideKeeps few aside t ch r
  have stays := Share.asideStays aside
  have none : share.takes ch = [] := by
    cases share with
    | send data length tag => contradiction
    | _ => rfl
  refine ⟨fun on => ?_, fun _ => ?_, fun serve => ?_⟩
  · rw [stays] at on
    contradiction
  · rw [none, sentQuiet kept.quiet, List.append_nil, List.append_nil]
    exact h.kept kept
  · rw [serve] at aside
    exact aside.elim

include plain words

theorem transmitSend (t : Thresholds) (on : ch.transmitting = true) (data : Option Bytes)
    (length : Nat) (tag : UInt64) :
    TransmitShare i (.send data length tag) ch r
      ((Share.send data length tag).perform i t ch r) accepted finished reported := by
  refine ⟨fun cut => by contradiction, fun _ => ?_, fun serve => by contradiction⟩
  cases queued : ch.rings.transmit.enqueue data length tag with
  | error cause =>
    have took : (Share.send data length tag).takes ch = [] := by
      simp only [Share.takes, queued]
    rw [took, Share.perform, sendRefused i queued]
    simpa [sentIn] using h
  | ok taken =>
    have took : (Share.send data length tag).takes ch = [(tag, length)] := by
      simp only [Share.takes, queued]
    obtain ⟨books, quiet⟩ := h.sent few plain words on queued
    have silent : sentIn i ((Share.send data length tag).perform i t ch r).seen = [] := by
      simp only [Share.perform, Operation.bindApply, Operation.pureApply, List.append_nil]
      rw [← sentAbout, quiet]
      rfl
    rw [took, silent, List.append_nil]
    exact books

include fits

theorem transmitShare (t : Thresholds) (share : Share)
    (opened : ∀ data length tag, share = .send data length tag → ch.transmitting = true)
    (started : ∀ setup place, share ≠ .init setup place) :
    TransmitShare i share ch r (share.perform i t ch r) accepted finished reported := by
  cases share with
  | init setup place => exact (started setup place rfl).elim
  | enable d on =>
    cases d with
    | receive => exact transmitAside few h (by simp [Share.Aside]) t
    | transmit =>
      exact ⟨fun _ => h.enabled few plain on, fun off => by contradiction,
        fun serve => by contradiction⟩
  | send data length tag =>
    exact transmitSend few plain words h t (opened data length tag rfl) data length tag
  | prepare data =>
    refine ⟨fun cut => by contradiction, fun _ => ?_, fun serve => by contradiction⟩
    simpa [Share.perform, Share.takes, sentIn] using h.prepared data
  | service =>
    obtain ⟨books, settled⟩ := h.serviced few plain fits
    have took : Share.service.takes ch = [] := rfl
    refine ⟨fun cut => by contradiction, fun _ => ?_, fun _ => settled⟩
    rw [took, List.append_nil]
    exact books
  | rest => exact transmitAside few h (by trivial) t
  | setMode mode => exact transmitAside few h (by trivial) t
  | resync => exact transmitAside few h (by trivial) t
  | clear scope => exact transmitAside few h (by trivial) t
  | tick => exact transmitAside few h (by trivial) t

end Any

end SerialAdapter
