import SerialAdapter.Proofs.Channel.Telling

/-! The traffic counters of a channel against its events. The driver counts and tells in separate
places; the two agree in every share, whatever the hardware answers. How often a controller
interrupted is counted too, and no event tells it. -/
namespace SerialAdapter

variable {n size i : Nat}

namespace Event

def payload? : Event → Option Bytes
  | .received _ payload => some payload
  | _ => none

def sentLength? : Event → Option Nat
  | .sent _ _ length => some length
  | _ => none

def error? : Event → Option ChannelError
  | .failed _ error => some error
  | _ => none

end Event

namespace Traffic

def errors (t : Traffic) : ChannelError → UInt32
  | .framing => t.framing
  | .checksum => t.checksum
  | .overrun => t.overrun
  | .overflow => t.overflow
  | .underrun => t.underrun

structure Counts (t : Traffic) (told : List Event) : Prop where
  framesIn : t.receive.packets = UInt32.ofNat (told.filterMap Event.payload?).length
  bytesIn : t.receive.bytes =
    UInt64.ofNat ((told.filterMap Event.payload?).map List.length).sum
  framesOut : t.transmit.packets = UInt32.ofNat (told.filterMap Event.sentLength?).length
  bytesOut : t.transmit.bytes = UInt64.ofNat (told.filterMap Event.sentLength?).sum
  kinds : ∀ e, t.errors e = UInt32.ofNat ((told.filterMap Event.error?).count e)
  errorsIn : t.receive.errors = t.framing + t.checksum + t.overrun + t.overflow
  errorsOut : t.transmit.errors = t.underrun

def hear (t : Traffic) : Event → Traffic
  | .received _ payload => t.countFrame .receive payload.length
  | .sent _ _ length => t.countFrame .transmit length
  | .failed _ error => t.countError error
  | .modemChanged .. => t

variable {t : Traffic} {told : List Event}

theorem countsNone : ({} : Traffic).Counts [] :=
  ⟨rfl, rfl, rfl, rfl, fun e => by cases e <;> rfl, rfl, rfl⟩

theorem hearErrors (t : Traffic) (e : Event) (kind : ChannelError) :
    (t.hear e).errors kind = t.errors kind + UInt32.ofNat (e.error?.toList.count kind) := by
  cases e with
  | failed j error => cases error <;> cases kind <;> simp [hear, countError, errors, Event.error?]
  | _ => cases kind <;> simp [hear, countFrame, errors, Event.error?]

theorem countsHear (h : t.Counts told) (e : Event) : (t.hear e).Counts (told ++ [e]) := by
  have kinds (kind : ChannelError) : (t.hear e).errors kind =
      UInt32.ofNat (((told ++ [e]).filterMap Event.error?).count kind) := by
    have last : [e].filterMap Event.error? = e.error?.toList := by cases e <;> rfl
    rw [hearErrors, h.kinds, List.filterMap_append, List.count_append, UInt32.ofNat_add, last]
  obtain ⟨framesIn, bytesIn, framesOut, bytesOut, -, errorsIn, errorsOut⟩ := h
  cases e with
  | received j payload =>
    refine ⟨?_, ?_, ?_, ?_, kinds, errorsIn, errorsOut⟩ <;>
      simp [hear, countFrame, DirectionCounters.countFrame, List.filterMap_cons, Event.payload?,
        Event.sentLength?, UInt32.ofNat_add, UInt64.ofNat_add, *]
  | sent j tag length =>
    refine ⟨?_, ?_, ?_, ?_, kinds, errorsIn, errorsOut⟩ <;>
      simp [hear, countFrame, DirectionCounters.countFrame, List.filterMap_cons, Event.payload?,
        Event.sentLength?, UInt32.ofNat_add, UInt64.ofNat_add, *]
  | failed j error =>
    refine ⟨?_, ?_, ?_, ?_, kinds, ?_, ?_⟩ <;> cases error <;>
      simp [hear, countError, DirectionCounters.countError, List.filterMap_cons, Event.payload?,
        Event.sentLength?, framesIn, bytesIn, framesOut, bytesOut, errorsIn, errorsOut] <;> grind
  | modemChanged j signals =>
    refine ⟨?_, ?_, ?_, ?_, kinds, errorsIn, errorsOut⟩ <;>
      simp [hear, List.filterMap_cons, Event.payload?, Event.sentLength?, *]

theorem countsRun (h : t.Counts told) (more : List Event) :
    (more.foldl hear t).Counts (told ++ more) := by
  induction more generalizing t told with
  | nil => simpa using h
  | cons e more ih => simpa using ih (countsHear h e)

theorem countsInterrupt (h : t.Counts told) (d : Direction) :
    (t.countInterrupt d).Counts told := by
  obtain ⟨framesIn, bytesIn, framesOut, bytesOut, kinds, errorsIn, errorsOut⟩ := h
  have same (e : ChannelError) : (t.countInterrupt d).errors e = t.errors e := by
    cases d <;> cases e <;> rfl
  cases d <;> exact ⟨framesIn, bytesIn, framesOut, bytesOut, fun e => (same e).trans (kinds e),
    errorsIn, errorsOut⟩

end Traffic

open Traffic

theorem receptionsHeard (i : Nat) (receptions : List Reception) (t : Traffic) :
    receptions.foldl Reception.count t =
      (events (receptions.flatMap (Reception.actions i))).foldl hear t := by
  rw [receptionEvents]
  induction receptions generalizing t with
  | nil => rfl
  | cons first receptions ih =>
    have heard : first.count t = t.hear (first.record.event i) := by
      unfold Reception.count Reception.record
      cases first.result <;> rfl
    simp only [List.foldl_cons, List.map_cons, ih, heard]

theorem transmissionsHeard (i : Nat) {slots : List (Slot size)}
    (tagged : ∀ s ∈ slots, s.tag.isSome = true) (t : Traffic) :
    (slots.map Slot.transmission).foldl Transmission.count t =
      (events ((slots.map Slot.transmission).flatMap (Transmission.actions i))).foldl hear t := by
  rw [transmissionEvents]
  induction slots generalizing t with
  | nil => rfl
  | cons first slots ih =>
    obtain ⟨held, tagged⟩ := List.forall_mem_cons.mp tagged
    obtain ⟨tag, found⟩ := Option.isSome_iff_exists.mp held
    have receipt : first.receipt? = some (tag, first.descriptor.length.toNat) := by
      simp [Slot.receipt?, found]
    simp only [List.map_cons, List.foldl_cons, List.filterMap_cons_some receipt, ih tagged]
    rfl

section Service

variable {ch : Channel n size} {t : Traffic} {told : List Event} (g : Channel.Readings)

theorem receivedCounts (h : ch.traffic.Counts told) :
    (Channel.receiveCounted g ch).Counts (told ++ events (Channel.receiveTold i g ch)) := by
  have interrupted := countsInterrupt h .receive
  unfold Channel.receiveCounted Channel.receiveTold Duplex.receiveCount Duplex.receiveNews
  split
  · split
    · exact countsHear interrupted (.failed i .overflow)
    · rw [receptionsHeard i]
      exact countsRun interrupted _
  · simpa [events] using h

theorem transmittedCounts (tagged : ch.rings.transmit.Tagged) (h : t.Counts told) :
    (Channel.transmitCounted g ch t).Counts (told ++ events (Channel.transmitTold i g ch)) := by
  have interrupted := countsInterrupt h .transmit
  unfold Channel.transmitCounted Channel.transmitTold Duplex.transmitCount
  split
  · have enough := SlotRing.completedLe ch.rings.transmit g.transmitAt
    have done := SlotRing.drained tagged.indexed enough
    have held (s : Slot size)
        (shown : s ∈ ch.rings.transmit.held.take (ch.rings.transmit.completed g.transmitAt)) :=
      tagged.held s (List.mem_of_mem_take shown)
    have counted : events (if 0 < ch.rings.transmit.completed g.transmitAt then
        [.notice (.framesSent i (ch.rings.transmit.completed g.transmitAt))] else []) = [] := by
      split <;> rfl
    have started : (if g.transmitStatus.chainOverflow then
        (t.countInterrupt .transmit).countError .underrun else t.countInterrupt .transmit).Counts
          (told ++ events (underrunNews i g.transmitStatus)) := by
      unfold underrunNews
      split
      · exact countsHear interrupted (.failed i .underrun)
      · simpa [events] using interrupted
    rw [eventsAppend, transmitNews, eventsAppend, counted, List.append_nil, done.reports,
      transmissionsHeard i held, ← List.append_assoc]
    exact countsRun started _
  · simpa [events] using h

theorem modemCounts (h : t.Counts told) : t.Counts (told ++ events (Channel.modemTold i g)) := by
  unfold Channel.modemTold
  split
  · exact countsHear h (.modemChanged i g.signals)
  · simpa [events] using h

end Service

def Share.clears : Share → Bool
  | .clear (.channel _) | .clear .board => true
  | _ => false

section Shares

variable (few : i < Limits.maxChannels) {ch : Channel n size} {told : List Event}

theorem noticesQuiet {seen : List Action}
    (quiet : ∀ a ∈ seen, ∃ d on, a = .notice (.enabled i d on)) : events seen = [] := by
  unfold events
  refine List.filterMap_eq_nil_iff.mpr fun a shown => ?_
  obtain ⟨d, on, rfl⟩ := quiet a shown
  rfl

include few

theorem serviceCounts (sound : ch.Sound) (h : ch.traffic.Counts told) (r : Registers) :
    (ch.service i r).answer.traffic.Counts (told ++ events (about i (ch.service i r).seen)) := by
  obtain ⟨g, -, served⟩ := Channel.serviced few ch r
  have receive := receivedCounts (i := i) g h
  have transmit := transmittedCounts (i := i) g sound.tagged receive
  have modem := modemCounts (i := i) g transmit
  rw [served.channel, served.news, eventsAppend, eventsAppend]
  simpa using modem

theorem shareMute {share : Share} (started : ∀ setup place, share ≠ .init setup place)
    (served : share ≠ .service) (t : Thresholds) (r : Registers) :
    events (about i (share.perform i t ch r).seen) = [] := by
  have aside (d : Direction) (aside : share.Aside d) :
      events (about i (share.perform i t ch r).seen) = [] :=
    noticesQuiet (asideKeeps few aside t ch r).quiet
  cases share with
  | init setup place => exact (started setup place rfl).elim
  | service => exact (served rfl).elim
  | enable d on =>
    cases d with
    | receive => exact aside .transmit (by simp [Share.Aside])
    | transmit => exact aside .receive (by simp [Share.Aside])
  | send data length tag => exact aside .receive (by simp [Share.Aside])
  | prepare data => exact aside .receive (by simp [Share.Aside])
  | _ => exact aside .receive (by simp [Share.Aside])

omit few in
theorem shareTraffic {share : Share} (started : ∀ setup place, share ≠ .init setup place)
    (served : share ≠ .service) (kept : share.clears = false) (t : Thresholds) (r : Registers) :
    (share.perform i t ch r).answer.traffic = ch.traffic := by
  cases share with
  | init setup place => exact (started setup place rfl).elim
  | service => exact (served rfl).elim
  | rest => rfl
  | resync => rfl
  | prepare data => rfl
  | clear scope =>
    cases scope with
    | line j => rfl
    | channel j => contradiction
    | board => contradiction
  | enable d on => exact (enableRest i d on ch r).2.1
  | setMode mode =>
    simp only [Share.perform, Channel.setMode, Channel.programMode, Operation.bindApply]
    split <;> rfl
  | send data length tag => rfl
  | tick =>
    simp only [Share.perform, Channel.tick, Operation.bindApply]
    split <;> rfl

theorem shareCounts (sound : ch.Sound) (h : ch.traffic.Counts told) {share : Share}
    (started : ∀ setup place, share ≠ .init setup place) (kept : share.clears = false)
    (t : Thresholds) (r : Registers) : (share.perform i t ch r).answer.traffic.Counts
      (told ++ events (about i (share.perform i t ch r).seen)) := by
  by_cases served : share = .service
  · subst served
    exact serviceCounts few sound h r
  · rw [shareMute few started served, shareTraffic started served kept, List.append_nil]
    exact h

end Shares

end SerialAdapter
