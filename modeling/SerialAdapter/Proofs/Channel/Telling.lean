import SerialAdapter.Proofs.Batch
import SerialAdapter.Proofs.Board.Hostile
import SerialAdapter.Proofs.Receive.Books

/-! The events of a service, whatever the hardware answers: they are those of one batch, with no
more records than slots were in flight. -/
namespace SerialAdapter

variable {n size i : Nat}

theorem eventsAppend (first second : List Action) :
    events (first ++ second) = events first ++ events second := List.filterMap_append

theorem eventsAbout {t : UInt16 → Prop} {seen : List Action} (tells : ∀ a ∈ seen, a.Of i t) :
    events (about i seen) = events seen := by
  induction seen with
  | nil => rfl
  | cons a seen ih =>
    have rest := ih fun b shown => tells b (List.mem_cons_of_mem a shown)
    have own := tells a List.mem_cons_self
    have whole : events (a :: seen) = events [a] ++ events seen := eventsAppend [a] seen
    have part : about i (a :: seen) = about i [a] ++ about i seen := aboutAppend i [a] seen
    rw [whole, part, eventsAppend, rest]
    congr 1
    cases a with
    | event e =>
      have same : e.channel = i := own e.channel rfl
      simp [about, Action.channel?, same]
    | notice m =>
      unfold about
      rw [List.filter_cons]
      split <;> rfl
    | _ => rfl

def Reception.record (r : Reception) : ReceiveRecord :=
  match r.result with
  | .ok payload => .frame payload
  | .error cause => .error cause

theorem receptionEvents (i : Nat) (receptions : List Reception) :
    events (receptions.flatMap (Reception.actions i)) =
      (receptions.map Reception.record).map (ReceiveRecord.event i) := by
  induction receptions with
  | nil => rfl
  | cons first receptions ih =>
    rw [List.flatMap_cons, eventsAppend, ih, List.map_cons, List.map_cons]
    unfold Reception.actions Reception.record
    cases first.result with
    | ok payload => rfl
    | error cause => rfl

theorem receptionSound (s : Slot size) : s.reception.record.Sound size := by
  have sound := outcomeSound s
  rw [← receptionResult] at sound
  unfold Reception.record
  cases result : s.reception.result with
  | ok payload =>
    have shown : payload = s.bytes s.descriptor.length.toNat := by
      unfold Slot.reception at result
      dsimp only at result
      split at result
      · contradiction
      · exact (Except.ok.inj result).symm
    change payload.length ≤ size
    rw [shown, Slot.bytes, List.length_take, Vector.length_toList]
    exact Nat.min_le_right _ _
  | error cause =>
    intro same
    exact sound (by rw [result, same])

def Slot.receipt? (s : Slot size) : Option (UInt64 × Nat) :=
  s.tag.map fun tag => (tag, s.descriptor.length.toNat)

theorem transmissionEvents (i : Nat) (slots : List (Slot size)) :
    events ((slots.map Slot.transmission).flatMap (Transmission.actions i)) =
      (slots.filterMap Slot.receipt?).map fun s => .sent i s.1 s.2 := by
  induction slots with
  | nil => rfl
  | cons first slots ih =>
    rw [List.map_cons, List.flatMap_cons, eventsAppend, ih]
    unfold Transmission.actions Slot.transmission Slot.receipt?
    cases tag : first.tag with
    | none => rw [List.filterMap_cons_none (by rw [tag]; rfl)]; rfl
    | some word => rw [List.filterMap_cons_some (by rw [tag]; rfl)]; rfl

section Parts

variable {ch : Channel n size} (h : ch.Sound) (g : Channel.Readings)
include h

structure ReceiveTold (i : Nat) (ch : Channel n size) (told : List Action)
    (received : List ReceiveRecord) : Prop where
  events : events told = received.map (ReceiveRecord.event i)
  sound : ∀ r ∈ received, r.Sound size
  few : received.length ≤ n - 1
  restarted : restartsIn i told = true → received = [.error .overflow]

theorem receiveTelling (room : 2 ≤ n) :
    ∃ received, ReceiveTold i ch (Channel.receiveTold i g ch) received := by
  unfold Channel.receiveTold Duplex.receiveNews
  split
  · split
    · refine ⟨[.error .overflow], rfl, fun r shown => ?_, by simp; omega, fun _ => rfl⟩
      cases List.mem_singleton.mp shown
      exact ChannelError.noConfusion
    · have enough := SlotRing.completedLe ch.rings.receive g.receiveAt
      have done := SlotRing.collected h.indexed enough
      have most := SlotRing.inFlightLt h.indexed
      rw [done.reports]
      obtain ⟨slots, taken⟩ : ∃ slots,
        ch.rings.receive.held.take (ch.rings.receive.completed g.receiveAt) = slots := ⟨_, rfl⟩
      have count : slots.length ≤ ch.rings.receive.completed g.receiveAt := by
        rw [← taken, List.length_take]
        exact Nat.min_le_left _ _
      rw [taken]
      refine ⟨_, receptionEvents i _, fun r shown => ?_, ?_, fun on => ?_⟩
      · rw [List.map_map] at shown
        obtain ⟨s, -, rfl⟩ := List.mem_map.mp shown
        exact receptionSound s
      · rw [List.length_map, List.length_map]
        omega
      · rw [receptionsQuiet] at on
        contradiction
  · exact ⟨[], rfl, fun r shown => by contradiction, Nat.zero_le _, fun on => by contradiction⟩

structure TransmitTold (i : Nat) (ch : Channel n size) (after : SlotRing n size)
    (told : List Action) (underrun : Bool) (sent : List (UInt64 × Nat)) : Prop where
  events : events told = (if underrun then [.failed i .underrun] else []) ++
    sent.map fun s => .sent i s.1 s.2
  reclaimed : sent.length + after.inFlight = ch.rings.transmit.inFlight

theorem transmitTelling : ∃ underrun sent,
    TransmitTold i ch (Channel.transmitAfter g ch) (Channel.transmitTold i g ch) underrun sent := by
  unfold Channel.transmitTold Channel.transmitAfter
  split
  · have enough := SlotRing.completedLe ch.rings.transmit g.transmitAt
    obtain ⟨count, completed⟩ : ∃ count, ch.rings.transmit.completed g.transmitAt = count := ⟨_, rfl⟩
    rw [completed] at enough ⊢
    have done := SlotRing.drained h.tagged.indexed enough
    have tagged : ((ch.rings.transmit.held.take count).filterMap Slot.receipt?).length =
        (ch.rings.transmit.held.take count).length := by
      refine List.filterMap_length_eq_length.mpr fun s shown => ?_
      have tag := h.tagged.held s (List.mem_of_mem_take shown)
      rw [Slot.receipt?, Option.isSome_map]
      exact tag
    refine ⟨g.transmitStatus.chainOverflow,
      (ch.rings.transmit.held.take count).filterMap Slot.receipt?, ?_, ?_⟩
    · have counted : events (if 0 < count then [.notice (.framesSent i count)] else []) = [] := by
        split <;> rfl
      rw [eventsAppend, transmitNews, eventsAppend, counted, List.append_nil, done.reports,
        transmissionEvents]
      unfold underrunNews
      split <;> rfl
    · have left := done.inFlight
      rw [tagged, List.length_take, SlotRing.heldLength, left]
      omega
  · exact ⟨false, [], rfl, Nat.zero_add _⟩

end Parts

structure ServiceTold (i : Nat) (ch : Channel n size)
    (done : Outcome Registers (Channel n size)) (batch : Batch n size) : Prop where
  channel : batch.channel = i
  events : events done.seen = batch.events
  received : batch.received.length ≤ n - 1
  sound : ∀ r ∈ batch.received, r.Sound size
  restarted : restartsIn i done.seen = true → batch.received = [.error .overflow]
  reclaimed : batch.sent.length + done.answer.rings.transmit.inFlight =
    ch.rings.transmit.inFlight

theorem serviceTelling (few : i < Limits.maxChannels) (room : 2 ≤ n) {ch : Channel n size}
    (h : ch.Sound) (r : Registers) : ∃ batch, ServiceTold i ch (ch.service i r) batch := by
  obtain ⟨g, -, served⟩ := Channel.serviced few ch r
  obtain ⟨received, receive⟩ := receiveTelling (i := i) h g room
  obtain ⟨underrun, sent, transmit⟩ := transmitTelling (i := i) h g
  have tells := (confinedService few ch).tells r
  refine ⟨⟨i, received, underrun, sent, if g.asked.modem then some g.signals else none⟩, rfl, ?_,
    receive.few, receive.sound, fun on => ?_, ?_⟩
  · have modem : events (Channel.modemTold i g) = ((if g.asked.modem then some g.signals else
        none).map (Event.modemChanged i)).toList := by
      unfold Channel.modemTold
      split <;> rfl
    rw [← eventsAbout tells, served.news, eventsAppend, eventsAppend, receive.events,
      transmit.events, modem, ← List.append_assoc]
    rfl
  · refine receive.restarted ?_
    rwa [(servicedOutcomes served).2] at on
  · rw [served.transmit]
    exact transmit.reclaimed

theorem toldFits {ch : Channel n size} {done : Outcome Registers (Channel n size)}
    {batch : Batch n size} (h : ch.Sound) (told : ServiceTold i ch done batch) : batch.Fits := by
  have most := SlotRing.inFlightLt h.tagged.indexed
  have reclaimed := told.reclaimed
  have received := told.received
  exact ⟨by omega, by omega, told.sound⟩

end SerialAdapter
