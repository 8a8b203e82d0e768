import SerialAdapter.Proofs.Channel.Service

/-! The books of a receive ring. Beside it are kept, since it was last started or stopped, the slots
that the controller wrote and the outcomes that were reported. The ledger says that the reports are
the outcomes of the first slots, that the oldest slots of the ring are the written ones that were
not reported, and that the controller stands right behind them. -/
namespace SerialAdapter

variable {n size : Nat}

def Slot.outcome (s : Slot size) : Except ChannelError Bytes :=
  let status := DescriptorStatus.ofByte s.descriptor.status
  if status.overrun then .error .overrun
  else if status.abort || status.shortFrame || status.residualBits then .error .framing
  else if status.endOfFrame && status.crcError then .error .checksum
  else if !status.endOfFrame then .error .overflow
  else .ok (s.buffer.toList.take (min s.descriptor.length.toNat size))

theorem receptionResult (s : Slot size) : s.reception.result = s.outcome := by
  have whole : s.bytes s.descriptor.length.toNat =
      s.buffer.toList.take (min s.descriptor.length.toNat size) := by
    rw [Slot.bytes, List.take_eq_take_min, Vector.length_toList]
  unfold Slot.reception Slot.outcome DescriptorStatus.receiveError? DescriptorStatus.badFraming
  simp only [whole]
  generalize DescriptorStatus.ofByte s.descriptor.status = status
  cases status.overrun <;> cases status.shortFrame <;> cases status.abort <;>
    cases status.residualBits <;> cases status.endOfFrame <;> cases status.crcError <;> rfl

structure ReceiveArmed (ring : SlotRing n size) (control : Control) (written : List (Slot size))
    (reported : List (Except ChannelError Bytes)) : Prop where
  full : ring.inFlight = n - 1
  room : written.length - reported.length ≤ n - 1
  current : control.current = ring.address (ring.oldest + (written.length - reported.length))
  stop : control.stop = ring.address ring.next
  oldest : ring.held.take (written.length - reported.length) = written.drop reported.length

structure ReceiveLedger (ring : SlotRing n size) (control : Control) (on : Bool)
    (written : List (Slot size)) (reported : List (Except ChannelError Bytes)) : Prop where
  indexed : ring.Indexed
  linked : ring.Linked
  told : reported <+: written.map Slot.outcome
  armed : on = true → ReceiveArmed ring control written reported
  idle : on = false →
    written = [] ∧ reported = [] ∧ control.command ≠ Register.startCommand

namespace ReceiveLedger

variable {ring : SlotRing n size} {control : Control} {on : Bool} {written : List (Slot size)}
  {reported : List (Except ChannelError Bytes)}

theorem order (h : ReceiveLedger ring control on written reported) :
    reported.length ≤ written.length := by
  have le := h.told.length_le
  rw [List.length_map] at le
  exact le

theorem stopped (filled : 0 < n) (linked : ring.Linked)
    (idle : control.command ≠ Register.startCommand) :
    ReceiveLedger ring.reset control false [] [] where
  indexed := SlotRing.indexedReset filled ring
  linked := SlotRing.linkedReset filled linked
  told := List.prefix_rfl
  armed on := by contradiction
  idle _ := ⟨rfl, rfl, idle⟩

theorem started (filled : 0 < n) (linked : ring.Linked) :
    ReceiveLedger ring.reset.fill (Duplex.receiveStarted ring) true [] [] := by
  have indexed := SlotRing.indexedReset filled ring
  have fill := SlotRing.fillFilled indexed
  exact {
    indexed := fill.indexed
    linked := fill.linked (SlotRing.linkedReset filled linked)
    told := List.prefix_rfl
    armed := fun _ => {
      full := SlotRing.fillInFlight indexed
      room := Nat.zero_le _
      current := by
        rw [fill.oldest]
        rfl
      stop := rfl
      oldest := rfl }
    idle := fun off => by contradiction }

theorem standing (h : ReceiveLedger ring control on written reported)
    (running : control.running = true) :
    on = true ∧ written.length - reported.length < ring.inFlight := by
  obtain ⟨started, moving⟩ : control.command = Register.startCommand ∧
      control.current ≠ control.stop := by simpa [Control.running] using running
  cases on with
  | false => exact ((h.idle rfl).2.2 started).elim
  | true =>
    have armed := h.armed rfl
    have room := armed.room
    rw [← armed.full] at room
    refine ⟨rfl, Nat.lt_of_le_of_ne room fun all => moving ?_⟩
    rw [armed.current, armed.stop, all, ← SlotRing.addressMod, SlotRing.nextPosition h.indexed]

theorem fills (fits : 16 * n ≤ 2 ^ 32) (h : ReceiveLedger ring control on written reported)
    (running : control.running = true) {k : Nat} (there : ring.slotAt? control.current = some k)
    (frame : Bytes) (length : UInt16) (status : UInt8) :
    let ring' := ring.modifySlot k (·.complete frame length status)
    ReceiveLedger ring' { control with current := (ring'.slot k).descriptor.chain } on
      (written ++ [ring'.slot k]) reported := by
  obtain ⟨rfl, low⟩ := h.standing running
  have armed := h.armed rfl
  have filled := h.indexed.filled
  have turn := SlotRing.inFlightLt h.indexed
  have order := h.order
  obtain ⟨p, position⟩ : ∃ p, written.length - reported.length = p := ⟨_, rfl⟩
  rw [position] at low
  have place : k = (ring.oldest + p) % n := by
    rw [armed.current, SlotRing.slotAtAddress fits filled, position] at there
    exact (Option.some.inj there).symm
  intro ring'
  have linked : ring'.Linked := SlotRing.linkedModify filled h.linked k fun _ => rfl
  have same : ring' = ring.modifySlot (ring.oldest + p) (·.complete frame length status) := by
    simp only [ring', SlotRing.modifySlot, place, Nat.mod_mod]
  -- the slots before it among the armed ones are those written earlier
  have earlier : ring'.held.take p = ring.held.take p := by
    rw [same]
    exact SlotRing.heldModifyTake h.indexed low _
  have here : ring'.held[p]? = some (ring'.slot k) := by
    have got := SlotRing.heldGet ring' (k := p) low
    rw [got]
    exact congrArg some (SlotRing.slotCongr ring' (by rw [place, Nat.mod_mod]; rfl))
  have more : (written ++ [ring'.slot k]).length - reported.length = p + 1 := by
    rw [List.length_append, List.length_singleton]
    omega
  exact {
    indexed := SlotRing.indexedModify h.indexed k _
    linked := linked
    told := by
      rw [List.map_append]
      exact h.told.trans (List.prefix_append _ _)
    armed := fun _ => {
      full := armed.full
      room := by
        have full := armed.full
        rw [more]
        omega
      current := by
        rw [more]
        change (ring'.slot k).descriptor.chain = _
        rw [linked k]
        refine SlotRing.addressCongr ring' ?_
        rw [place, Nat.mod_add_mod]
        rfl
      stop := armed.stop
      oldest := by
        have old := armed.oldest
        rw [position] at old
        rw [more, List.take_add_one, here, earlier, old, List.drop_append_of_le_length order]
        rfl }
    idle := fun off => by contradiction }

theorem completedCount (fits : 16 * n ≤ 2 ^ 32)
    (h : ReceiveLedger ring control true written reported) :
    ring.completed control.current = written.length - reported.length ∧
      written.length - reported.length ≤ ring.inFlight := by
  have armed := h.armed rfl
  have room := armed.room
  rw [← armed.full] at room
  rw [armed.current]
  exact ⟨SlotRing.completedAtPosition fits h.indexed room, room⟩

theorem allTold (h : ReceiveLedger ring control on written reported) :
    reported ++ (written.drop reported.length).map Slot.outcome = written.map Slot.outcome := by
  rw [List.map_drop]
  conv => lhs; lhs; rw [List.prefix_iff_eq_take.mp h.told]
  exact List.take_append_drop _ _

theorem reports (fits : 16 * n ≤ 2 ^ 32) (h : ReceiveLedger ring control true written reported)
    {s : DmaStatus} (fine : s.ringFault = false) :
    ∃ slots : List (Slot size),
      (SlotRing.collect (ring.completed control.current) ring).1 = slots.map Slot.reception ∧
      reported ++ slots.map Slot.outcome = written.map Slot.outcome ∧
      ReceiveLedger (Duplex.receiveRing ring s control.current)
        (Duplex.receiveControl ring s control) true written
        (reported ++ slots.map Slot.outcome) := by
  have armed := h.armed rfl
  have all := h.allTold
  obtain ⟨count, room⟩ := h.completedCount fits
  have collected := SlotRing.collected h.indexed room
  have ringEq : Duplex.receiveRing ring s control.current =
      (SlotRing.collect (written.length - reported.length) ring).2 := by
    rw [Duplex.receiveRing, fine, count]
    rfl
  have slots : (SlotRing.collect (written.length - reported.length) ring).1 =
      (written.drop reported.length).map Slot.reception := by
    rw [collected.reports, armed.oldest]
  have none : written.length - (written.map Slot.outcome).length = 0 := by
    rw [List.length_map]
    omega
  rw [count, ringEq]
  refine ⟨_, slots, all, ?_⟩
  rw [all]
  have base := SlotRing.addressBase collected.base
  have current : control.current =
      (SlotRing.collect (written.length - reported.length) ring).2.address
        ((SlotRing.collect (written.length - reported.length) ring).2.oldest + 0) := by
    rw [base, collected.oldest, Nat.add_zero, SlotRing.addressMod]
    exact armed.current
  exact {
    indexed := collected.indexed
    linked := collected.linked h.linked
    told := List.prefix_rfl
    armed := fun _ => {
      full := collected.inFlight.trans armed.full
      room := by
        rw [none]
        exact Nat.zero_le _
      current := by
        rw [none, ← current]
        unfold Duplex.receiveControl
        rw [fine]
        simp only [Bool.false_eq_true, ↓reduceIte]
        split <;> rfl
      stop := by
        unfold Duplex.receiveControl
        rw [fine, ringEq, count]
        simp only [Bool.false_eq_true, ↓reduceIte]
        split
        · rfl
        · rename_i idle
          have zero : written.length - reported.length = 0 := by omega
          rw [zero]
          exact armed.stop
      oldest := by
        rw [none, List.length_map, List.drop_length]
        rfl }
    idle := fun off => by contradiction }

end ReceiveLedger

end SerialAdapter
