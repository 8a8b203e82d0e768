import SerialAdapter.Proofs.Register.Control
import SerialAdapter.Proofs.Ring.Queue

/-! The books of a transmit ring. Three lists are kept beside it since it was last switched: the
frames that were accepted, those that the controller finished, and those that were reported. The
ledger says that each is a beginning of the one before, that what was accepted and not yet reported
is what the ring holds, and that the controller stands right behind what it finished. -/
namespace SerialAdapter

variable {n size : Nat}

abbrev Receipt := UInt64 × Nat

def Receipt.transmission (a : Receipt) : Transmission := ⟨some a.1, a.2⟩

structure TransmitLedger (ring : SlotRing n size) (control : Control) (on : Bool)
    (accepted : List Receipt) (finished : List Transmission) (reported : List Receipt) : Prop where
  indexed : ring.Indexed
  linked : ring.Linked
  held : ring.held.map Slot.transmission =
    (accepted.drop reported.length).map Receipt.transmission
  told : reported <+: accepted
  walked : finished <+: accepted.map Receipt.transmission
  order : reported.length ≤ finished.length
  armed : on = true →
    control.current = ring.address (ring.oldest + (finished.length - reported.length)) ∧
      control.stop = ring.address ring.next
  idle : on = false → accepted = [] ∧ control.command ≠ Register.startCommand

namespace TransmitLedger

variable {ring : SlotRing n size} {control : Control} {on : Bool} {accepted : List Receipt}
  {finished : List Transmission} {reported : List Receipt}

theorem inFlight (h : TransmitLedger ring control on accepted finished reported) :
    ring.inFlight = accepted.length - reported.length := by
  have lengths := congrArg List.length h.held
  rw [List.length_map, List.length_map, List.length_drop, SlotRing.heldLength] at lengths
  exact lengths

theorem finishedLe (h : TransmitLedger ring control on accepted finished reported) :
    finished.length ≤ accepted.length := by
  have le := h.walked.length_le
  rw [List.length_map] at le
  exact le

theorem free (h : TransmitLedger ring control on accepted finished reported) :
    ring.free = n - 1 - (accepted.length - reported.length) := by
  rw [SlotRing.freeEq h.indexed, SlotRing.heldLength, h.inFlight]

theorem settled (h : TransmitLedger ring control on accepted finished reported)
    (all : reported.length = finished.length) : reported.map Receipt.transmission = finished := by
  have told : reported.map Receipt.transmission <+: accepted.map Receipt.transmission :=
    h.told.map Receipt.transmission
  have le : (reported.map Receipt.transmission).length ≤ finished.length := by
    rw [List.length_map]
    omega
  exact (List.prefix_of_prefix_length_le told h.walked le).eq_of_length (by simpa using all)

theorem started (filled : 0 < n) (linked : ring.Linked)
    (armed : on = true → control.current = ring.address 0 ∧ control.stop = ring.address 0)
    (idle : on = false → control.command ≠ Register.startCommand) :
    TransmitLedger ring.reset control on [] [] [] where
  indexed := SlotRing.indexedReset filled ring
  linked := SlotRing.linkedReset filled linked
  held := by
    rw [SlotRing.heldReset]
    rfl
  told := List.prefix_rfl
  walked := List.prefix_rfl
  order := Nat.le_refl _
  armed := armed
  idle off := ⟨rfl, idle off⟩

theorem sent (fits : size ≤ Limits.maxBufferSize)
    (h : TransmitLedger ring control true accepted finished reported) {data : Option Bytes}
    {length k : Nat} {tag : UInt64} {ring' : SlotRing n size}
    (ok : ring.enqueue data length tag = .ok (k, ring')) :
    TransmitLedger ring'
      { control with stop := ring'.address ring'.next, command := Register.startCommand } true
      (accepted ++ [(tag, length)]) finished reported := by
  obtain ⟨short, free, -, rfl⟩ := SlotRing.enqueueOk ok
  have room := SlotRing.roomOfFree h.indexed free
  have old : reported.length ≤ accepted.length := h.told.length_le
  have whole : (UInt16.ofNat length).toNat = length := by
    apply UInt16.toNat_ofNat_of_lt'
    have := Nat.le_trans short fits
    rw [Limits.maxBufferSize] at this
    rw [UInt16.size]
    omega
  have taken : Slot.transmission ((ring.slot ring.next).load data length tag) =
      Receipt.transmission (tag, length) := by
    simp only [Slot.transmission, Slot.load, Descriptor.arm, whole, Receipt.transmission]
  exact {
    indexed := SlotRing.extendIndexed (SlotRing.indexedModify h.indexed _ _)
    linked := SlotRing.linkedModify h.indexed.filled h.linked _ fun _ => rfl
    held := by
      rw [SlotRing.heldPut h.indexed _ room, List.map_append, h.held,
        List.drop_append_of_le_length old, List.map_append, List.map_singleton, taken]
      rfl
    told := h.told.trans (List.prefix_append _ _)
    walked := by
      rw [List.map_append]
      exact h.walked.trans (List.prefix_append _ _)
    order := h.order
    armed := fun on => ⟨(h.armed on).1, rfl⟩
    idle := fun off => by contradiction }

theorem prepared (h : TransmitLedger ring control on accepted finished reported)
    (data : Bytes) : TransmitLedger (ring.prepare data).2 control on accepted finished reported := by
  unfold SlotRing.prepare
  split
  · exact h
  · exact {
      indexed := SlotRing.indexedModify h.indexed _ _
      linked := SlotRing.linkedModify h.indexed.filled h.linked _ fun _ => rfl
      held := by
        rw [SlotRing.heldModifyNext h.indexed]
        exact h.held
      told := h.told
      walked := h.walked
      order := h.order
      armed := h.armed
      idle := h.idle }

theorem standing (h : TransmitLedger ring control on accepted finished reported)
    (running : control.running = true) :
    on = true ∧ finished.length < accepted.length := by
  obtain ⟨started, moving⟩ : control.command = Register.startCommand ∧
      control.current ≠ control.stop := by simpa [Control.running] using running
  cases on with
  | false => exact ((h.idle rfl).2 started).elim
  | true =>
    obtain ⟨current, stop⟩ := h.armed rfl
    refine ⟨rfl, Nat.lt_of_le_of_ne h.finishedLe fun all => moving ?_⟩
    have order := h.order
    rw [current, stop, all, ← h.inFlight, ← SlotRing.addressMod, SlotRing.nextPosition h.indexed]

-- the first frame that is not finished is the held one at the controller's position
theorem nextFrame (h : TransmitLedger ring control on accepted finished reported)
    (more : finished.length < accepted.length) :
    (accepted.map Receipt.transmission)[finished.length]? =
      some (ring.slot (ring.oldest + (finished.length - reported.length))).transmission := by
  have order := h.order
  have count := h.inFlight
  have held := congrArg (·[finished.length - reported.length]?) h.held
  have position : reported.length + (finished.length - reported.length) = finished.length := by
    omega
  simp only [List.getElem?_map, SlotRing.heldGet ring (by omega :
    finished.length - reported.length < ring.inFlight), List.getElem?_drop, position] at held
  rw [List.getElem?_map, ← held]
  rfl

theorem walks (fits : 16 * n ≤ 2 ^ 32)
    (h : TransmitLedger ring control on accepted finished reported)
    (running : control.running = true) {k : Nat} (there : ring.slotAt? control.current = some k) :
    TransmitLedger ring { control with current := (ring.slot k).descriptor.chain } on accepted
      (finished ++ [(ring.slot k).transmission]) reported := by
  obtain ⟨rfl, more⟩ := h.standing running
  obtain ⟨current, stop⟩ := h.armed rfl
  have order := h.order
  have place : k = (ring.oldest + (finished.length - reported.length)) % n := by
    rw [current, SlotRing.slotAtAddress fits h.indexed.filled] at there
    exact (Option.some.inj there).symm
  have slot : ring.slot k = ring.slot (ring.oldest + (finished.length - reported.length)) :=
    SlotRing.slotCongr ring (by rw [place, Nat.mod_mod])
  have next : finished ++ [(ring.slot k).transmission] =
      (accepted.map Receipt.transmission).take (finished.length + 1) := by
    rw [List.take_add_one, h.nextFrame more, ← List.prefix_iff_eq_take.mp h.walked, slot]
    rfl
  exact {
    indexed := h.indexed
    linked := h.linked
    held := h.held
    told := h.told
    walked := by
      rw [next]
      exact List.take_prefix _ _
    order := by
      rw [List.length_append]
      exact Nat.le_trans order (Nat.le_add_right _ _)
    armed := fun _ => by
      refine ⟨?_, stop⟩
      change (ring.slot k).descriptor.chain = _
      rw [h.linked k]
      refine SlotRing.addressCongr ring ?_
      rw [place, Nat.mod_add_mod, List.length_append, List.length_singleton]
      congr 1
      omega
    idle := fun off => by contradiction }

theorem toldUpTo (h : TransmitLedger ring control on accepted finished reported) :
    reported ++ (accepted.drop reported.length).take (finished.length - reported.length) =
      accepted.take finished.length := by
  have order := h.order
  have old := List.prefix_iff_eq_take.mp h.told
  have sum : reported.length + (finished.length - reported.length) = finished.length := by omega
  have split := List.take_add (l := accepted) (i := reported.length)
    (j := finished.length - reported.length)
  rw [sum, ← old] at split
  exact split.symm

theorem reports (fits : 16 * n ≤ 2 ^ 32)
    (h : TransmitLedger ring control true accepted finished reported) :
    ∃ sent : List Receipt, (SlotRing.drain (ring.completed control.current) ring).1 =
        sent.map Receipt.transmission ∧
      reported.length + sent.length = finished.length ∧
      TransmitLedger (SlotRing.drain (ring.completed control.current) ring).2 control true accepted
        finished (reported ++ sent) := by
  obtain ⟨current, stop⟩ := h.armed rfl
  have order := h.order
  have enough := h.finishedLe
  have inFlight := h.inFlight
  have count : ring.completed control.current = finished.length - reported.length := by
    rw [current]
    exact SlotRing.completedAtPosition fits h.indexed (by omega)
  rw [count]
  have drained := SlotRing.drained h.indexed
    (by omega : finished.length - reported.length ≤ ring.inFlight)
  have taken := h.toldUpTo
  have length : ((accepted.drop reported.length).take
      (finished.length - reported.length)).length = finished.length - reported.length := by
    rw [List.length_take, List.length_drop]
    omega
  refine ⟨(accepted.drop reported.length).take (finished.length - reported.length), ?_, ?_, ?_⟩
  · rw [drained.reports, List.map_take, h.held, List.map_take]
  · omega
  · exact {
      indexed := drained.indexed
      linked := drained.linked h.linked
      held := by
        rw [drained.held, List.map_drop, h.held, taken, List.length_take, ← List.map_drop,
          List.drop_drop]
        congr 2
        omega
      told := by
        rw [taken]
        exact List.take_prefix _ _
      walked := h.walked
      order := by
        rw [taken, List.length_take]
        omega
      armed := fun _ => by
        have base := SlotRing.addressBase drained.base
        have none : finished.length - (accepted.take finished.length).length = 0 := by
          rw [List.length_take]
          omega
        rw [taken, none, base, base, drained.next, drained.oldest, Nat.add_zero,
          SlotRing.addressMod]
        exact ⟨current, stop⟩
      idle := fun off => by contradiction }

end TransmitLedger

end SerialAdapter
