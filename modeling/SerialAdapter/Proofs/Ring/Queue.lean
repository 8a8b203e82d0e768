import SerialAdapter.Proofs.Ring.Window

/-! The ring operations on the two lists: a slot is put at the end of `held` from the front of
`spare`, or goes back from the front of `held` to the end of `spare`. The descriptor chain is a
single cycle, and nothing but the layout touches it. -/
namespace SerialAdapter

def Slot.transmission {size : Nat} (s : Slot size) : Transmission :=
  ⟨s.tag, s.descriptor.length.toNat⟩

namespace SlotRing

variable {n size : Nat}

def Linked (r : SlotRing n size) : Prop :=
  ∀ k, (r.slot k).descriptor.chain = r.address (k + 1)

theorem linkedModify (filled : 0 < n) {r : SlotRing n size} (h : r.Linked) (i : Nat)
    {change : Slot size → Slot size}
    (keeps : ∀ s, (change s).descriptor.chain = s.descriptor.chain) :
    (r.modifySlot i change).Linked := by
  intro k
  rw [slotModify filled]
  split
  · exact (keeps _).trans (h k)
  · exact h k

theorem linkedReset (filled : 0 < n) {r : SlotRing n size} (h : r.Linked) : r.reset.Linked := by
  intro k
  rw [slotReset filled]
  exact h k

theorem linkedLayout (filled : 0 < n) (r : SlotRing n size) (place : Placement) :
    (r.layout place).Linked := by
  intro k
  rw [slotLayout filled]
  exact addressCongr _ (by rw [after, Nat.mod_mod, Nat.mod_add_mod])

theorem indexedModify {r : SlotRing n size} (h : r.Indexed) (i : Nat)
    (change : Slot size → Slot size) : (r.modifySlot i change).Indexed := ⟨h.oldest, h.next⟩

theorem indexedReset (filled : 0 < n) (r : SlotRing n size) : r.reset.Indexed := ⟨filled, filled⟩

theorem resetInFlight (r : SlotRing n size) : r.reset.inFlight = 0 := Nat.mod_self n

theorem heldReset (r : SlotRing n size) : r.reset.held = [] := heldEmpty (resetInFlight r)

theorem spareReset (filled : 0 < n) (r : SlotRing n size) :
    r.reset.spare = (r.window 0 n).map Slot.release := by
  rw [spare, resetInFlight, Nat.sub_zero, window, window, List.map_map]
  refine List.map_congr_left fun k _ => ?_
  rw [slotReset filled]
  rfl

section Ends

variable {r : SlotRing n size} (h : r.Indexed) (change : Slot size → Slot size)
include h

theorem heldPut (room : r.inFlight + 1 < n) :
    (r.modifySlot r.next change).extend.held = r.held ++ [change (r.slot r.next)] := by
  have put := heldExtend (indexedModify h r.next change) room
  rw [heldModifyNext h] at put
  rw [put]
  change _ ++ [(r.modifySlot r.next change).slot r.next] = _
  rw [slotModify h.filled, if_pos rfl]

theorem putInFlight (room : r.inFlight + 1 < n) :
    (r.modifySlot r.next change).extend.inFlight = r.inFlight + 1 :=
  extendInFlight (indexedModify h r.next change) room

theorem sparePut (room : r.inFlight + 1 < n) :
    (r.modifySlot r.next change).extend.spare = r.spare.tail := by
  rw [spareExtend (indexedModify h r.next change) room, spareModifyNext h]
  rfl

theorem heldGive (some : 0 < r.inFlight) :
    (r.modifySlot r.oldest change).advance.held = r.held.tail := by
  rw [heldAdvance (indexedModify h r.oldest change) some, heldModifyOldest h some]
  rfl

theorem spareGive (some : 0 < r.inFlight) :
    (r.modifySlot r.oldest change).advance.spare = r.spare ++ [change (r.slot r.oldest)] := by
  rw [spareAdvance (indexedModify h r.oldest change) some, spareModifyOldest h some]
  change _ ++ [(r.modifySlot r.oldest change).slot r.oldest] = _
  rw [slotModify h.filled, if_pos rfl]

end Ends

theorem roomOfFree {r : SlotRing n size} (h : r.Indexed) (free : r.free ≠ 0) :
    r.inFlight + 1 < n := by
  have := freeAddInFlight h
  have := h.filled
  omega

theorem enqueueOk {r r' : SlotRing n size} {data : Option Bytes} {length k : Nat} {tag : UInt64}
    (ok : r.enqueue data length tag = .ok (k, r')) :
    length ≤ size ∧ r.free ≠ 0 ∧ k = r.next ∧
      r' = (r.modifySlot r.next (·.load data length tag)).extend := by
  simp only [enqueue] at ok
  split at ok
  · contradiction
  · split at ok
    · contradiction
    · cases ok
      exact ⟨by omega, by assumption, rfl, rfl⟩

theorem preparedRest {r : SlotRing n size} (h : r.Indexed) (data : Bytes) :
    (r.prepare data).2.held = r.held ∧ (r.prepare data).2.oldest = r.oldest ∧
      (r.prepare data).2.base = r.base := by
  unfold prepare
  split
  · exact ⟨rfl, rfl, rfl⟩
  · exact ⟨heldModifyNext h _, rfl, rfl⟩

structure Drained (r : SlotRing n size) (count : Nat)
    (result : List Transmission × SlotRing n size) : Prop where
  indexed : result.2.Indexed
  base : result.2.base = r.base
  oldest : result.2.oldest = (r.oldest + count) % n
  next : result.2.next = r.next
  reports : result.1 = (r.held.take count).map Slot.transmission
  held : result.2.held = r.held.drop count
  spare : result.2.spare = r.spare ++ (r.held.take count).map Slot.release
  linked : r.Linked → result.2.Linked

theorem Drained.inFlight {r : SlotRing n size} {count : Nat}
    {result : List Transmission × SlotRing n size} (done : Drained r count result) :
    result.2.inFlight = r.inFlight - count := by
  rw [← heldLength, done.held, List.length_drop, heldLength]

theorem drainSucc (count : Nat) (r : SlotRing n size) :
    drain (count + 1) r =
      (r.reclaim.1 :: (drain count r.reclaim.2).1, (drain count r.reclaim.2).2) := rfl

theorem drained {r : SlotRing n size} (h : r.Indexed) {count : Nat}
    (enough : count ≤ r.inFlight) : Drained r count (drain count r) := by
  induction count generalizing r with
  | zero =>
    exact {
      indexed := h
      base := rfl
      oldest := (Nat.mod_eq_of_lt h.oldest).symm
      next := rfl
      reports := by simp [drain]
      held := rfl
      spare := by simp [drain]
      linked := id }
  | succ count ih =>
    -- the oldest slot is given back, the others are drained from the ring that this leaves
    have some : 0 < r.inFlight := by omega
    have modified := indexedModify h r.oldest Slot.release
    have fewer : r.reclaim.2.inFlight = r.inFlight - 1 := advanceInFlight modified some
    have rest := ih (r := r.reclaim.2) (advanceIndexed modified) (by omega)
    have heldRest : r.reclaim.2.held = r.held.tail := heldGive h Slot.release some
    have spareRest : r.reclaim.2.spare = r.spare ++ [(r.slot r.oldest).release] :=
      spareGive h Slot.release some
    have first := heldCons some
    exact {
      indexed := rest.indexed
      base := rest.base
      oldest := by
        rw [drainSucc, rest.oldest]
        exact afterAdd _ _
      next := rest.next
      reports := by
        rw [drainSucc, rest.reports, heldRest, first]
        rfl
      held := by
        rw [drainSucc, rest.held, heldRest, List.drop_tail]
      spare := by
        rw [drainSucc, rest.spare, heldRest, spareRest, first]
        simp
      linked := fun linked => rest.linked (linkedModify h.filled linked _ fun _ => rfl) }

theorem armedIndexed {r : SlotRing n size} (h : r.Indexed) : r.armNext.Indexed :=
  extendIndexed (indexedModify h _ _)

theorem linkedArm (filled : 0 < n) {r : SlotRing n size} (h : r.Linked) (i : Nat) :
    (r.arm i none).Linked := linkedModify filled h i fun _ => rfl

theorem recycleEq (r : SlotRing n size) :
    r.recycle = ((r.modifySlot r.oldest Slot.reset).advance.modifySlot r.next (·.arm none)).extend :=
  rfl

theorem recycleIndexed {r : SlotRing n size} (h : r.Indexed) : r.recycle.Indexed :=
  ⟨afterLt h.filled _, afterLt h.filled _⟩

theorem linkedRecycle (filled : 0 < n) {r : SlotRing n size} (h : r.Linked) :
    r.recycle.Linked := by
  have emptied : (r.modifySlot r.oldest Slot.reset).Linked := linkedModify filled h _ fun _ => rfl
  exact linkedArm filled emptied r.next

theorem recycleInFlight {r : SlotRing n size} (h : r.Indexed) : r.recycle.inFlight = r.inFlight := by
  have recycled := recycleIndexed h
  have here : (after n r.oldest + r.recycle.inFlight) % n = after n r.next :=
    nextPosition recycled
  have there : (after n r.oldest + r.inFlight) % n = after n r.next := by
    rw [afterAdd, ← nextPosition h, after, Nat.mod_add_mod]
    rfl
  exact positionInj (inFlightLt recycled) (inFlightLt h) (here.trans there.symm)

section Recycle

variable {r : SlotRing n size} (h : r.Indexed) (some : 0 < r.inFlight)
include h some

theorem givenInFlight : (r.modifySlot r.oldest Slot.reset).advance.inFlight = r.inFlight - 1 :=
  advanceInFlight (indexedModify h r.oldest Slot.reset) some

theorem recycleRoom : (r.modifySlot r.oldest Slot.reset).advance.inFlight + 1 < n := by
  have := inFlightLt h
  rw [givenInFlight h some]
  omega

theorem heldRecycle : r.recycle.held = r.held.tail ++ [(r.slot r.next).arm none] := by
  have given := advanceIndexed (indexedModify h r.oldest Slot.reset)
  have put := heldPut given (·.arm none) (recycleRoom h some)
  rw [heldGive h Slot.reset some] at put
  have low := inFlightLt h
  have apart : r.next % n ≠ r.oldest % n := heldOutside h some 0 (by omega)
  have gap : (r.modifySlot r.oldest Slot.reset).advance.slot r.next = r.slot r.next := by
    change (r.modifySlot r.oldest Slot.reset).slot r.next = _
    rw [slotModify h.filled, if_neg apart]
  rw [recycleEq, ← gap]
  exact put

theorem spareRecycle : r.recycle.spare = r.spare.tail ++ [(r.slot r.oldest).reset] := by
  have given := advanceIndexed (indexedModify h r.oldest Slot.reset)
  have put := sparePut given (·.arm none) (recycleRoom h some)
  rw [spareGive h Slot.reset some, spareCons h] at put
  rw [recycleEq, spareCons h]
  exact put

end Recycle

structure Collected (r : SlotRing n size) (count : Nat)
    (result : List Reception × SlotRing n size) : Prop where
  indexed : result.2.Indexed
  base : result.2.base = r.base
  oldest : result.2.oldest = (r.oldest + count) % n
  inFlight : result.2.inFlight = r.inFlight
  reports : result.1 = (r.held.take count).map Slot.reception
  held : result.2.held = r.held.drop count ++
    ((r.spare ++ (r.held.take count).map Slot.reset).take count).map (·.arm none)
  spare : result.2.spare = (r.spare ++ (r.held.take count).map Slot.reset).drop count
  linked : r.Linked → result.2.Linked

theorem collectSucc (count : Nat) (r : SlotRing n size) :
    collect (count + 1) r =
      ((r.slot r.oldest).reception :: (collect count r.recycle).1, (collect count r.recycle).2) :=
  rfl

theorem collected {r : SlotRing n size} (h : r.Indexed) {count : Nat}
    (enough : count ≤ r.inFlight) : Collected r count (collect count r) := by
  induction count generalizing r with
  | zero =>
    exact {
      indexed := h
      base := rfl
      oldest := (Nat.mod_eq_of_lt h.oldest).symm
      inFlight := rfl
      reports := by simp [collect]
      held := by simp [collect]
      spare := by simp [collect]
      linked := id }
  | succ count ih =>
    have some : 0 < r.inFlight := by omega
    have same := recycleInFlight h
    have rest := ih (recycleIndexed h) (by omega)
    have first := heldCons some
    have gap := spareCons h
    have length : count ≤ (r.window (r.oldest + 1) (r.inFlight - 1)).length := by
      rw [windowLength]
      omega
    -- the slots reported later were armed before, so recycling the first does not reach them
    have later : r.recycle.held.take count = r.held.tail.take count := by
      rw [heldRecycle h some, first, List.tail_cons, List.take_append_of_le_length length]
    have dropped : r.recycle.held.drop count =
        r.held.tail.drop count ++ [(r.slot r.next).arm none] := by
      rw [heldRecycle h some, first, List.tail_cons, List.drop_append_of_le_length length]
    exact {
      indexed := rest.indexed
      base := rest.base
      oldest := by
        rw [collectSucc, rest.oldest]
        exact afterAdd _ _
      inFlight := rest.inFlight.trans same
      reports := by
        rw [collectSucc, rest.reports, later, first]
        rfl
      held := by
        rw [collectSucc, rest.held, dropped, later, spareRecycle h some, first, gap]
        simp
      spare := by
        rw [collectSucc, rest.spare, later, spareRecycle h some, first, gap]
        simp
      linked := fun linked => rest.linked (linkedRecycle h.filled linked) }

theorem armedFewer {r : SlotRing n size} (h : r.Indexed) (some : 0 < r.free) : r.free = r.armNext.free + 1 := by
  have count : r.armNext.inFlight = r.inFlight + 1 :=
    putInFlight h (·.arm none) (roomOfFree h (by omega))
  have before := freeAddInFlight h
  have after := freeAddInFlight (armedIndexed h)
  omega

structure Filled (r filled : SlotRing n size) : Prop where
  indexed : filled.Indexed
  base : filled.base = r.base
  oldest : filled.oldest = r.oldest
  held : filled.held = r.held ++ (r.spare.take r.free).map (·.arm none)
  spare : filled.spare = r.spare.drop r.free
  linked : r.Linked → filled.Linked

theorem filledFull {r : SlotRing n size} (h : r.Indexed) (full : r.free = 0) : Filled r r :=
  ⟨h, rfl, rfl, by simp [full], by simp [full], id⟩

theorem fillWithinFilled {r : SlotRing n size} (h : r.Indexed) {rounds : Nat}
    (enough : r.free ≤ rounds) : Filled r (fillWithin rounds r) := by
  induction rounds generalizing r with
  | zero => exact filledFull h (by omega)
  | succ rounds ih =>
    rw [fillWithin]
    split
    · rename_i full
      exact filledFull h full
    · rename_i free
      have room := roomOfFree h free
      have fewer := armedFewer h (by omega)
      have rest := ih (armedIndexed h) (by omega)
      have held : r.armNext.held = r.held ++ [(r.slot r.next).arm none] := heldPut h _ room
      have spare : r.armNext.spare = r.spare.tail := sparePut h _ room
      have gap := spareCons h
      exact {
        indexed := rest.indexed
        base := rest.base
        oldest := rest.oldest
        held := by
          rw [rest.held, held, spare, fewer, gap]
          simp
        spare := by
          rw [rest.spare, spare, fewer, gap]
          simp
        linked := fun linked => rest.linked (linkedArm h.filled linked _) }

theorem fillFilled {r : SlotRing n size} (h : r.Indexed) : Filled r r.fill :=
  fillWithinFilled h (by have := freeAddInFlight h; omega)

theorem fillInFlight {r : SlotRing n size} (h : r.Indexed) : r.fill.inFlight = n - 1 := by
  have filled := fillFilled h
  have all := freeAddInFlight h
  have low := inFlightLt h
  rw [← heldLength, filled.held, List.length_append, List.length_map, List.length_take, heldLength,
    spareLength]
  omega

structure ArmsFree (r last : SlotRing n size) : Prop where
  armed : ∀ j < r.free, last.slot (r.next + j) = (r.slot (r.next + j)).arm none
  untouched : ∀ k, (∀ j < r.free, k % n ≠ (r.next + j) % n) → last.slot k = r.slot k

theorem armNextSlot (filled : 0 < n) (r : SlotRing n size) (k : Nat) :
    r.armNext.slot k = if k % n = r.next % n then (r.slot k).arm none else r.slot k :=
  slotModify filled r r.next k (·.arm none)

theorem nextApart {a j : Nat} (some : 0 < j) (turn : j < n) : (a + j) % n ≠ a % n := by
  intro same
  have zero : j = 0 := positionInj turn (by omega) (by simpa using same)
  omega

theorem armsRound {r : SlotRing n size} (h : r.Indexed) (some : 0 < r.free) {last : SlotRing n size}
    (rest : ArmsFree r.armNext last) : ArmsFree r last := by
  have fewer := armedFewer h some
  have all := freeAddInFlight h
  have filled := h.filled
  have later (j : Nat) : (r.armNext.next + j) % n = (r.next + (j + 1)) % n := afterAdd r.next j
  constructor
  · intro j low
    cases j with
    | zero =>
      rw [Nat.add_zero]
      have own : last.slot r.next = r.armNext.slot r.next := by
        refine rest.untouched _ fun j low same => ?_
        rw [later] at same
        exact nextApart (Nat.succ_pos j) (by omega) same.symm
      rw [own, armNextSlot filled, if_pos rfl]
    | succ j =>
      have armed := rest.armed j (by omega)
      rw [slotCongr last (later j), slotCongr r.armNext (later j), armNextSlot filled,
        if_neg (nextApart (Nat.succ_pos j) (by omega))] at armed
      exact armed
  · intro k outside
    have first : k % n ≠ r.next % n := outside 0 some
    have before : r.armNext.slot k = r.slot k := by
      rw [armNextSlot filled, if_neg first]
    rw [← before]
    refine rest.untouched k fun j low same => ?_
    rw [later] at same
    exact outside (j + 1) (by omega) same

theorem fillWithinArms {r : SlotRing n size} (h : r.Indexed) {rounds : Nat}
    (enough : r.free ≤ rounds) : ArmsFree r (fillWithin rounds r) := by
  have done {r : SlotRing n size} (none : r.free = 0) : ArmsFree r r :=
    ⟨fun j low => by omega, fun _ _ => rfl⟩
  induction rounds generalizing r with
  | zero => exact done (by omega)
  | succ rounds ih =>
    rw [fillWithin]
    split
    · rename_i none
      exact done none
    · rename_i free
      have some : 0 < r.free := by omega
      have fewer := armedFewer h some
      exact armsRound h some (ih (armedIndexed h) (by omega))

theorem fillArms {r : SlotRing n size} (h : r.Indexed) : ArmsFree r r.fill :=
  fillWithinArms h (by have := freeAddInFlight h; omega)

end SlotRing

end SerialAdapter
