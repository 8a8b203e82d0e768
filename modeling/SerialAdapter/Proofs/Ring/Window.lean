import SerialAdapter.Proofs.Ring.Address

/-! Positions in a ring, and its slots as two lists. The two indices are known only modulo the number of
slots, so positions are counted from `oldest`: position `k` is slot `oldest + k`, positions below
`inFlight` are taken, and an address stands for one position only. `held` are the armed slots,
oldest first; `spare` are the others, from the one that is armed next. Each operation on the ring is
an operation at an end of these lists, and after this module the slots are not indexed any more. -/
namespace SerialAdapter.SlotRing

variable {n size : Nat}

structure Indexed (r : SlotRing n size) : Prop where
  oldest : r.oldest < n
  next : r.next < n

theorem Indexed.filled {r : SlotRing n size} (h : r.Indexed) : 0 < n :=
  Nat.lt_of_le_of_lt (Nat.zero_le _) h.oldest

theorem wrapped {a b : Nat} (ha : a < n) (hb : b < n) :
    (a + b) % n = if a + b < n then a + b else a + b - n := by
  split
  · rename_i low
    exact Nat.mod_eq_of_lt low
  · rename_i high
    rw [Nat.mod_eq_sub_mod (by omega)]
    exact Nat.mod_eq_of_lt (by omega)

theorem afterLt (filled : 0 < n) (i : Nat) : after n i < n := Nat.mod_lt _ filled

theorem afterAdd (i k : Nat) : (after n i + k) % n = (i + (k + 1)) % n := by
  rw [after, Nat.mod_add_mod]
  congr 1
  omega

theorem inFlightEq {r : SlotRing n size} (h : r.Indexed) :
    r.inFlight = if r.oldest ≤ r.next then r.next - r.oldest else n + r.next - r.oldest := by
  have ho := h.oldest
  have hn := h.next
  unfold inFlight
  split
  · rename_i ordered
    have split : n + r.next - r.oldest = (r.next - r.oldest) + n := by omega
    rw [split, Nat.add_mod_right]
    exact Nat.mod_eq_of_lt (by omega)
  · exact Nat.mod_eq_of_lt (by omega)

theorem inFlightLt {r : SlotRing n size} (h : r.Indexed) : r.inFlight < n :=
  Nat.mod_lt _ h.filled

theorem freeAddInFlight {r : SlotRing n size} (h : r.Indexed) :
    r.free + r.inFlight = n - 1 := by
  have ho := h.oldest
  have hn := h.next
  rw [inFlightEq h]
  unfold free
  by_cases ordered : r.oldest ≤ r.next
  · rw [if_pos ordered, Nat.mod_eq_of_lt (by omega)]
    omega
  · have split : n + r.oldest - r.next - 1 = (r.oldest - r.next - 1) + n := by omega
    rw [if_neg ordered, split, Nat.add_mod_right, Nat.mod_eq_of_lt (by omega)]
    omega

theorem nextPosition {r : SlotRing n size} (h : r.Indexed) :
    (r.oldest + r.inFlight) % n = r.next := by
  have ho := h.oldest
  have hn := h.next
  rw [wrapped ho (inFlightLt h), inFlightEq h]
  split <;> split <;> omega

theorem positionInj {s j k : Nat} (hj : j < n) (hk : k < n) (same : (s + j) % n = (s + k) % n) :
    j = k := by
  have filled : 0 < n := Nat.lt_of_le_of_lt (Nat.zero_le _) hj
  have start := Nat.mod_lt s filled
  rw [← Nat.mod_add_mod, ← Nat.mod_add_mod s n k, wrapped start hj, wrapped start hk] at same
  split at same <;> split at same <;> omega

theorem positionOf {r : SlotRing n size} (h : r.Indexed) {i : Nat} (hi : i < n) :
    (r.oldest + (n + i - r.oldest) % n) % n = i := by
  have moved : ({ r with next := i } : SlotRing n size).Indexed := ⟨h.oldest, hi⟩
  exact nextPosition moved

theorem advanceInFlight {r : SlotRing n size} (h : r.Indexed) (some : 0 < r.inFlight) :
    r.advance.inFlight = r.inFlight - 1 := by
  have moved : r.advance.Indexed := ⟨afterLt h.filled _, h.next⟩
  have low := inFlightLt moved
  have old := inFlightLt h
  -- both sides lead from the new `oldest` to `next`
  have here : (r.advance.oldest + r.advance.inFlight) % n = r.next := nextPosition moved
  have there : (r.advance.oldest + (r.inFlight - 1)) % n = r.next := by
    rw [← nextPosition h]
    change (after n r.oldest + _) % n = _
    rw [afterAdd]
    congr 2
    omega
  exact positionInj low (by omega) (here.trans there.symm)

theorem extendInFlight {r : SlotRing n size} (h : r.Indexed) (room : r.inFlight + 1 < n) :
    r.extend.inFlight = r.inFlight + 1 := by
  have moved : r.extend.Indexed := ⟨h.oldest, afterLt h.filled _⟩
  have here : (r.oldest + r.extend.inFlight) % n = after n r.next := nextPosition moved
  have there : (r.oldest + (r.inFlight + 1)) % n = after n r.next := by
    rw [← nextPosition h, after, Nat.mod_add_mod]
    congr 1
  exact positionInj (inFlightLt moved) room (here.trans there.symm)

theorem advanceIndexed {r : SlotRing n size} (h : r.Indexed) : r.advance.Indexed :=
  ⟨afterLt h.filled _, h.next⟩

theorem extendIndexed {r : SlotRing n size} (h : r.Indexed) : r.extend.Indexed :=
  ⟨h.oldest, afterLt h.filled _⟩

theorem completedLe (r : SlotRing n size) (a : UInt32) : r.completed a ≤ r.inFlight := by
  unfold completed
  split
  · exact Nat.min_le_right _ _
  · exact Nat.zero_le _

theorem completedAtPosition (fits : 16 * n ≤ 2 ^ 32) {r : SlotRing n size} (h : r.Indexed)
    {k : Nat} (taken : k ≤ r.inFlight) : r.completed (r.address (r.oldest + k)) = k := by
  have low := inFlightLt h
  have slot := Nat.mod_lt (r.oldest + k) h.filled
  have distance : (n + (r.oldest + k) % n - r.oldest) % n = k :=
    positionInj (Nat.mod_lt _ h.filled) (by omega) (positionOf h slot)
  simp only [completed, slotAtAddress fits h.filled, distance, Nat.min_eq_left taken]

def window (r : SlotRing n size) (start count : Nat) : List (Slot size) :=
  (List.range count).map fun k => r.slot (start + k)

def held (r : SlotRing n size) : List (Slot size) := r.window r.oldest r.inFlight

def spare (r : SlotRing n size) : List (Slot size) := r.window r.next (n - r.inFlight)

theorem slotCongr (r : SlotRing n size) {i j : Nat} (same : i % n = j % n) :
    r.slot i = r.slot j := by
  simp only [slot, same]

theorem windowLength (r : SlotRing n size) (start count : Nat) :
    (r.window start count).length = count := by
  simp [window]

theorem windowAdd (r : SlotRing n size) (start a b : Nat) :
    r.window start (a + b) = r.window start a ++ r.window (start + a) b := by
  simp only [window, List.range_add, List.map_append, List.map_map, Function.comp_def,
    Nat.add_assoc]

theorem windowDrop (r : SlotRing n size) (start : Nat) {count k : Nat} (low : k ≤ count) :
    (r.window start count).drop k = r.window (start + k) (count - k) := by
  have whole := windowAdd r start k (count - k)
  rw [Nat.add_sub_cancel' low] at whole
  rw [whole, List.drop_left' (windowLength r start k)]

theorem windowOne (r : SlotRing n size) (start : Nat) : r.window start 1 = [r.slot start] := rfl

theorem windowSucc (r : SlotRing n size) (start count : Nat) :
    r.window start (count + 1) = r.slot start :: r.window (start + 1) count := by
  rw [Nat.add_comm, windowAdd, windowOne]
  rfl

theorem windowGet (r : SlotRing n size) (start : Nat) {count k : Nat} (low : k < count) :
    (r.window start count)[k]? = some (r.slot (start + k)) := by
  simp [window, low]

theorem windowCongr {r r' : SlotRing n size} {s s' count : Nat} (start : s % n = s' % n)
    (same : ∀ k, k < count → r.slot (s + k) = r'.slot (s + k)) :
    r.window s count = r'.window s' count := by
  refine List.map_congr_left fun k low => ?_
  rw [same k (List.mem_range.mp low)]
  refine slotCongr r' ?_
  rw [← Nat.mod_add_mod, start, Nat.mod_add_mod]

theorem windowMod (r : SlotRing n size) (s count : Nat) :
    r.window (s % n) count = r.window s count :=
  windowCongr (Nat.mod_mod s n) fun _ _ => rfl

theorem windowOutside (filled : 0 < n) (r : SlotRing n size) (change : Slot size → Slot size)
    {s i count : Nat} (outside : ∀ k, k < count → (s + k) % n ≠ i % n) :
    (r.modifySlot i change).window s count = r.window s count := by
  refine windowCongr rfl fun k low => ?_
  rw [slotModify filled, if_neg (outside k low)]

theorem pastWindow {s j count k : Nat} (past : count ≤ j) (turn : j < n) (low : k < count) :
    (s + k) % n ≠ (s + j) % n := by
  intro same
  have := positionInj (by omega) turn same
  omega

theorem windowModifyStart (filled : 0 < n) (r : SlotRing n size) (change : Slot size → Slot size)
    {s count : Nat} (turn : count + 1 ≤ n) :
    (r.modifySlot s change).window s (count + 1) =
      change (r.slot s) :: r.window (s + 1) count := by
  have outside : ∀ k, k < count → (s + 1 + k) % n ≠ s % n := by
    intro k low same
    rw [Nat.add_assoc] at same
    have := positionInj (s := s) (k := 0) (by omega) filled same
    omega
  rw [windowSucc, slotModify filled, if_pos rfl, windowOutside filled r change outside]

theorem windowModify (filled : 0 < n) (r : SlotRing n size) (change : Slot size → Slot size)
    {s j count : Nat} (inside : j < count) (turn : count ≤ n) :
    (r.modifySlot (s + j) change).window s count = (r.window s count).modify j change := by
  refine List.ext_getElem? fun k => ?_
  rw [List.getElem?_modify]
  by_cases low : k < count
  · rw [windowGet _ _ low, windowGet _ _ low, slotModify filled]
    by_cases here : j = k
    · simp [here]
    · have apart : (s + k) % n ≠ (s + j) % n := fun same =>
        here (positionInj (by omega) (by omega) same).symm
      simp [here, apart]
  · have short (r : SlotRing n size) : (r.window s count)[k]? = none := by
      simp only [List.getElem?_eq_none_iff, windowLength]
      omega
    rw [short, short]
    rfl

theorem heldLength (r : SlotRing n size) : r.held.length = r.inFlight := windowLength _ _ _

theorem spareLength (r : SlotRing n size) : r.spare.length = n - r.inFlight := windowLength _ _ _

theorem freeEq {r : SlotRing n size} (h : r.Indexed) : r.free = n - 1 - r.held.length := by
  have := freeAddInFlight h
  rw [heldLength]
  omega

theorem heldGet (r : SlotRing n size) {k : Nat} (low : k < r.inFlight) :
    r.held[k]? = some (r.slot (r.oldest + k)) := windowGet _ _ low

theorem heldEmpty {r : SlotRing n size} (none : r.inFlight = 0) : r.held = [] := by
  simp [held, window, none]

theorem heldCons {r : SlotRing n size} (some : 0 < r.inFlight) :
    r.held = r.slot r.oldest :: r.window (r.oldest + 1) (r.inFlight - 1) := by
  obtain ⟨m, count⟩ : ∃ m, r.inFlight = m + 1 := ⟨r.inFlight - 1, by omega⟩
  rw [held, count, windowSucc]
  rfl

theorem spareCons {r : SlotRing n size} (h : r.Indexed) :
    r.spare = r.slot r.next :: r.window (r.next + 1) (n - r.inFlight - 1) := by
  have low := inFlightLt h
  obtain ⟨m, count⟩ : ∃ m, n - r.inFlight = m + 1 := ⟨n - r.inFlight - 1, by omega⟩
  rw [spare, count, windowSucc]
  rfl

theorem heldSpare {r : SlotRing n size} (h : r.Indexed) :
    r.held ++ r.spare = r.window r.oldest n := by
  have low := inFlightLt h
  have gap : r.spare = r.window (r.oldest + r.inFlight) (n - r.inFlight) := by
    rw [spare, ← nextPosition h, windowMod]
  rw [gap, held, ← windowAdd]
  congr 1
  omega

theorem nextOutside {r : SlotRing n size} (h : r.Indexed) :
    ∀ k, k < r.inFlight → (r.oldest + k) % n ≠ r.next % n := by
  intro k low
  rw [Nat.mod_eq_of_lt h.next, ← nextPosition h]
  exact pastWindow (Nat.le_refl _) (inFlightLt h) low

theorem heldOutside {r : SlotRing n size} (h : r.Indexed) {k : Nat} (taken : k < r.inFlight) :
    ∀ j, j < n - r.inFlight → (r.next + j) % n ≠ (r.oldest + k) % n := by
  intro j low same
  rw [← nextPosition h, Nat.mod_add_mod, Nat.add_assoc] at same
  have := positionInj (by omega) (by omega) same
  omega

theorem heldModifyNext {r : SlotRing n size} (h : r.Indexed) (change : Slot size → Slot size) :
    (r.modifySlot r.next change).held = r.held := by
  have same : (r.modifySlot r.next change).window r.oldest r.inFlight = r.held :=
    windowOutside h.filled r change (nextOutside h)
  exact same

theorem spareModifyNext {r : SlotRing n size} (h : r.Indexed) (change : Slot size → Slot size) :
    (r.modifySlot r.next change).spare = change (r.slot r.next) :: r.spare.tail := by
  have low := inFlightLt h
  obtain ⟨m, count⟩ : ∃ m, n - r.inFlight = m + 1 := ⟨n - r.inFlight - 1, by omega⟩
  have same : (r.modifySlot r.next change).window r.next (m + 1) = _ :=
    windowModifyStart h.filled r change (by omega)
  rw [spareCons h, List.tail_cons, count, Nat.add_sub_cancel, ← same, ← count]
  rfl

theorem heldExtend {r : SlotRing n size} (h : r.Indexed) (room : r.inFlight + 1 < n) :
    r.extend.held = r.held ++ [r.slot r.next] := by
  change r.window r.oldest r.extend.inFlight = _
  rw [extendInFlight h room, windowAdd, windowOne, held]
  congr 2
  exact slotCongr r (by rw [nextPosition h, Nat.mod_eq_of_lt h.next])

theorem spareExtend {r : SlotRing n size} (h : r.Indexed) (room : r.inFlight + 1 < n) :
    r.extend.spare = r.spare.tail := by
  rw [spareCons h, List.tail_cons]
  change r.window (after n r.next) (n - r.extend.inFlight) = _
  rw [extendInFlight h room, after, windowMod, Nat.sub_sub]

theorem heldAdvance {r : SlotRing n size} (h : r.Indexed) (some : 0 < r.inFlight) :
    r.advance.held = r.held.tail := by
  rw [heldCons some, List.tail_cons]
  change r.window (after n r.oldest) r.advance.inFlight = _
  rw [advanceInFlight h some, after, windowMod]

theorem spareAdvance {r : SlotRing n size} (h : r.Indexed) (some : 0 < r.inFlight) :
    r.advance.spare = r.spare ++ [r.slot r.oldest] := by
  have low := inFlightLt h
  change r.window r.next (n - r.advance.inFlight) = _
  rw [advanceInFlight h some]
  have more : n - (r.inFlight - 1) = (n - r.inFlight) + 1 := by omega
  rw [more, windowAdd, windowOne, spare]
  congr 2
  refine slotCongr r ?_
  rw [← nextPosition h, Nat.mod_add_mod]
  have turn : r.oldest + r.inFlight + (n - r.inFlight) = r.oldest + n := by omega
  rw [turn, Nat.add_mod_right]

theorem heldModifyOldest {r : SlotRing n size} (h : r.Indexed) (some : 0 < r.inFlight)
    (change : Slot size → Slot size) :
    (r.modifySlot r.oldest change).held = change (r.slot r.oldest) :: r.held.tail := by
  have low := inFlightLt h
  obtain ⟨m, count⟩ : ∃ m, r.inFlight = m + 1 := ⟨r.inFlight - 1, by omega⟩
  have same : (r.modifySlot r.oldest change).window r.oldest (m + 1) = _ :=
    windowModifyStart h.filled r change (by omega)
  rw [heldCons some, List.tail_cons, count, Nat.add_sub_cancel, ← same, ← count]
  rfl

theorem spareModify {r : SlotRing n size} (h : r.Indexed) {k : Nat} (low : k < r.inFlight)
    (change : Slot size → Slot size) :
    (r.modifySlot (r.oldest + k) change).spare = r.spare := by
  have same : (r.modifySlot (r.oldest + k) change).window r.next (n - r.inFlight) = r.spare :=
    windowOutside h.filled r change (heldOutside h low)
  exact same

theorem spareModifyOldest {r : SlotRing n size} (h : r.Indexed) (some : 0 < r.inFlight)
    (change : Slot size → Slot size) :
    (r.modifySlot r.oldest change).spare = r.spare := spareModify h some change

theorem heldModify {r : SlotRing n size} (h : r.Indexed) {k : Nat} (low : k < r.inFlight)
    (change : Slot size → Slot size) :
    (r.modifySlot (r.oldest + k) change).held = r.held.modify k change := by
  have same : (r.modifySlot (r.oldest + k) change).window r.oldest r.inFlight = _ :=
    windowModify h.filled r change low (Nat.le_of_lt (inFlightLt h))
  exact same

theorem heldModifyTake {r : SlotRing n size} (h : r.Indexed) {k : Nat} (low : k < r.inFlight)
    (change : Slot size → Slot size) :
    (r.modifySlot (r.oldest + k) change).held.take k = r.held.take k := by
  rw [heldModify h low, List.take_modify]
  refine List.modify_eq_self ?_
  rw [List.length_take]
  exact Nat.min_le_left _ _

end SerialAdapter.SlotRing
