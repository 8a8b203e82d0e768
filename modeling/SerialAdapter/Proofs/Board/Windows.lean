import SerialAdapter.Proofs.Board.Lane
import SerialAdapter.Proofs.Transmit.Cargo

/-! The three windows of a ring. From the oldest slot to the controller lie those that it finished and
nobody reported, from the controller to its stop address those that are armed, and the rest is free.
The armed window is the controller's alone: what the driver does to a ring happens behind it or in
front of it, and moves the stop address forward only. What a receive controller did not write yet is
empty, and so is every slot that is not armed: a slot is emptied when it is handed over, and nobody
writes to it in between. -/
namespace SerialAdapter

variable {c n size : Nat}

structure Lane.Vacant (l : Lane n size) : Prop where
  armed : l.on = true →
    ∀ s ∈ l.ring.held.drop (l.ring.completed l.control.current), s.Cleared
  spare : ∀ s ∈ l.ring.spare, s.Cleared

section Steps

variable {l l' : Lane n size} {sent : List (Slot size)} {k : Nat}

theorem vacantCut (filled : 0 < n) (step : ReceiveStep l true sent l') : l'.Vacant := by
  have empty := resetSpareCleared filled l.ring
  cases step with
  | switched on =>
    cases on with
    | false => exact ⟨fun on => by contradiction, empty⟩
    | true =>
      have fill := SlotRing.fillFilled (SlotRing.indexedReset filled l.ring)
      refine ⟨fun _ s shown => ?_, fun s shown => ?_⟩
      · have shown : s ∈ l.ring.reset.fill.held := List.mem_of_mem_drop shown
        rw [fill.held, SlotRing.heldReset, List.nil_append] at shown
        obtain ⟨old, -, rfl⟩ := List.mem_map.mp shown
        exact emptyArmCleared old
      · have shown : s ∈ l.ring.reset.fill.spare := shown
        rw [fill.spare] at shown
        exact empty s (List.mem_of_mem_drop shown)

theorem collectedVacant (stands : l.Stands k) (h : l.Vacant) (on : l.on = true)
    (position : l.ring.completed l.control.current = k) :
    (∀ s ∈ (SlotRing.collect k l.ring).2.held, s.Cleared) ∧
      ∀ s ∈ (SlotRing.collect k l.ring).2.spare, s.Cleared := by
  have done := SlotRing.collected stands.indexed stands.within
  have armed := h.armed on
  rw [position] at armed
  refine ⟨fun s shown => ?_, fun s shown => ?_⟩
  · rw [done.held] at shown
    rcases List.mem_append.mp shown with old | new
    · exact armed s old
    · obtain ⟨old, -, rfl⟩ := List.mem_map.mp new
      exact emptyArmCleared old
  · rw [done.spare] at shown
    rcases List.mem_append.mp (List.mem_of_mem_drop shown) with old | given
    · exact h.spare s old
    · obtain ⟨old, -, rfl⟩ := List.mem_map.mp given
      exact resetCleared old

theorem filledVacant (fits : 16 * n ≤ 2 ^ 32) (stands : l.Stands k) (linked : l.ring.Linked)
    (h : l.Vacant) (on : l.on = true) (more : k < l.ring.inFlight)
    (change : Slot size → Slot size)
    (keeps : ∀ s, (change s).descriptor.chain = s.descriptor.chain) :
    let ring := l.ring.modifySlot (l.ring.oldest + k) change
    ({ l with ring := ring }.stand
      (ring.slot (l.ring.oldest + k)).descriptor.chain).Vacant := by
  intro ring
  have indexed : ring.Indexed := SlotRing.indexedModify stands.indexed _ _
  have next : (ring.slot (l.ring.oldest + k)).descriptor.chain = ring.address (ring.oldest + (k + 1)) :=
    SlotRing.linkedModify stands.indexed.filled linked _ keeps _
  have armed := h.armed on
  rw [stands.completed fits on] at armed
  refine ⟨fun _ s shown => armed s ?_, fun s shown => h.spare s ?_⟩
  · change s ∈ ring.held.drop (ring.completed (ring.slot (l.ring.oldest + k)).descriptor.chain)
      at shown
    rw [next, SlotRing.completedAtPosition fits indexed (by exact more),
      SlotRing.heldModify stands.indexed more, List.drop_modify_of_lt _ _ _ _ (Nat.lt_add_one k),
      ← List.drop_drop] at shown
    exact List.mem_of_mem_drop shown
  · exact SlotRing.spareModify stands.indexed more change ▸ shown

theorem vacantStep (fits : 16 * n ≤ 2 ^ 32) (stands : l.Stands k) (linked : l.ring.Linked)
    (h : l.Vacant) (step : ReceiveStep l false sent l') : l'.Vacant := by
  cases step with
  | still => exact h
  | @collected s on fine =>
    have position := stands.completed fits on
    obtain ⟨held, spare⟩ := collectedVacant stands h on position
    have ring : Duplex.receiveRing l.ring s l.control.current = (SlotRing.collect k l.ring).2 := by
      rw [Duplex.receiveRing, fine, position]
      rfl
    rw [ring]
    exact ⟨fun _ s shown => held s (List.mem_of_mem_drop shown), spare⟩
  | @filled j ring running there frame length status changed =>
    obtain ⟨on, more⟩ := stands.moving running
    have place := stands.slot fits on there
    have same : l.ring.modifySlot j (·.complete frame length status) =
        l.ring.modifySlot (l.ring.oldest + k) (·.complete frame length status) := by
      simp only [SlotRing.modifySlot, place, Nat.mod_mod]
    have slot : ring.slot j = ring.slot (l.ring.oldest + k) :=
      SlotRing.slotCongr ring (by rw [place, Nat.mod_mod])
    rw [slot, changed, same]
    exact filledVacant fits stands linked h on more _ fun _ => rfl

end Steps

section Runs

variable {b : Board c n size} (i : Fin c)

structure VacancyAccount (recent : List (Entry (Board c n size) (Move c))) (b : Board c n size) :
    Prop where
  books : BoardReceiveBooks i b (recent.flatMap (·.written i)) (recent.flatMap (·.outcomes i))
  vacant : (b.lane i .receive).Vacant

theorem vacancyAccount {setup : BoardSetup c} {place : Nat → Direction → Placement}
    (fits : 16 * n ≤ 2 ^ 32) (plain : b.registers.wiring.Plain i .receive)
    (up : (Board.init setup place b).answer = .ok ()) (moves : List (Move c)) :
    VacancyAccount i (receiveEpoch i (history Board.move (Board.init setup place b).state moves))
      (run Board.move (Board.init setup place b).state moves) := by
  obtain ⟨-, -, few, filled, -, -⟩ := initAccepted up
  have some : 0 < n := by omega
  refine startKeeps (P := VacancyAccount i) _ i .receive plain up ?_ ?_ ?_ moves
  · intro plain fresh
    obtain ⟨old, -, ring⟩ := fresh.ring
    have off : ((Board.init setup place b).state.lane i .receive).on = false := fresh.enabled
    have ring : ((Board.init setup place b).state.lane i .receive).ring = old.reset := ring
    refine ⟨ReceiveBooks.fresh some plain fresh, fun on => ?_, ?_⟩
    · rw [off] at on
      contradiction
    · rw [ring]
      exact resetSpareCleared some old
  · rintro h b m up plain ⟨books, -⟩ cut
    have step := receiveMoves few up plain m
    rw [cut] at step
    exact ⟨(receiveEntered few fits up plain books m).cut cut, vacantCut some step⟩
  · rintro h b m up plain ⟨books, vacant⟩ uncut
    have step := receiveMoves few up plain m
    have stands := receiveStands (l := b.lane i .receive) books
    rw [uncut] at step
    refine ⟨?_, vacantStep fits stands books.linked vacant step⟩
    simp only [List.flatMap_append, List.flatMap_singleton]
    exact (receiveEntered few fits up plain books m).books uncut

end Runs

def Lane.armed (l : Lane n size) : List (Slot size) :=
  match l.ring.slotAt? l.control.current, l.ring.slotAt? l.control.stop with
  | some first, some last => l.ring.window first ((n + last - first) % n)
  | _, _ => []

theorem armedHeld (fits : 16 * n ≤ 2 ^ 32) {l : Lane n size} {k : Nat} (h : l.Stands k)
    (on : l.on = true) : l.armed = l.ring.held.drop k := by
  have filled := h.indexed.filled
  have within := h.within
  have turn := SlotRing.inFlightLt h.indexed
  have first := Nat.mod_lt (l.ring.oldest + k) filled
  have count : (n + l.ring.next - (l.ring.oldest + k) % n) % n = l.ring.inFlight - k := by
    have reached : ((l.ring.oldest + k) % n + (n + l.ring.next - (l.ring.oldest + k) % n) % n) % n =
        l.ring.next :=
      SlotRing.positionOf (r := { l.ring with oldest := (l.ring.oldest + k) % n })
        ⟨first, h.indexed.next⟩ h.indexed.next
    have there : ((l.ring.oldest + k) % n + (l.ring.inFlight - k)) % n = l.ring.next := by
      rw [Nat.mod_add_mod, Nat.add_assoc, Nat.add_sub_cancel' within,
        SlotRing.nextPosition h.indexed]
    exact SlotRing.positionInj (Nat.mod_lt _ filled) (by omega) (reached.trans there.symm)
  rw [Lane.armed, h.current on, h.stop on, SlotRing.slotAtAddress fits filled,
    SlotRing.slotAtAddress fits filled, Nat.mod_eq_of_lt h.indexed.next]
  dsimp only
  rw [count, SlotRing.windowMod, SlotRing.held, SlotRing.windowDrop _ _ within]

structure Lane.HandsOff (l l' : Lane n size) : Prop where
  current : l'.control.current = l.control.current
  base : l'.ring.base = l.ring.base
  armed : l.armed <+: l'.armed

section Steps

variable {l l' : Lane n size} {k k' : Nat} (fits : 16 * n ≤ 2 ^ 32) (on : l.on = true)
  (stands : l.Stands k) (stands' : l'.Stands k')
include fits on stands stands'

-- the same address is position `k` before and position `j` after
theorem handsOffAt {j : Nat} (on' : l'.on = true) (low : j ≤ l'.ring.inFlight)
    (current : l'.control.current = l.control.current) (base : l'.ring.base = l.ring.base)
    (place : (l'.ring.oldest + j) % n = (l.ring.oldest + k) % n)
    (slots : l.ring.held.drop k <+: l'.ring.held.drop j) : l.HandsOff l' := by
  have here : l'.control.current = l'.ring.address (l'.ring.oldest + j) := by
    rw [current, stands.current on, ← SlotRing.addressBase base]
    exact SlotRing.addressCongr l'.ring place.symm
  have same := stands'.completed fits on'
  rw [here, SlotRing.completedAtPosition fits stands'.indexed low] at same
  refine ⟨current, base, ?_⟩
  rw [armedHeld fits stands on, armedHeld fits stands' on', ← same]
  exact slots

theorem transmitHandsOff {loads : List Bytes} (step : TransmitStep l false loads [] l') :
    l.HandsOff l' := by
  have indexed := stands.indexed
  have within := stands.within
  cases step with
  | still => exact ⟨rfl, rfl, List.prefix_rfl⟩
  | @taken data length _ tag _ _ whole ok =>
    obtain ⟨-, free, -, rfl⟩ := SlotRing.enqueueOk ok
    have room := SlotRing.roomOfFree indexed free
    have put := SlotRing.heldPut indexed (·.load data length tag) room
    have more := SlotRing.putInFlight indexed (·.load data length tag) room
    refine handsOffAt fits on stands stands' on (j := k) (by dsimp only; omega) rfl rfl rfl ?_
    dsimp only
    rw [put, List.drop_append_of_le_length (by rw [SlotRing.heldLength]; exact within)]
    exact List.prefix_append _ _
  | prepared data =>
    obtain ⟨held, oldest, base⟩ := SlotRing.preparedRest indexed data
    have low := congrArg List.length held
    rw [SlotRing.heldLength, SlotRing.heldLength] at low
    have same : (l.ring.prepare data).2.held.drop k = l.ring.held.drop k := by rw [held]
    refine handsOffAt fits on stands stands' on (j := k) (by dsimp only; omega) rfl base ?_ ?_
    · dsimp only
      rw [oldest]
    · exact same ▸ List.prefix_rfl
  | drained _ =>
    rw [stands.completed fits on] at stands' ⊢
    have done := SlotRing.drained indexed within
    refine handsOffAt fits on stands stands' on (Nat.zero_le _) rfl done.base ?_ ?_
    · dsimp only
      rw [done.oldest, Nat.add_zero, Nat.mod_mod]
    · dsimp only
      rw [done.held]
      exact List.prefix_rfl

theorem receiveHandsOff (step : ReceiveStep l false [] l') : l.HandsOff l' := by
  have indexed := stands.indexed
  have within := stands.within
  cases step with
  | still => exact ⟨rfl, rfl, List.prefix_rfl⟩
  | @collected s _ fine =>
    have done := SlotRing.collected indexed within
    have ring : Duplex.receiveRing l.ring s l.control.current = (SlotRing.collect k l.ring).2 := by
      rw [Duplex.receiveRing, fine, stands.completed fits on]
      rfl
    have current : (Duplex.receiveControl l.ring s l.control).current = l.control.current := by
      simp only [Duplex.receiveControl, fine, Bool.false_eq_true, ↓reduceIte]
      split <;> rfl
    rw [ring] at stands' ⊢
    refine handsOffAt fits on stands stands' on (Nat.zero_le _) current done.base ?_ ?_
    · dsimp only
      rw [done.oldest, Nat.add_zero, Nat.mod_mod]
    · dsimp only
      rw [done.held]
      exact List.prefix_append _ _

end Steps

namespace Entry

def startsOver (i : Fin c) (d : Direction) (e : Entry (Board c n size) (Move c)) : Bool :=
  match d with
  | .receive => e.restarts i
  | .transmit => e.switches i .transmit

def handled (i : Fin c) (d : Direction) (e : Entry (Board c n size) (Move c)) :
    List (Slot size) :=
  match d with
  | .receive => e.written i
  | .transmit => e.processed i

def told (i : Fin c) (d : Direction) (e : Entry (Board c n size) (Move c)) : Nat :=
  match d with
  | .receive => (e.outcomes i).length
  | .transmit => (e.reported i).length

end Entry

section Runs

variable (i : Fin c)

abbrev laneEpoch (d : Direction) (h : List (Entry (Board c n size) (Move c))) :
    List (Entry (Board c n size) (Move c)) := epoch (·.startsOver i d) h

def Ready (d : Direction) (recent : List (Entry (Board c n size) (Move c)))
    (slots : List (Slot size)) : Prop :=
  match d with
  | .receive => ∀ s ∈ slots, s.Cleared
  | .transmit => List.Forall₂ Slot.Carries slots
      ((recent.flatMap (·.loaded i)).drop (recent.flatMap (·.processed i)).length)

structure Partition (d : Direction) (recent : List (Entry (Board c n size) (Move c)))
    (l : Lane n size) (k : Nat) : Prop where
  within : k ≤ l.ring.inFlight
  current : l.control.current = l.ring.address (l.ring.oldest + k)
  stop : l.control.stop = l.ring.address l.ring.next
  finished : l.ring.held.take k =
    (recent.flatMap (·.handled i d)).drop (recent.map (·.told i d)).sum
  armed : l.armed = l.ring.held.drop k
  ready : Ready i d recent l.armed
  free : ∀ s ∈ l.ring.spare, s.Cleared

variable {b : Board c n size} {recent : List (Entry (Board c n size) (Move c))}
  (fits : 16 * n ≤ 2 ^ 32)
include fits

theorem transmitPartition (account : CargoAccount i recent b)
    (on : (b.lane i .transmit).on = true) : ∃ k, Partition i .transmit recent
      (b.lane i .transmit) k := by
  have stands := account.stands
  have cargo := account.cargo
  have counts : (recent.map (·.told i .transmit)).sum =
      (recent.flatMap (·.reported i)).length := by simp [Entry.told, List.length_flatMap]
  have armed := armedHeld fits stands on
  refine ⟨_, stands.within, stands.current on, stands.stop on, ?_, armed, ?_, cargo.spare⟩
  · rw [counts]
    exact cargo.oldest
  · have rest := List.forall₂_drop ((recent.flatMap (·.processed i)).length -
      (recent.flatMap (·.reported i)).length) cargo.held
    rw [List.drop_drop, Nat.add_sub_cancel' cargo.order] at rest
    rw [armed]
    exact rest

theorem receivePartition (account : VacancyAccount i recent b)
    (on : (b.lane i .receive).on = true) : ∃ k, Partition i .receive recent
      (b.lane i .receive) k := by
  have stands := receiveStands (l := b.lane i .receive) account.books
  have counts : (recent.map (·.told i .receive)).sum =
      (recent.flatMap (·.outcomes i)).length := by simp [Entry.told, List.length_flatMap]
  have armed := armedHeld fits stands on
  have vacant := account.vacant.armed on
  rw [stands.completed fits on] at vacant
  refine ⟨_, stands.within, stands.current on, stands.stop on, ?_, armed, ?_, account.vacant.spare⟩
  · rw [counts]
    exact (account.books.armed on).oldest
  · rw [armed]
    exact vacant

/-- While a direction is on its ring is in three windows, and the one between the controller and its
stop address is left alone by every move but the controller's own. -/
theorem windowsKept {setup : BoardSetup c} {place : Nat → Direction → Placement} (d : Direction)
    (plain : b.registers.wiring.Plain i d) (up : (Board.init setup place b).answer = .ok ())
    (moves : List (Move c)) :
    let start := (Board.init setup place b).state
    let now := run Board.move start moves
    (now.channel i).isEnabled d = true →
      (∃ k, Partition i d (laneEpoch i d (history Board.move start moves)) (now.lane i d) k) ∧
      ∀ m : Move c, Entry.startsOver i d ⟨now, m⟩ = false → Entry.handled i d ⟨now, m⟩ = [] →
        (now.lane i d).HandsOff ((now.move m).lane i d) := by
  intro start now on
  obtain ⟨-, -, few, -, -, -⟩ := initAccepted up
  obtain ⟨initialized, still⟩ := startStays i d plain up moves
  have after (m : Move c) : run Board.move start (moves ++ [m]) = now.move m :=
    runSnoc Board.move start moves m
  cases d with
  | transmit =>
    have account := cargoAccount i fits plain up moves
    refine ⟨transmitPartition i fits account on, fun m uncut idle => ?_⟩
    have next := cargoAccount i fits plain up (moves ++ [m])
    rw [after] at next
    have uncut : Entry.switches i .transmit ⟨now, m⟩ = false := uncut
    have idle : Entry.processed i ⟨now, m⟩ = [] := idle
    have step := transmitMoves few initialized still m
    rw [uncut, idle] at step
    exact transmitHandsOff fits on account.stands next.stands step
  | receive =>
    have account := vacancyAccount i fits plain up moves
    refine ⟨receivePartition i fits account on, fun m uncut idle => ?_⟩
    have next := vacancyAccount i fits plain up (moves ++ [m])
    rw [after] at next
    have uncut : Entry.restarts i ⟨now, m⟩ = false := uncut
    have idle : Entry.written i ⟨now, m⟩ = [] := idle
    have step := receiveMoves few initialized still m
    rw [uncut, idle] at step
    have stands := receiveStands (l := now.lane i .receive) account.books
    have stands' := receiveStands (l := (now.move m).lane i .receive) next.books
    exact receiveHandsOff fits on stands stands' step

end Runs

theorem serviceExtendsWindow :
    let b : Board 1 4 4 := { registers := .blank (Wiring.board 1) }
    let place := Placement.regular 0 64 4
    let start := (Board.init {} place b).state
    let moves : List (Move 1) := [.call (.enable 0 .receive true), .receive 0 [1, 2] 2 0x80,
      .poke (Register.interrupts 0) 1]
    let now := run Board.move start moves
    let later := now.move (.call (.serviceChannel 0))
    (∃ k, Partition 0 .receive (laneEpoch 0 .receive (history Board.move start moves))
        (now.lane 0 .receive) k) ∧
      (now.lane 0 .receive).HandsOff (later.lane 0 .receive) ∧
      (now.lane 0 .receive).armed.length = 2 ∧ (later.lane 0 .receive).armed.length = 3 := by
  intro b place start moves now later
  have up : (Board.init {} place b).answer = .ok () := rfl
  have plain : b.registers.wiring.Plain 0 .receive := boardPlain (by decide) (by decide) .receive
  have on : (now.channel 0).isEnabled .receive = true := by decide +kernel
  obtain ⟨partition, kept⟩ := windowsKept 0 (by decide) .receive plain up moves on
  refine ⟨partition, kept (.call (.serviceChannel 0)) ?_ rfl, ?_, ?_⟩ <;> decide +kernel

end SerialAdapter
