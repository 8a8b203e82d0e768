import Mathlib.Data.List.Forall2
import SerialAdapter.Proofs.Board.Lane

/-! What goes out on the wire. Beside the books of the completions are kept, since the transmitter was
last switched, the bytes of every frame as they were when it was taken, and the slots that the
controller sent. An armed slot carries its frame until it is reported, because later frames and
writes in place go to slots that are not armed. -/
namespace SerialAdapter

structure Slot.Carries {size : Nat} (s : Slot size) (frame : Bytes) : Prop where
  length : s.descriptor.length.toNat = frame.length
  status : s.descriptor.status = DescriptorStatus.endOfFrameByte
  bytes : s.bytes frame.length = frame

variable {c n size : Nat}

theorem forall₂At {α β : Type} {R : α → β → Prop} {l : List α} {l' : List β} {k : Nat} {a : α}
    (h : List.Forall₂ R l l') (found : l[k]? = some a) : ∃ b, l'[k]? = some b ∧ R a b := by
  obtain ⟨low, rfl⟩ := List.getElem?_eq_some_iff.mp found
  have low' : k < l'.length := h.length_eq ▸ low
  exact ⟨l'[k], List.getElem?_eq_getElem low', h.get low low'⟩

section Slots

variable {s : Slot size}

theorem loadCarries (words : size ≤ Limits.maxBufferSize) {data : Option Bytes} {length : Nat}
    (short : length ≤ size) (whole : ∀ bytes ∈ data, bytes.length = length) (tag : UInt64) :
    (s.load data length tag).Carries (s.freight data length) := by
  have word : (UInt16.ofNat length).toNat = length := by
    apply UInt16.toNat_ofNat_of_lt'
    rw [Limits.maxBufferSize] at words
    rw [UInt16.size]
    omega
  have freight : (s.freight data length).length = length := by
    cases data with
    | some bytes => exact whole bytes rfl
    | none => simp [Slot.freight, short]
  refine ⟨word.trans freight.symm, rfl, ?_⟩
  rw [freight]
  cases data with
  | some bytes =>
    obtain rfl : bytes.length = length := whole bytes rfl
    simp [Slot.bytes, Slot.load, Slot.freight, Buffer.toListOverwrite, List.take_take, short]
  | none => rfl

end Slots

structure TransmitCargo (ring : SlotRing n size) (loaded : List Bytes)
    (processed : List (Slot size)) (told : Nat) : Prop where
  balance : told + ring.inFlight = loaded.length
  order : told ≤ processed.length
  enough : processed.length ≤ loaded.length
  held : List.Forall₂ Slot.Carries ring.held (loaded.drop told)
  sent : List.Forall₂ Slot.Carries processed (loaded.take processed.length)
  oldest : ring.held.take (processed.length - told) = processed.drop told
  spare : ∀ s ∈ ring.spare, s.Cleared

namespace TransmitCargo

variable {ring : SlotRing n size} {loaded : List Bytes} {processed : List (Slot size)} {told : Nat}

theorem fresh (filled : 0 < n) (ring : SlotRing n size) : TransmitCargo ring.reset [] [] 0 := by
  have none := SlotRing.heldReset ring
  refine ⟨?_, Nat.le_refl _, Nat.le_refl _, ?_, .nil, ?_, resetSpareCleared filled ring⟩
  · rw [SlotRing.resetInFlight]
    rfl
  · rw [none]
    exact .nil
  · rw [none]
    rfl

variable (indexed : ring.Indexed) (h : TransmitCargo ring loaded processed told)
include indexed h

theorem taken (words : size ≤ Limits.maxBufferSize) {data : Option Bytes} {length k : Nat}
    {tag : UInt64} {ring' : SlotRing n size} (whole : ∀ bytes ∈ data, bytes.length = length)
    (ok : ring.enqueue data length tag = .ok (k, ring')) :
    TransmitCargo ring' (loaded ++ [(ring.slot ring.next).freight data length]) processed told := by
  obtain ⟨short, free, -, rfl⟩ := SlotRing.enqueueOk ok
  have balance := h.balance
  have order := h.order
  have enough := h.enough
  have room := SlotRing.roomOfFree indexed free
  have put := SlotRing.heldPut indexed (·.load data length tag) room
  have more := SlotRing.putInFlight indexed (·.load data length tag) room
  refine ⟨?_, order, ?_, ?_, ?_, ?_, fun s shown => ?_⟩
  · rw [more, List.length_append, List.length_singleton]
    omega
  · rw [List.length_append]
    omega
  · rw [put, List.drop_append_of_le_length (by omega)]
    exact List.rel_append h.held (.cons (loadCarries words short whole tag) .nil)
  · rw [List.take_append_of_le_length enough]
    exact h.sent
  · rw [put, List.take_append_of_le_length (by rw [SlotRing.heldLength]; omega)]
    exact h.oldest
  · rw [SlotRing.sparePut indexed _ room] at shown
    exact h.spare s (List.mem_of_mem_tail shown)

theorem prepared (data : Bytes) : TransmitCargo (ring.prepare data).2 loaded processed told := by
  unfold SlotRing.prepare
  split
  · exact h
  · have same := SlotRing.heldModifyNext indexed fun s => { s with buffer := s.buffer.overwrite data }
    have gap : (ring.slot ring.next).Cleared := h.spare _ (by
      rw [SlotRing.spareCons indexed]
      exact List.mem_cons_self)
    refine ⟨h.balance, h.order, h.enough, same ▸ h.held, h.sent, same ▸ h.oldest,
      fun s shown => ?_⟩
    rw [SlotRing.spareModifyNext indexed] at shown
    rcases List.mem_cons.mp shown with rfl | rest
    · exact ⟨gap.length, gap.status⟩
    · exact h.spare s (List.mem_of_mem_tail rest)

theorem drained : TransmitCargo (SlotRing.drain (processed.length - told) ring).2 loaded processed
    processed.length := by
  have balance := h.balance
  have order := h.order
  have enough := h.enough
  have done := SlotRing.drained indexed (by omega : processed.length - told ≤ ring.inFlight)
  have fewer := done.inFlight
  refine ⟨by omega, Nat.le_refl _, enough, ?_, h.sent, ?_, fun s shown => ?_⟩
  · have rest := List.forall₂_drop (processed.length - told) h.held
    rw [List.drop_drop, Nat.add_sub_cancel' order] at rest
    exact done.held ▸ rest
  · simp
  · rw [done.spare] at shown
    rcases List.mem_append.mp shown with old | given
    · exact h.spare s old
    · obtain ⟨old, -, rfl⟩ := List.mem_map.mp given
      exact releaseCleared old

omit indexed in
theorem walked {k : Nat} (position : processed.length - told = k) (more : k < ring.inFlight) :
    TransmitCargo ring loaded (processed ++ [ring.slot (ring.oldest + k)]) told := by
  have balance := h.balance
  have order := h.order
  have here : ring.held[k]? = some (ring.slot (ring.oldest + k)) := SlotRing.heldGet ring more
  obtain ⟨frame, found, carries⟩ := forall₂At h.held here
  have place : told + k = processed.length := by omega
  have longer : (processed ++ [ring.slot (ring.oldest + k)]).length = processed.length + 1 := by simp
  rw [List.getElem?_drop, place] at found
  refine ⟨balance, by omega, by omega, h.held, ?_, ?_, h.spare⟩
  · rw [longer, List.take_add_one, found]
    exact List.rel_append h.sent (.cons carries .nil)
  · have oldest := h.oldest
    have next : processed.length + 1 - told = k + 1 := by omega
    rw [position] at oldest
    rw [longer, next, List.take_add_one, here, oldest, List.drop_append_of_le_length order]
    rfl

end TransmitCargo

section Steps

variable {l l' : Lane n size} {loads loaded : List Bytes} {sent processed : List (Slot size)}
  {told : Nat}

theorem cargoCut (filled : 0 < n) (step : TransmitStep l true loads sent l') :
    TransmitCargo l'.ring [] [] 0 := by
  cases step with
  | switched on => exact .fresh filled l.ring

theorem cargoStep (fits : 16 * n ≤ 2 ^ 32) (words : size ≤ Limits.maxBufferSize)
    (stands : l.Stands (processed.length - told)) (h : TransmitCargo l.ring loaded processed told)
    (step : TransmitStep l false loads sent l') :
    ∃ told', TransmitCargo l'.ring (loaded ++ loads) (processed ++ sent) told' := by
  have indexed := stands.indexed
  cases step with
  | still => exact ⟨told, by simpa using h⟩
  | taken on whole ok =>
    refine ⟨told, ?_⟩
    rw [List.append_nil]
    exact h.taken indexed words whole ok
  | prepared data =>
    refine ⟨told, ?_⟩
    simpa using h.prepared indexed data
  | drained on =>
    refine ⟨processed.length, ?_⟩
    rw [stands.completed fits on]
    simpa using h.drained indexed
  | @walked k running there =>
    obtain ⟨on, more⟩ := stands.moving running
    have place := stands.slot fits on there
    have same : l.ring.slot k = l.ring.slot (l.ring.oldest + (processed.length - told)) :=
      SlotRing.slotCongr l.ring (by rw [place, Nat.mod_mod])
    refine ⟨told, ?_⟩
    rw [List.append_nil, same]
    exact h.walked rfl more

end Steps

section Runs

variable {b : Board c n size} (i : Fin c)

theorem loadsLengths (ch : Channel n size) {share : Share}
    (whole : ∀ data length tag, share = .send data length tag →
      ∀ bytes ∈ data, bytes.length = length) :
    (share.loads ch).map List.length = (share.takes ch).map Prod.snd := by
  cases share with
  | send data length tag =>
    simp only [Share.loads, Share.takes]
    cases queued : ch.rings.transmit.enqueue data length tag with
    | error cause => rfl
    | ok taken =>
      obtain ⟨k, ring⟩ := taken
      obtain ⟨short, -, -, -⟩ := SlotRing.enqueueOk queued
      cases data with
      | some bytes => simp [Slot.freight, whole (some bytes) length tag rfl bytes rfl]
      | none => simp [Slot.freight, short]
  | _ => rfl

theorem loadedLengths (recent : List (Entry (Board c n size) (Move c))) :
    (recent.flatMap (·.loaded i)).map List.length = (recent.flatMap (·.accepted i)).map Prod.snd := by
  induction recent with
  | nil => rfl
  | cons e recent ih =>
    obtain ⟨b, m⟩ := e
    have first : (Entry.loaded i ⟨b, m⟩).map List.length =
        (Entry.accepted i ⟨b, m⟩).map Prod.snd := by
      cases m with
      | call k =>
        rw [loadedShare, acceptedShare]
        exact loadsLengths (b.channel i) fun _ _ _ same => shareWhole same
      | _ => rfl
    simp only [List.flatMap_cons, List.map_append, first, ih]

theorem finishedAll (recent : List (Entry (Board c n size) (Move c))) :
    recent.flatMap (·.finished i) = (recent.flatMap (·.processed i)).map Slot.transmission := by
  simp only [Entry.finishedProcessed, List.map_flatMap]

structure CargoAccount (recent : List (Entry (Board c n size) (Move c))) (b : Board c n size) :
    Prop where
  books : BoardTransmitBooks i b (recent.flatMap (·.accepted i)) (recent.flatMap (·.finished i))
    (recent.flatMap (·.reported i))
  cargo : TransmitCargo (b.lane i .transmit).ring (recent.flatMap (·.loaded i))
    (recent.flatMap (·.processed i)) (recent.flatMap (·.reported i)).length

namespace CargoAccount

variable {i} {recent : List (Entry (Board c n size) (Move c))} (h : CargoAccount i recent b)
include h

theorem stands : (b.lane i .transmit).Stands ((recent.flatMap (·.processed i)).length -
    (recent.flatMap (·.reported i)).length) := by
  have stands := transmitStands (l := b.lane i .transmit) h.books
  rw [finishedAll, List.length_map] at stands
  exact stands

theorem cut (few : c ≤ Limits.maxChannels) (fits : 16 * n ≤ 2 ^ 32)
    (words : size ≤ Limits.maxBufferSize) (up : b.initialized = true)
    (plain : b.registers.wiring.Plain i .transmit) {m : Move c}
    (cut : Entry.switches i .transmit ⟨b, m⟩ = true) : CargoAccount i [] (b.move m) := by
  have entered := transmitEntered few fits words up plain h.books m
  have step := transmitMoves few up plain m
  rw [cut] at step
  exact ⟨entered.cut cut, cargoCut h.stands.indexed.filled step⟩

theorem grow (few : c ≤ Limits.maxChannels) (fits : 16 * n ≤ 2 ^ 32)
    (words : size ≤ Limits.maxBufferSize) (up : b.initialized = true)
    (plain : b.registers.wiring.Plain i .transmit) {m : Move c}
    (uncut : Entry.switches i .transmit ⟨b, m⟩ = false) :
    CargoAccount i (recent ++ [⟨b, m⟩]) (b.move m) := by
  have entered := transmitEntered few fits words up plain h.books m
  have step := transmitMoves few up plain m
  rw [uncut] at step
  obtain ⟨told, cargo⟩ := cargoStep fits words h.stands h.cargo step
  have books := entered.books uncut
  -- the books and the cargo count the same frames
  have lengths := congrArg List.length (loadedLengths i (recent ++ [⟨b, m⟩]))
  have balance := cargo.balance
  have count := books.inFlight
  have known := books.told.length_le
  simp only [List.length_map, List.flatMap_append, List.flatMap_singleton] at lengths
  have same : told = (recent.flatMap (·.reported i) ++ Entry.reported i ⟨b, m⟩).length := by
    change ((b.move m).lane i .transmit).ring.inFlight = _ at count
    omega
  refine ⟨?_, ?_⟩
  · simpa only [List.flatMap_append, List.flatMap_singleton] using books
  · rw [same] at cargo
    simpa only [List.flatMap_append, List.flatMap_singleton] using cargo

end CargoAccount

variable {setup : BoardSetup c} {place : Nat → Direction → Placement} (fits : 16 * n ≤ 2 ^ 32)
  (plain : b.registers.wiring.Plain i .transmit)
  (up : (Board.init setup place b).answer = .ok ()) (moves : List (Move c))
include fits plain up

theorem cargoAccount : CargoAccount i
    (transmitEpoch i (history Board.move (Board.init setup place b).state moves))
    (run Board.move (Board.init setup place b).state moves) := by
  obtain ⟨-, -, few, filled, -, words⟩ := initAccepted up
  refine startKeeps (P := CargoAccount i) _ i .transmit plain up ?_ ?_ ?_ moves
  · intro plain fresh
    refine ⟨TransmitBooks.fresh (by omega) plain fresh, ?_⟩
    obtain ⟨old, -, ring⟩ := fresh.ring
    have ring : (((Board.init setup place b).state).lane i .transmit).ring = old.reset := ring
    rw [ring]
    exact .fresh (by omega) old
  · exact fun _ _ _ up plain account cut => account.cut few fits words up plain cut
  · exact fun _ _ _ up plain account uncut => account.grow few fits words up plain uncut

/-- What the controller sends since the transmitter was last switched are the frames that were taken,
in their order, each with the bytes that it had when it was taken. -/
theorem wireCarriesFrames :
    let start := (Board.init setup place b).state
    let recent := transmitEpoch i (history Board.move start moves)
    let loaded := recent.flatMap (·.loaded i)
    loaded.map List.length = (recent.flatMap (·.accepted i)).map Prod.snd ∧
      ∀ (k : Nat) (s : Slot size), (recent.flatMap (·.processed i))[k]? = some s →
        ∃ frame, loaded[k]? = some frame ∧ s.Carries frame := by
  intro start recent loaded
  refine ⟨loadedLengths i recent, fun k s found => ?_⟩
  obtain ⟨frame, there, carries⟩ := forall₂At (cargoAccount i fits plain up moves).cargo.sent found
  refine ⟨frame, ?_, carries⟩
  rw [List.getElem?_take] at there
  split at there
  · exact there
  · contradiction

end Runs

theorem secondOfTwoIntact :
    let b : Board 1 3 4 := { registers := .blank (Wiring.board 1) }
    let place := Placement.regular 0 64 3
    let start := (Board.init {} place b).state
    let moves : List (Move 1) :=
      [.call (.enable 0 .transmit true), .call (.prepare 0 [9, 8, 7]), .call (.sendPrepared 0 2 5),
        .call (.send 0 [1, 2, 3] 6), .transmit 0, .poke (Register.interrupts 0) 2,
        .call (.serviceChannel 0), .call (.send 0 [4, 4] 7), .call (.prepare 0 [6, 6, 6, 6]),
        .transmit 0]
    let recent := transmitEpoch 0 (history Board.move start moves)
    (recent.flatMap (·.loaded 0)).take 2 = [[9, 8], [1, 2, 3]] ∧
      ∃ s, (recent.flatMap (·.processed 0))[1]? = some s ∧ s.Carries [1, 2, 3] := by
  intro b place start moves recent
  have up : (Board.init {} place b).answer = .ok () := rfl
  have plain : b.registers.wiring.Plain 0 .transmit := boardPlain (by decide) (by decide) .transmit
  have loaded : recent.flatMap (·.loaded 0) = [[9, 8], [1, 2, 3], [4, 4]] := by decide +kernel
  have sent : (recent.flatMap (·.processed 0))[1]?.isSome = true := by decide +kernel
  obtain ⟨s, found⟩ := Option.isSome_iff_exists.mp sent
  obtain ⟨frame, there, carries⟩ := (wireCarriesFrames 0 (by decide) plain up moves).2 1 s found
  rw [loaded] at there ⊢
  cases there
  exact ⟨rfl, s, found, carries⟩

end SerialAdapter
