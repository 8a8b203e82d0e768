import SerialAdapter.Proofs.Board.Run
import SerialAdapter.Proofs.Receive.Books

/-! Deliveries over whole runs. A run is cut wherever the receiver of a channel is switched on or off
and wherever a fault makes the driver restart its ring, which the moves and the registers show. Since
the last cut the outcomes reported are those of the slots that the controller wrote, in their order
and each once. -/
namespace SerialAdapter

variable {c n size : Nat}

namespace Entry

def written (i : Fin c) (e : Entry (Board c n size) (Move c)) : List (Slot size) :=
  match e.move with
  | .receive j frame length status =>
    match e.before.fills? j frame length status with
    | some (k, ring, _) => if j = i then [ring.slot k] else []
    | none => []
  | _ => []

def outcomes (i : Fin c) (e : Entry (Board c n size) (Move c)) :
    List (Except ChannelError Bytes) := outcomesIn i e.seen

def restarts (i : Fin c) (e : Entry (Board c n size) (Move c)) : Bool :=
  e.switches i .receive || restartsIn i e.seen

/-- The entry services channel `i` while its receiver is on and its status register shows a buffer
or a counter overflow. -/
def faulted (i : Fin c) (e : Entry (Board c n size) (Move c)) : Bool :=
  let status := e.before.registers.peek8 (Register.status i .receive)
  e.serves i .receive && (e.before.channel i).receiving && (Bits.has status 5 || Bits.has status 4)

theorem faultedShare (b : Board c n size) (i : Fin c) (k : Call c) :
    faulted i ⟨b, .call k⟩ = (k.share b i).faulted i (b.channel i) b.registers := by
  have other (none : serves i .receive ⟨b, .call k⟩ = false) : faulted i ⟨b, .call k⟩ = false := by
    rw [faulted, none]
    rfl
  have reached (own : k.own = .service) (serve : serves i .receive ⟨b, .call k⟩ =
      ((InterruptStatus.ofByte (b.registers.peek8 (Register.interrupts i))).receive &&
        k.concerns b i)) :
      faulted i ⟨b, .call k⟩ = (k.share b i).faulted i (b.channel i) b.registers := by
    rw [faulted, serve, Call.share, own]
    cases k.concerns b i with
    | true =>
      simp only [Bool.and_true, ↓reduceIte, Share.faulted, Channel.faulted, DmaStatus.ringFault,
        DmaStatus.ofByte]
    | false => simp only [Bool.and_false, Bool.false_and, Bool.false_eq_true, ↓reduceIte,
        Share.faulted]
  cases k with
  | serviceChannel j => exact reached rfl rfl
  | handleInterrupt => exact reached rfl rfl
  | _ =>
    rw [other (Bool.and_false _)]
    unfold Call.share
    split <;> rfl

end Entry

section Step

variable {b : Board c n size} {i : Fin c} {written : List (Slot size)}
  {reported : List (Except ChannelError Bytes)}

abbrev BoardReceiveBooks (i : Fin c) (b : Board c n size) :=
  ReceiveBooks i (b.channel i) b.registers

structure ReceiveEntered (i : Fin c) (e : Entry (Board c n size) (Move c))
    (written : List (Slot size)) (reported : List (Except ChannelError Bytes)) : Prop where
  cut : e.restarts i = true → BoardReceiveBooks i (e.before.move e.move) [] []
  books : e.restarts i = false → BoardReceiveBooks i (e.before.move e.move)
    (written ++ e.written i) (reported ++ e.outcomes i)
  settled : e.restarts i = false → e.serves i .receive = true →
    reported ++ e.outcomes i = (written ++ e.written i).map Slot.outcome

theorem deliveredStill {b' : Board c n size} (h : BoardReceiveBooks i b written reported)
    (same : Still i .receive b b') : BoardReceiveBooks i b' written reported :=
  ReceiveBooks.kept h same.kept

theorem deliveredSplit (few : c ≤ Limits.maxChannels) {share : Share} {k : Call c}
    (split : Split i share b (k.perform b))
    (h : ReceiveBooks i (share.perform i b.thresholds (b.channel i) b.registers).answer
      (share.perform i b.thresholds (b.channel i) b.registers).state written reported) :
    BoardReceiveBooks i (b.move (.call k)) written reported := by
  obtain ⟨channel, control⟩ := splitCall (d := .receive) few split
  unfold BoardReceiveBooks ReceiveBooks at *
  rw [channel, control]
  exact h

theorem callRestarts {share : Share} {k : Call c} (split : Split i share b (k.perform b)) :
    restartsIn i (Entry.seen ⟨b, .call k⟩) =
      restartsIn i (share.perform i b.thresholds (b.channel i) b.registers).seen := by
  change restartsIn i (k.perform b).seen = _
  rw [← restartsAbout, split.news, restartsAbout]

theorem moveRestarts (few : c ≤ Limits.maxChannels) (up : b.initialized = true) (m : Move c) :
    restartsIn i (Entry.seen ⟨b, m⟩) = Entry.faulted i ⟨b, m⟩ := by
  have idle (silent : Entry.seen ⟨b, m⟩ = []) (none : Entry.serves i .receive ⟨b, m⟩ = false) :
      restartsIn i (Entry.seen ⟨b, m⟩) = Entry.faulted i ⟨b, m⟩ := by
    rw [silent, Entry.faulted, none]
    rfl
  cases m with
  | call k =>
    rw [callRestarts (callSplit few up k i), Entry.faultedShare]
    exact shareRestarts (Nat.lt_of_lt_of_le i.isLt few) b.thresholds (shareStarted b i k)
  | receive j frame length status => exact idle rfl (Bool.and_false _)
  | transmit j => exact idle rfl (Bool.and_false _)
  | poke o value => exact idle rfl (Bool.and_false _)

theorem fillsRunning (fits : 16 * n ≤ 2 ^ 32) (h : BoardReceiveBooks i b written reported)
    (running : (Control.of i .receive b.registers).running = true) (frame : Bytes)
    (length : UInt16) (status : UInt8) : (b.fills? i frame length status).isSome = true := by
  have ledger : ReceiveLedger _ _ _ written reported := h
  have current := (ledger.armed (ledger.standing running).1).current
  have found : Controller.slot? i .receive (b.channel i).rings.receive b.registers = some _ :=
    (congrArg _ current).trans (SlotRing.slotAtAddress fits ledger.indexed.filled _ _)
  unfold Board.fills? Controller.receive
  rw [if_pos running, found]
  rfl

theorem deliveredCall (few : c ≤ Limits.maxChannels) (fits : 16 * n ≤ 2 ^ 32)
    (up : b.initialized = true) (plain : b.registers.wiring.Plain i .receive)
    (h : BoardReceiveBooks i b written reported) (k : Call c) :
    ReceiveEntered i ⟨b, .call k⟩ written reported := by
  have low := Nat.lt_of_lt_of_le i.isLt few
  have split := callSplit few up k i
  have share := receiveShare low plain fits h b.thresholds (k.share b i) (shareStarted b i k)
  have outcomes : Entry.outcomes i ⟨b, .call k⟩ =
      outcomesIn i ((k.share b i).perform i b.thresholds (b.channel i) b.registers).seen := by
    change outcomesIn i (k.perform b).seen = _
    rw [← outcomesAbout, split.news, outcomesAbout]
  have faults := callRestarts split
  have walks : Entry.written i ⟨b, .call k⟩ = [] := rfl
  refine ⟨fun on => ?_, fun off => ?_, fun off serve => ?_⟩
  · rw [Entry.restarts, Entry.switchesShare, faults] at on
    exact deliveredSplit few split (share.cut on)
  · rw [Entry.restarts, Entry.switchesShare, faults] at off
    rw [walks, outcomes, List.append_nil]
    exact deliveredSplit few split (share.books off)
  · obtain ⟨service, asked⟩ := Entry.servesShare serve
    rw [Entry.restarts, faults, Bool.or_eq_false_iff] at off
    rw [outcomes, walks, List.append_nil]
    exact share.settled off.2 service asked

theorem deliveredIdle {m : Move c} (h : BoardReceiveBooks i b written reported)
    (same : Still i .receive b (b.move m)) (writes : Entry.written i ⟨b, m⟩ = [])
    (reports : Entry.outcomes i ⟨b, m⟩ = []) (restarts : Entry.restarts i ⟨b, m⟩ = false)
    (serves : Entry.serves i .receive ⟨b, m⟩ = false) :
    ReceiveEntered i ⟨b, m⟩ written reported := by
  refine ⟨fun on => ?_, fun _ => ?_, fun _ on => ?_⟩
  · rw [restarts] at on
    contradiction
  · rw [writes, reports, List.append_nil, List.append_nil]
    exact deliveredStill h same
  · rw [serves] at on
    contradiction

theorem deliveredReceive (few : c ≤ Limits.maxChannels) (fits : 16 * n ≤ 2 ^ 32)
    (plain : b.registers.wiring.Plain i .receive) (h : BoardReceiveBooks i b written reported)
    (j : Fin c) (frame : Bytes) (length : UInt16) (status : UInt8) :
    ReceiveEntered i ⟨b, .receive j frame length status⟩ written reported := by
  by_cases own : j = i
  · subst own
    cases step : b.fills? j frame length status with
    | none =>
      have same : b.move (.receive j frame length status) = b := by simp only [Board.move, step]
      refine deliveredIdle h ?_ ?_ rfl rfl (Bool.and_false _)
      · rw [same]
        exact .refl b
      · simp only [Entry.written, step]
    | some taken =>
      obtain ⟨k, ring, r⟩ := taken
      obtain ⟨running, there, filled, rfl⟩ := fillsStep step
      have low := Nat.lt_of_lt_of_le j.isLt few
      have writes : Entry.written j ⟨b, .receive j frame length status⟩ = [ring.slot k] := by
        simp only [Entry.written, step, ↓reduceIte]
      have moved := (drivesSetCurrent low (d := .receive)
        (ring.slot k).descriptor.chain).control b.registers plain
      have after := ReceiveLedger.fills fits h running there frame length status
      simp only [← filled] at after
      refine ⟨fun on => by contradiction, fun _ => ?_, fun _ on => ?_⟩
      · rw [writes]
        simp only [Entry.outcomes, Entry.seen, outcomesIn, List.filterMap_nil, List.append_nil]
        unfold BoardReceiveBooks ReceiveBooks
        simp only [Board.move, step]
        rw [(withRingOwn _).1, (withRingOwn _).2]
        change ReceiveLedger _
          (Control.of j .receive (Dma.setCurrent j .receive _ b.registers).state) _ _ _
        rw [moved]
        exact after
      · simp [Entry.serves] at on
  · have apart : ¬ ((j : Nat) = i ∧ Direction.receive = .receive) :=
      fun same => own (Fin.ext same.1)
    refine deliveredIdle h (receiveStill few apart) ?_ rfl rfl (Bool.and_false _)
    simp only [Entry.written]
    split
    · rw [if_neg own]
    · rfl

theorem receiveEntered (few : c ≤ Limits.maxChannels) (fits : 16 * n ≤ 2 ^ 32)
    (up : b.initialized = true) (plain : b.registers.wiring.Plain i .receive)
    (h : BoardReceiveBooks i b written reported) (m : Move c) :
    ReceiveEntered i ⟨b, m⟩ written reported := by
  cases m with
  | call k => exact deliveredCall few fits up plain h k
  | receive j frame length status => exact deliveredReceive few fits plain h j frame length status
  | transmit j =>
    exact deliveredIdle h (transmitStill few fun same => by cases same.2) rfl rfl rfl
      (Bool.and_false _)
  | poke o value =>
    exact deliveredIdle h (pokeStill few o value) rfl rfl rfl (Bool.and_false _)

end Step

section Runs

variable (i : Fin c)

abbrev receiveEpoch (h : List (Entry (Board c n size) (Move c))) :
    List (Entry (Board c n size) (Move c)) := epoch (·.restarts i) h

/-- A run is cut exactly where the receiver is switched or a service finds a fault of its ring. -/
theorem restartsExactly {b : Board c n size} {setup : BoardSetup c}
    {place : Nat → Direction → Placement} (up : (Board.init setup place b).answer = .ok ())
    (moves : List (Move c)) :
    ∀ e ∈ history Board.move (Board.init setup place b).state moves,
      e.restarts i = (e.switches i .receive || e.faulted i) := by
  obtain ⟨-, -, few, -, -, -⟩ := initAccepted up
  have on : (Board.init setup place b).state.initialized = true := (initStart up i .receive).1
  refine (runKeeps (P := fun h b => b.initialized = true ∧ ∀ e ∈ h,
    Entry.restarts i e = (e.switches i .receive || e.faulted i)) Board.move
    ⟨on, fun e shown => by contradiction⟩ ?_ moves).2
  rintro h b m ⟨up, before⟩
  refine ⟨(moveWiring few up i m).2, fun e shown => ?_⟩
  rcases List.mem_append.mp shown with earlier | last
  · exact before e earlier
  · cases List.mem_singleton.mp last
    rw [Entry.restarts, moveRestarts few up m]

example :
    let b : Board 1 4 4 := { registers := .blank (Wiring.board 1) }
    let start := (Board.init {} (Placement.regular 0 64 4) b).state
    let moves : List (Move 1) :=
      [.call (.enable 0 .receive true), .poke (Register.status 0 .receive) 0x20,
        .call (.serviceChannel 0), .poke (Register.interrupts 0) 1, .call (.serviceChannel 0)]
    (history Board.move start moves).map (·.restarts 0) = [true, false, false, false, true] := by
  decide +kernel

structure ReceiveAccount (recent : List (Entry (Board c n size) (Move c)))
    (b : Board c n size) : Prop where
  books : BoardReceiveBooks i b (recent.flatMap (·.written i)) (recent.flatMap (·.outcomes i))
  settled : ∀ e ∈ recent.getLast?, e.serves i .receive = true →
    recent.flatMap (·.outcomes i) = (recent.flatMap (·.written i)).map Slot.outcome

theorem receiveAccount {b : Board c n size} {setup : BoardSetup c}
    {place : Nat → Direction → Placement} (fits : 16 * n ≤ 2 ^ 32)
    (plain : b.registers.wiring.Plain i .receive)
    (up : (Board.init setup place b).answer = .ok ()) (moves : List (Move c)) :
    ReceiveAccount i (receiveEpoch i (history Board.move (Board.init setup place b).state moves))
      (run Board.move (Board.init setup place b).state moves) := by
  obtain ⟨-, -, few, filled, -, -⟩ := initAccepted up
  refine startKeeps (P := ReceiveAccount i) _ i .receive plain up ?_ ?_ ?_ moves
  · intro plain fresh
    exact ⟨ReceiveBooks.fresh (by omega) plain fresh, fun e last => by contradiction⟩
  · rintro h b m up plain ⟨books, -⟩ cut
    have entered := receiveEntered few fits up plain books m
    exact ⟨entered.cut cut, fun e last => by contradiction⟩
  · rintro h b m up plain ⟨books, -⟩ uncut
    have entered := receiveEntered few fits up plain books m
    refine ⟨?_, ?_⟩
    · simp only [List.flatMap_append, List.flatMap_singleton]
      exact entered.books uncut
    · simp only [List.flatMap_append, List.flatMap_singleton, List.getLast?_append,
        List.getLast?_singleton, Option.some_or, Option.mem_some_iff]
      rintro e rfl
      exact entered.settled uncut

/-- Outcomes are told once each and in the order of the slots that were written. While the receiver
is on its ring is armed in full, a controller that runs stands at a slot that it may write, and
after a service nothing written is left to report. -/
theorem deliveriesInOrder {b : Board c n size} {setup : BoardSetup c}
    {place : Nat → Direction → Placement} (fits : 16 * n ≤ 2 ^ 32)
    (plain : b.registers.wiring.Plain i .receive)
    (up : (Board.init setup place b).answer = .ok ()) (moves : List (Move c)) :
    let start := (Board.init setup place b).state
    let recent := receiveEpoch i (history Board.move start moves)
    let written := recent.flatMap (·.written i)
    let reported := recent.flatMap (·.outcomes i)
    let now := run Board.move start moves
    reported <+: written.map Slot.outcome ∧ written.length - reported.length ≤ n - 1 ∧
      ((now.channel i).receiving = true → now.freeSlots i .receive = .ok 0) ∧
      ((Control.of i .receive now.registers).running = true →
        (now.channel i).receiving = true ∧ ∀ frame length status,
          (now.fills? i frame length status).isSome = true) ∧
      ∀ e ∈ recent.getLast?, e.serves i .receive = true →
        reported = written.map Slot.outcome := by
  intro start recent written reported now
  obtain ⟨books, settled⟩ := receiveAccount i fits plain up moves
  have ledger : ReceiveLedger _ _ (now.channel i).receiving written reported := books
  refine ⟨ledger.told, ?_, fun on => ?_, fun running => ?_, settled⟩
  · cases on : (now.channel i).receiving with
    | true => exact (ledger.armed on).room
    | false =>
      obtain ⟨nothing, -, -⟩ := ledger.idle on
      rw [nothing, List.length_nil, Nat.zero_sub]
      exact Nat.zero_le _
  · have full : (now.channel i).rings.receive.inFlight = n - 1 := (ledger.armed on).full
    have free : (now.channel i).rings.receive.free + (now.channel i).rings.receive.inFlight =
      n - 1 := SlotRing.freeAddInFlight ledger.indexed
    have none : (now.channel i).rings.receive.free = 0 := by omega
    rw [← none]
    simp only [Board.freeSlots, Channel.free, Duplex.ring, Vector.getElem?_eq_getElem i.isLt]
  · refine ⟨(ledger.standing running).1, fun frame length status => ?_⟩
    exact fillsRunning fits books running frame length status

end Runs

theorem thirdOfFourDelivered :
    let b : Board 1 4 4 := { registers := .blank (Wiring.board 1) }
    let place := Placement.regular 0 64 4
    let start := (Board.init {} place b).state
    let moves : List (Move 1) :=
      [.call (.enable 0 .receive true), .receive 0 [1, 2] 2 0x80, .receive 0 [3] 1 0x84,
        .receive 0 [5, 6, 7, 8] 9 0x80, .poke (Register.interrupts 0) 1,
        .call (.serviceChannel 0), .receive 0 [9] 1 0x80]
    let recent := receiveEpoch 0 (history Board.move start moves)
    recent.flatMap (·.outcomes 0) = [.ok [1, 2], .error .checksum, .ok [5, 6, 7, 8]] ∧
      (recent.flatMap (·.written 0)).length = 4 ∧
      recent.flatMap (·.outcomes 0) <+: (recent.flatMap (·.written 0)).map Slot.outcome := by
  intro b place start moves recent
  have up : (Board.init {} place b).answer = .ok () := rfl
  have plain : b.registers.wiring.Plain 0 .receive := boardPlain (by decide) (by decide) .receive
  have all := deliveriesInOrder 0 (by decide) plain up moves
  have reported : recent.flatMap (·.outcomes 0) =
      [.ok [1, 2], .error .checksum, .ok [5, 6, 7, 8]] := by decide +kernel
  have written : (recent.flatMap (·.written 0)).length = 4 := by decide +kernel
  exact ⟨reported, written, all.1⟩

end SerialAdapter
