import SerialAdapter.Proofs.Board.Run
import SerialAdapter.Proofs.Transmit.Books

/-! Completions over whole runs. A run is cut wherever the transmitter of a channel is switched on or
off. Since the last cut the completions reported are the first of the accepted frames, in their
order and each once; a service brings the reports up to what the controller has finished. -/
namespace SerialAdapter

variable {c n size : Nat}

namespace Entry

def accepted (i : Fin c) (e : Entry (Board c n size) (Move c)) : List Receipt :=
  match e.move with
  | .call (.send j data tag) =>
    match (Board.send j data tag e.before).answer with
    | .ok () => if j = i then [(tag, data.length)] else []
    | .error _ => []
  | .call (.sendPrepared j length tag) =>
    match (Board.sendPrepared j length tag e.before).answer with
    | .ok () => if j = i then [(tag, length)] else []
    | .error _ => []
  | _ => []

def finished (i : Fin c) (e : Entry (Board c n size) (Move c)) : List Transmission :=
  match e.move with
  | .transmit j =>
    match e.before.sends? j with
    | some (_, s, _) => if j = i then [s.transmission] else []
    | none => []
  | _ => []

def reported (i : Fin c) (e : Entry (Board c n size) (Move c)) : List Receipt := sentIn i e.seen

end Entry

section Accepted

variable {b : Board c n size} {i : Fin c}

theorem sendFrameAnswer (data : Option Bytes) (length : Nat) (tag : UInt64) :
    (Board.sendFrame i data length tag b).answer =
      if (b.channel i).transmitting then
        if length = 0 then .error .invalidLength
        else ((b.channel i).send i data length tag b.registers).answer.1
      else .error .notEnabled := by
  unfold Board.sendFrame Board.sendable
  rw [dif_pos i.isLt]
  split
  · split <;> rfl
  · rfl

theorem acceptedFrame (j : Nat) (data : Option Bytes) (length : Nat) (tag : UInt64) :
    (match (Board.sendFrame j data length tag b).answer with
      | .ok () => if j = i then [(tag, length)] else []
      | .error _ => []) =
    Share.takes (b.channel i) (if j = i && (b.channel i).transmitting && length != 0 then
      .send data length tag else .rest) := by
  by_cases own : j = i
  · subst own
    rw [sendFrameAnswer]
    obtain ⟨ch, here⟩ : ∃ ch, b.channel i = ch := ⟨_, rfl⟩
    rw [here]
    by_cases on : ch.transmitting = true
    · by_cases empty : length = 0
      · simp [on, empty, Share.takes]
      · cases queued : ch.rings.transmit.enqueue data length tag with
        | error cause =>
          rw [sendRefused i queued]
          simp [on, empty, Share.takes, queued]
        | ok taken =>
          rw [sendAccepted i queued]
          simp [on, empty, Share.takes, queued]
    · simp [on, Share.takes]
  · simp only [own, ↓reduceIte, decide_false, Bool.false_and, Bool.false_eq_true]
    split <;> rfl

theorem acceptedShare (k : Call c) :
    Entry.accepted i ⟨b, .call k⟩ = (k.share b i).takes (b.channel i) := by
  have other (share : Share) (p : Prop) [Decidable p] (idle : share.takes (b.channel i) = []) :
      [] = (if p then share else .rest).takes (b.channel i) := by
    split
    · exact idle.symm
    · rfl
  cases k with
  | send j data tag => exact acceptedFrame j _ _ _
  | sendPrepared j length tag => exact acceptedFrame j _ _ _
  | _ => exact other _ _ rfl

end Accepted

section Step

variable {b : Board c n size} {i : Fin c} {accepted : List Receipt} {finished : List Transmission}
  {reported : List Receipt}

abbrev BoardTransmitBooks (i : Fin c) (b : Board c n size) :=
  TransmitBooks i (b.channel i) b.registers

structure TransmitEntered (i : Fin c) (e : Entry (Board c n size) (Move c))
    (accepted : List Receipt) (finished : List Transmission) (reported : List Receipt) : Prop where
  cut : e.switches i .transmit = true → BoardTransmitBooks i (e.before.move e.move) [] [] []
  books : e.switches i .transmit = false → BoardTransmitBooks i (e.before.move e.move)
    (accepted ++ e.accepted i) (finished ++ e.finished i) (reported ++ e.reported i)
  settled : e.serves i .transmit = true →
    (reported ++ e.reported i).map Receipt.transmission = finished ++ e.finished i

theorem booksStill {b' : Board c n size} (h : BoardTransmitBooks i b accepted finished reported)
    (same : Still i .transmit b b') : BoardTransmitBooks i b' accepted finished reported :=
  TransmitBooks.kept h same.kept

theorem booksSplit (few : c ≤ Limits.maxChannels) {share : Share} {k : Call c}
    (split : Split i share b (k.perform b))
    (h : TransmitBooks i (share.perform i b.thresholds (b.channel i) b.registers).answer
      (share.perform i b.thresholds (b.channel i) b.registers).state accepted finished reported) :
    BoardTransmitBooks i (b.move (.call k)) accepted finished reported := by
  obtain ⟨channel, control⟩ := splitCall (d := .transmit) few split
  unfold BoardTransmitBooks TransmitBooks at *
  rw [channel, control]
  exact h

theorem sendsRunning (fits : 16 * n ≤ 2 ^ 32)
    (h : BoardTransmitBooks i b accepted finished reported)
    (running : (Control.of i .transmit b.registers).running = true) :
    (b.sends? i).isSome = true := by
  have ledger : TransmitLedger _ _ _ accepted finished reported := h
  have current := (ledger.armed (ledger.standing running).1).1
  have found : Controller.slot? i .transmit (b.channel i).rings.transmit b.registers = some _ :=
    (congrArg _ current).trans (SlotRing.slotAtAddress fits ledger.indexed.filled _ _)
  unfold Board.sends? Controller.transmit
  rw [if_pos running, found]
  rfl

theorem enteredCall (few : c ≤ Limits.maxChannels) (fits : 16 * n ≤ 2 ^ 32)
    (words : size ≤ Limits.maxBufferSize) (up : b.initialized = true)
    (plain : b.registers.wiring.Plain i .transmit)
    (h : BoardTransmitBooks i b accepted finished reported) (k : Call c) :
    TransmitEntered i ⟨b, .call k⟩ accepted finished reported := by
  have low := Nat.lt_of_lt_of_le i.isLt few
  have split := callSplit few up k i
  have share := transmitShare low plain fits words h b.thresholds (k.share b i)
    (fun _ _ _ same => shareTransmitting same) (shareStarted b i k)
  have reports : Entry.reported i ⟨b, .call k⟩ =
      sentIn i ((k.share b i).perform i b.thresholds (b.channel i) b.registers).seen := by
    change sentIn i (k.perform b).seen = _
    rw [← sentAbout, split.news, sentAbout]
  have walks : Entry.finished i ⟨b, .call k⟩ = [] := rfl
  refine ⟨fun on => ?_, fun off => ?_, fun serve => ?_⟩
  · rw [Entry.switchesShare] at on
    exact booksSplit few split (share.cut on)
  · rw [Entry.switchesShare] at off
    rw [acceptedShare, walks, reports, List.append_nil]
    exact booksSplit few split (share.books off)
  · obtain ⟨service, asked⟩ := Entry.servesShare serve
    rw [reports, walks, List.append_nil]
    exact share.settled service asked

theorem enteredStill {m : Move c} (h : BoardTransmitBooks i b accepted finished reported)
    (same : Still i .transmit b (b.move m)) (accepts : Entry.accepted i ⟨b, m⟩ = [])
    (walks : Entry.finished i ⟨b, m⟩ = []) (reports : Entry.reported i ⟨b, m⟩ = [])
    (switches : Entry.switches i .transmit ⟨b, m⟩ = false)
    (serves : Entry.serves i .transmit ⟨b, m⟩ = false) :
    TransmitEntered i ⟨b, m⟩ accepted finished reported := by
  refine ⟨fun on => ?_, fun _ => ?_, fun on => ?_⟩
  · rw [switches] at on
    contradiction
  · rw [accepts, walks, reports]
    simp only [List.append_nil]
    exact booksStill h same
  · rw [serves] at on
    contradiction

theorem enteredTransmit (few : c ≤ Limits.maxChannels) (fits : 16 * n ≤ 2 ^ 32)
    (plain : b.registers.wiring.Plain i .transmit)
    (h : BoardTransmitBooks i b accepted finished reported) (j : Fin c) :
    TransmitEntered i ⟨b, .transmit j⟩ accepted finished reported := by
  by_cases own : j = i
  · subst own
    cases step : b.sends? j with
    | none =>
      have same : b.move (.transmit j) = b := by simp only [Board.move, step]
      refine enteredStill h ?_ rfl ?_ rfl rfl (Bool.and_false _)
      · rw [same]
        exact .refl b
      · simp only [Entry.finished, step]
    | some taken =>
      obtain ⟨k, s, r⟩ := taken
      obtain ⟨running, there, rfl, rfl⟩ := sendsStep step
      have low := Nat.lt_of_lt_of_le j.isLt few
      have walks : Entry.finished j ⟨b, .transmit j⟩ =
          [((b.channel j).rings.transmit.slot k).transmission] := by
        simp only [Entry.finished, step, ↓reduceIte]
      have moved := (drivesSetCurrent low (d := .transmit)
        ((b.channel j).rings.transmit.slot k).descriptor.chain).control b.registers plain
      have after := TransmitLedger.walks fits h running there
      refine ⟨fun on => by contradiction, fun _ => ?_, fun on => ?_⟩
      · rw [walks]
        simp only [Entry.accepted, Entry.reported, Entry.seen, sentIn, List.filterMap_nil,
          List.append_nil]
        unfold BoardTransmitBooks TransmitBooks
        simp only [Board.move, step]
        rw [moved]
        exact after
      · simp [Entry.serves] at on
  · have apart : ¬ ((j : Nat) = i ∧ Direction.transmit = .transmit) :=
      fun same => own (Fin.ext same.1)
    refine enteredStill h (transmitStill few apart) rfl ?_ rfl rfl (Bool.and_false _)
    simp only [Entry.finished]
    split
    · rw [if_neg own]
    · rfl

theorem transmitEntered (few : c ≤ Limits.maxChannels) (fits : 16 * n ≤ 2 ^ 32)
    (words : size ≤ Limits.maxBufferSize) (up : b.initialized = true)
    (plain : b.registers.wiring.Plain i .transmit)
    (h : BoardTransmitBooks i b accepted finished reported) (m : Move c) :
    TransmitEntered i ⟨b, m⟩ accepted finished reported := by
  cases m with
  | call k => exact enteredCall few fits words up plain h k
  | transmit j => exact enteredTransmit few fits plain h j
  | receive j frame length status =>
    exact enteredStill h (receiveStill few fun same => by cases same.2) rfl rfl rfl rfl
      (Bool.and_false _)
  | poke o value =>
    exact enteredStill h (pokeStill few o value) rfl rfl rfl rfl (Bool.and_false _)

end Step

section Runs

variable (i : Fin c)

abbrev transmitEpoch (h : List (Entry (Board c n size) (Move c))) :
    List (Entry (Board c n size) (Move c)) := epoch (·.switches i .transmit) h

structure TransmitAccount (recent : List (Entry (Board c n size) (Move c)))
    (b : Board c n size) : Prop where
  books : BoardTransmitBooks i b (recent.flatMap (·.accepted i)) (recent.flatMap (·.finished i))
    (recent.flatMap (·.reported i))
  settled : ∀ e ∈ recent.getLast?, e.serves i .transmit = true →
    (recent.flatMap (·.reported i)).map Receipt.transmission = recent.flatMap (·.finished i)

theorem transmitAccount {b : Board c n size} {setup : BoardSetup c}
    {place : Nat → Direction → Placement} (fits : 16 * n ≤ 2 ^ 32)
    (plain : b.registers.wiring.Plain i .transmit)
    (up : (Board.init setup place b).answer = .ok ()) (moves : List (Move c)) :
    TransmitAccount i (transmitEpoch i (history Board.move (Board.init setup place b).state moves))
      (run Board.move (Board.init setup place b).state moves) := by
  obtain ⟨-, -, few, filled, -, words⟩ := initAccepted up
  refine startKeeps (P := TransmitAccount i) _ i .transmit plain up ?_ ?_ ?_ moves
  · intro plain fresh
    exact ⟨TransmitBooks.fresh (by omega) plain fresh, fun e last => by contradiction⟩
  · rintro h b m up plain ⟨books, -⟩ cut
    have entered := transmitEntered few fits words up plain books m
    exact ⟨entered.cut cut, fun e last => by contradiction⟩
  · rintro h b m up plain ⟨books, -⟩ uncut
    have entered := transmitEntered few fits words up plain books m
    refine ⟨?_, ?_⟩
    · simp only [List.flatMap_append, List.flatMap_singleton]
      exact entered.books uncut
    · simp only [List.flatMap_append, List.flatMap_singleton, List.getLast?_append,
        List.getLast?_singleton, Option.some_or, Option.mem_some_iff]
      rintro e rfl
      exact entered.settled

/-- Completions are told once each and in the order of the frames. The frames that are accepted
and not yet reported take up the ring, a controller that runs stands at one of them, and after a
service nothing finished is left to report. -/
theorem completionsInOrder {b : Board c n size} {setup : BoardSetup c}
    {place : Nat → Direction → Placement} (fits : 16 * n ≤ 2 ^ 32)
    (plain : b.registers.wiring.Plain i .transmit)
    (up : (Board.init setup place b).answer = .ok ()) (moves : List (Move c)) :
    let start := (Board.init setup place b).state
    let recent := transmitEpoch i (history Board.move start moves)
    let accepted := recent.flatMap (·.accepted i)
    let finished := recent.flatMap (·.finished i)
    let reported := recent.flatMap (·.reported i)
    reported <+: accepted ∧ finished <+: accepted.map Receipt.transmission ∧
      reported.map Receipt.transmission <+: finished ∧
      (run Board.move start moves).freeSlots i .transmit =
        .ok (n - 1 - (accepted.length - reported.length)) ∧
      ((Control.of i .transmit (run Board.move start moves).registers).running = true →
        ((run Board.move start moves).sends? i).isSome = true) ∧
      ∀ e ∈ recent.getLast?, e.serves i .transmit = true →
        reported.map Receipt.transmission = finished := by
  intro start recent accepted finished reported
  obtain ⟨books, settled⟩ := transmitAccount i fits plain up moves
  have ledger : TransmitLedger _ _ _ accepted finished reported := books
  have told : reported.map Receipt.transmission <+: accepted.map Receipt.transmission :=
    ledger.told.map Receipt.transmission
  refine ⟨ledger.told, ledger.walked, ?_, ?_, fun running => ?_, settled⟩
  · refine List.prefix_of_prefix_length_le told ledger.walked ?_
    rw [List.length_map]
    exact ledger.order
  · rw [← ledger.free]
    simp only [Board.freeSlots, Channel.free, Duplex.ring, Vector.getElem?_eq_getElem i.isLt]
    rfl
  · exact sendsRunning fits books running

end Runs

theorem firstOfTwoCompleted :
    let b : Board 1 3 4 := { registers := .blank (Wiring.board 1) }
    let place := Placement.regular 0 64 3
    let start := (Board.init {} place b).state
    let moves : List (Move 1) :=
      [.call (.enable 0 .transmit true), .call (.send 0 [1, 2, 3] 7), .call (.send 0 [4] 8),
        .transmit 0, .poke Register.boardInterrupts 1, .poke (Register.interrupts 0) 2,
        .call .handleInterrupt]
    let recent := transmitEpoch 0 (history Board.move start moves)
    recent.flatMap (·.reported 0) = [(7, 3)] ∧
      recent.flatMap (·.reported 0) <+: recent.flatMap (·.accepted 0) ∧
      (run Board.move start moves).freeSlots 0 .transmit = .ok 1 := by
  intro b place start moves recent
  have up : (Board.init {} place b).answer = .ok () := rfl
  have plain : b.registers.wiring.Plain 0 .transmit := boardPlain (by decide) (by decide) .transmit
  have all := completionsInOrder 0 (by decide) plain up moves
  have reported : recent.flatMap (·.reported 0) = [(7, 3)] := by decide +kernel
  have accepted : recent.flatMap (·.accepted 0) = [(7, 3), (8, 1)] := by decide +kernel
  refine ⟨reported, all.1, all.2.2.2.1.trans ?_⟩
  rw [reported, accepted]
  rfl

end SerialAdapter
