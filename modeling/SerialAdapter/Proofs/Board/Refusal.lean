import SerialAdapter.Proofs.Board.Hostile
import SerialAdapter.Proofs.Telemetry.Consistency

/-! Refused calls. A call that answers an error shows nothing and leaves the board as it was, and a
frame is refused for the first cause that applies to it. A board that was never brought up does
nothing at all. `freeSlots` and `nextBuffer?` only look at a board, so a refusal of theirs has
nothing to change. -/
namespace SerialAdapter

namespace Operation

variable {σ ε α : Type}

def Atomic (op : Operation σ (Except ε α)) : Prop :=
  ∀ s cause, (op s).answer = .error cause → op s = ⟨.error cause, s, []⟩

end Operation

section Atomic

variable {c n size i : Nat} {α : Type}

theorem atomicChecked
    (op : Thresholds → Channel n size → Operation Registers (α × Channel n size)) :
    (Board.checked i op : Operation (Board c n size) (Except ConfigError α)).Atomic := by
  intro b cause refused
  unfold Board.checked at refused ⊢
  split
  · rename_i error found
    simp only [found] at refused
    cases refused
    rfl
  · rename_i free
    simp only [free] at refused
    split at refused
    · contradiction
    · rename_i high
      cases refused
      rw [dif_neg high]
      rfl

theorem atomicChange (op : Thresholds → Channel n size → Operation Registers (Channel n size)) :
    (Board.change i op : Operation (Board c n size) _).Atomic :=
  atomicChecked fun t ch => do
    let ch ← op t ch
    return ((), ch)

theorem atomicInit (setup : BoardSetup c) (place : Nat → Direction → Placement) :
    (Board.init setup place : Operation (Board c n size) _).Atomic := by
  intro b cause refused
  unfold Board.init at refused ⊢
  split
  · rename_i error found
    simp only [found] at refused
    cases refused
    rfl
  · rename_i accepted
    simp only [accepted] at refused
    contradiction

theorem atomicClear (scope : ClearScope) :
    (Board.clearStatistics scope : Operation (Board c n size) _).Atomic := by
  have one (j : Nat) : (Board.clearChannel j scope : Operation (Board c n size) _).Atomic :=
    atomicChange _
  cases scope with
  | channel j => exact one j
  | line j => exact one j
  | board =>
    intro b cause refused
    unfold Board.clearStatistics Board.clearBoard at refused ⊢
    dsimp only at refused ⊢
    split at refused
    · contradiction
    · rename_i down
      cases refused
      rw [if_neg down]
      rfl

theorem sendAtomic {ch : Channel n size} {data : Option Bytes} {length : Nat} {tag : UInt64}
    {r : Registers} {cause : SendError}
    (refused : (ch.send i data length tag r).answer.1 = .error cause) :
    ch.send i data length tag r = ⟨(.error cause, ch), r, []⟩ := by
  cases queued : ch.rings.transmit.enqueue data length tag with
  | error found =>
    rw [sendRefused i queued] at refused ⊢
    cases refused
    rfl
  | ok taken =>
    rw [sendAccepted i queued] at refused
    contradiction

theorem atomicFrame (data : Option Bytes) (length : Nat) (tag : UInt64) :
    (Board.sendFrame i data length tag : Operation (Board c n size) _).Atomic := by
  intro b cause refused
  unfold Board.sendFrame Board.sendable at refused ⊢
  by_cases low : i < c
  · by_cases on : b.channels[i].transmitting
    · simp only [low, ↓reduceDIte, on, ↓reduceIte, Board.onChannel] at refused ⊢
      by_cases empty : length = 0
      · simp only [empty, ↓reduceIte, Operation.pureApply] at refused ⊢
        cases refused
        simp
      · simp only [empty, ↓reduceIte] at refused ⊢
        rw [sendAtomic refused]
        simp
    · simp only [low, ↓reduceDIte, on] at refused ⊢
      cases refused
      rfl
  · simp only [low, ↓reduceDIte] at refused ⊢
    cases refused
    rfl

end Atomic

def refused? {ε α : Type} (kind : ε → BoardError) : Except ε α → Option BoardError
  | .ok _ => none
  | .error cause => some (kind cause)

namespace Call

variable {c n size : Nat} {b : Board c n size}

def refusal? (b : Board c n size) : Call c → Option BoardError
  | .init setup place => refused? .config (Board.init setup place b).answer
  | .enable i d on => refused? .config (Board.enable i d on b).answer
  | .setMode i mode => refused? .config (Board.setMode i mode b).answer
  | .resyncLine i => refused? .config (Board.resyncLine i b).answer
  | .clearStatistics scope => refused? .config (Board.clearStatistics scope b).answer
  | .send i data tag => refused? .send (Board.send i data tag b).answer
  | .sendPrepared i length tag => refused? .send (Board.sendPrepared i length tag b).answer
  | .serviceChannel i => refused? .config (Board.serviceChannel i b).answer
  | .tickChannel i => refused? .config (Board.tickChannel i b).answer
  | .prepare .. | .takePending | .handleInterrupt | .tick => none

theorem silentRefused {ε α : Type} {op : Operation (Board c n size) (Except ε α)}
    (atomic : op.Atomic) {kind : ε → BoardError} {cause : BoardError}
    (refused : refused? kind (op b).answer = some cause) : op.silent b = ⟨(), b, []⟩ := by
  cases answer : (op b).answer with
  | ok result =>
    rw [answer] at refused
    contradiction
  | error found =>
    rw [Operation.silent, atomic b found answer]

theorem refusedStill {k : Call c} {cause : BoardError} (refused : k.refusal? b = some cause) :
    k.perform b = ⟨(), b, []⟩ := by
  cases k with
  | init setup place => exact silentRefused (atomicInit setup place) refused
  | enable i d on => exact silentRefused (atomicChange _) refused
  | setMode i mode => exact silentRefused (atomicChange _) refused
  | resyncLine i => exact silentRefused (atomicChange _) refused
  | clearStatistics scope => exact silentRefused (atomicClear scope) refused
  | send i data tag => exact silentRefused (atomicFrame _ _ tag) refused
  | sendPrepared i length tag => exact silentRefused (atomicFrame _ _ tag) refused
  | serviceChannel i => exact silentRefused (atomicChange _) refused
  | tickChannel i => exact silentRefused (atomicChecked fun t ch => ch.tick i t) refused
  | _ => contradiction

end Call

namespace SendError

variable {c n size : Nat}

def order : List SendError :=
  [.invalidChannel, .notEnabled, .invalidLength, .frameTooLarge, .ringFull]

def applies (b : Board c n size) (i length : Nat) : SendError → Bool
  | .invalidChannel => c ≤ i
  | .notEnabled => b.channels[i]?.any (!·.transmitting)
  | .invalidLength => length = 0
  | .frameTooLarge => size < length
  | .ringFull => b.channels[i]?.any (·.free .transmit = 0)

def first? (b : Board c n size) (i length : Nat) : Option SendError :=
  order.find? (·.applies b i length)

def verdict (b : Board c n size) (i length : Nat) : Except SendError Unit :=
  match first? b i length with
  | some cause => .error cause
  | none => .ok ()

end SendError

theorem frameAnswer {c n size : Nat} (b : Board c n size) (i : Nat) (data : Option Bytes)
    (length : Nat) (tag : UInt64) : (Board.sendFrame i data length tag b).answer =
      SendError.verdict b i length := by
  unfold Board.sendFrame Board.sendable SendError.verdict SendError.first? SendError.order
  by_cases low : i < c
  · have inside : ¬ c ≤ i := by omega
    by_cases on : b.channels[i].transmitting
    · by_cases empty : length = 0
      · simp [SendError.applies, Board.onChannel, low, inside, on, empty]
      · by_cases long : size < length
        · have queued : b.channels[i].rings.transmit.enqueue data length tag =
            .error .frameTooLarge := if_pos long
          simp [SendError.applies, Board.onChannel, low, inside, on, empty, long,
            sendRefused i queued]
        · by_cases full : b.channels[i].rings.transmit.free = 0
          · have queued : b.channels[i].rings.transmit.enqueue data length tag =
              .error .ringFull := by rw [SlotRing.enqueue, if_neg long, if_pos full]
            simp [SendError.applies, Board.onChannel, low, inside, on, empty, long,
              sendRefused i queued, Channel.free, Duplex.ring, full]
          · have queued : ∃ taken, b.channels[i].rings.transmit.enqueue data length tag =
              .ok taken := ⟨_, by rw [SlotRing.enqueue, if_neg long, if_neg full]⟩
            obtain ⟨taken, queued⟩ := queued
            simp [SendError.applies, Board.onChannel, low, inside, on, empty, long,
              sendAccepted i queued, Channel.free, Duplex.ring, full]
    · simp [SendError.applies, low, inside, on, Board.refuse]
  · have outside : c ≤ i := by omega
    simp [SendError.applies, low, outside, Board.refuse]

def Geometry (c n size : Nat) : Prop := (1 ≤ c ∧ c ≤ 8) ∧ 2 ≤ n ∧ 1 ≤ size ∧ size ≤ 65535

theorem acceptableGeometry (c n size : Nat) :
    Board.acceptable c n size = true ↔ Geometry c n size := by
  simp only [Board.acceptable, Bool.and_eq_true, decide_eq_true_eq]
  change (((0 < c ∧ c ≤ 8) ∧ 2 ≤ n) ∧ 0 < size) ∧ size ≤ 65535 ↔
    (1 ≤ c ∧ c ≤ 8) ∧ 2 ≤ n ∧ 1 ≤ size ∧ size ≤ 65535
  omega

theorem initAccepts {c n size : Nat} (b : Board c n size) (setup : BoardSetup c)
    (place : Nat → Direction → Placement) : (Board.init setup place b).answer = .ok () ↔
      b.initialized = false ∧ Geometry c n size ∧ setup.thresholds.Positive := by
  rw [← acceptableGeometry, ← usablePositive]
  unfold Board.init Board.initError?
  cases b.initialized <;> cases Board.acceptable c n size <;> cases setup.thresholds.usable <;>
    simp [Board.refuse]

/-- No direction was ever switched on. The calls that send rely on it, they do not look whether the
board is up. -/
structure Board.Dormant {c n size : Nat} (b : Board c n size) : Prop where
  down : b.initialized = false
  off : ∀ i : Fin c, (b.channel i).transmitting = false

section Dormant

variable {c n size : Nat} {b : Board c n size}

def Call.Raises (b : Board c n size) (k : Call c) : Prop :=
  ∃ setup place, k = .init setup place ∧ (Board.init setup place b).answer = .ok ()

theorem raisesGeometry {k : Call c} (raised : k.Raises b) : Geometry c n size := by
  obtain ⟨setup, place, -, accepted⟩ := raised
  exact ((initAccepts b setup place).mp accepted).2.1

theorem firstDown (h : b.Dormant) (i length : Nat) :
    (SendError.first? b i length).isSome = true := by
  unfold SendError.first? SendError.order
  by_cases low : i < c
  · have off : b.channels[i].transmitting = false := h.off ⟨i, low⟩
    have inside : ¬ c ≤ i := by omega
    simp [SendError.applies, low, inside, off]
  · have outside : c ≤ i := by omega
    simp [SendError.applies, outside]

theorem checkedRefuses (h : b.Dormant) (i : Nat) {α : Type}
    (op : Thresholds → Channel n size → Operation Registers (α × Channel n size)) :
    (Board.checked i op b).answer = .error .notInitialized := by
  simp [Board.checked, Board.obstacle?, h.down, Board.refuse]

theorem clearRefuses (h : b.Dormant) (scope : ClearScope) :
    (Board.clearStatistics scope b).answer = .error .notInitialized := by
  cases scope with
  | channel i => exact checkedRefuses h i _
  | line i => exact checkedRefuses h i _
  | board => simp [Board.clearStatistics, Board.clearBoard, h.down, Board.refuse]

theorem frameRefuses (h : b.Dormant) (i : Nat) (data : Option Bytes) (length : Nat)
    (tag : UInt64) :
    (refused? .send (Board.sendFrame i data length tag b).answer).isSome = true := by
  obtain ⟨cause, found⟩ := Option.isSome_iff_exists.mp (firstDown h i length)
  rw [frameAnswer, SendError.verdict, found]
  rfl

theorem prepareDown (h : b.Dormant) (i : Nat) (data : Bytes) :
    Board.prepare i data b = ⟨none, b, []⟩ := by
  unfold Board.prepare
  split
  · rename_i inside
    have off : b.channels[i].transmitting = false := h.off ⟨i, inside⟩
    simp [off]
  · rfl

theorem dormantIdle (h : b.Dormant) {k : Call c} (low : ¬ k.Raises b) :
    k.perform b = ⟨(), b, []⟩ := by
  have still (refused : (k.refusal? b).isSome = true) : k.perform b = ⟨(), b, []⟩ := by
    obtain ⟨cause, refused⟩ := Option.isSome_iff_exists.mp refused
    exact Call.refusedStill refused
  have unready (i : Nat)
      (op : Thresholds → Channel n size → Operation Registers (Channel n size)) :
      (refused? .config (Board.change i op b).answer).isSome = true := by
    rw [Board.change, checkedRefuses h]
    rfl
  cases k with
  | init setup place =>
    cases answer : (Board.init setup place b).answer with
    | ok done => exact (low ⟨setup, place, rfl, answer⟩).elim
    | error cause => exact still (by simp [Call.refusal?, answer, refused?])
  | enable i d on => exact still (unready i _)
  | setMode i mode => exact still (unready i _)
  | resyncLine i => exact still (unready i _)
  | serviceChannel i => exact still (unready i _)
  | tickChannel i =>
    refine still ?_
    rw [Call.refusal?, Board.tickChannel, checkedRefuses h]
    rfl
  | clearStatistics scope =>
    refine still ?_
    rw [Call.refusal?, clearRefuses h]
    rfl
  | send i data tag => exact still (frameRefuses h i _ _ tag)
  | sendPrepared i length tag => exact still (frameRefuses h i _ _ tag)
  | prepare i data => simp [Call.perform, Operation.silent, prepareDown h]
  | takePending => simp [Call.perform, Operation.silent, takePendingDown h.down]
  | handleInterrupt => exact handleInterruptDown h.down
  | tick => simp [Call.perform, Board.tick, h.down]

theorem dormantBuffers (h : b.Dormant) (i : Nat) : b.nextBuffer? i = none := by
  unfold Board.nextBuffer?
  split
  · rename_i ch found
    obtain ⟨inside, rfl⟩ := Vector.getElem?_eq_some_iff.mp found
    have off : b.channels[i].transmitting = false := h.off ⟨i, inside⟩
    simp [off]
  · rfl

theorem dormantNoise (h : b.Dormant) (w : Noise c n size) : (w.change b).Dormant where
  down := by
    rw [(w.tampers b).rest]
    exact h.down
  off i := by
    rw [((w.tampers b).channels i).rest]
    exact h.off i

end Dormant

def Strike.Raises {c n size : Nat} (b : Board c n size) : Strike c n size → Prop
  | .call k => k.Raises b
  | .noise _ => False

theorem sufferDormant {c n size : Nat} (registers : Registers) (strikes : List (Strike c n size))
    (early : ∀ e ∈ history Board.suffer ({ registers := registers } : Board c n size) strikes,
      ¬ e.move.Raises e.before) :
    (run Board.suffer ({ registers := registers } : Board c n size) strikes).Dormant := by
  refine runKeeps (P := fun h (b : Board c n size) => (∀ e ∈ h, ¬ e.move.Raises e.before) →
    b.Dormant) Board.suffer (fun _ => ⟨rfl, fun i => by simp [Board.channel]⟩)
    (fun h b x kept early => ?_) strikes early
  have dormant := kept fun e shown => early e (List.mem_append_left _ shown)
  have last := early ⟨b, x⟩ (by simp)
  cases x with
  | call k =>
    have idle : k.perform b = ⟨(), b, []⟩ := dormantIdle dormant last
    rw [Board.suffer, idle]
    exact dormant
  | noise w => exact dormantNoise dormant w

/-- In every reachable state: a board is brought up if and only if it is down, has a sound geometry
and positive thresholds; a refused call has no effect and shows nothing; a frame is refused for the
first cause that applies and is taken if none does. Until a board is brought up no call has an
effect or shows anything, and with a bad geometry that is for ever. -/
theorem refusalsInert {c n size : Nat} (registers : Registers)
    (strikes : List (Strike c n size)) :
    let fresh : Board c n size := { registers := registers }
    let now := run Board.suffer fresh strikes
    (∀ setup place, (Board.init setup place now).answer = .ok () ↔
      now.initialized = false ∧ Geometry c n size ∧ setup.thresholds.Positive) ∧
    (∀ (k : Call c) cause, k.refusal? now = some cause → k.perform now = ⟨(), now, []⟩) ∧
    (∀ i data tag, (Board.send i data tag now).answer =
      SendError.verdict now i data.length) ∧
    (∀ i length tag, (Board.sendPrepared i length tag now).answer =
      SendError.verdict now i length) ∧
    ((∀ e ∈ history Board.suffer fresh strikes, ¬ e.move.Raises e.before) →
      (∀ k : Call c, ¬ k.Raises now → k.perform now = ⟨(), now, []⟩) ∧
        ∀ i, now.nextBuffer? i = none) ∧
    (¬ Geometry c n size → ∀ k : Call c, k.perform now = ⟨(), now, []⟩) := by
  intro fresh now
  refine ⟨initAccepts now, fun k cause => Call.refusedStill, fun i data tag => ?_,
    fun i length tag => ?_, fun early => ?_, fun bad k => ?_⟩
  · exact frameAnswer now i (some data) data.length tag
  · exact frameAnswer now i none length tag
  · have dormant : now.Dormant := sufferDormant registers strikes early
    exact ⟨fun k low => dormantIdle dormant low, dormantBuffers dormant⟩
  · have never (b : Board c n size) (x : Strike c n size) : ¬ x.Raises b := by
      cases x with
      | call k => exact fun raised => bad (raisesGeometry raised)
      | noise w => exact id
    have dormant : now.Dormant := sufferDormant registers strikes fun e _ => never e.before e.move
    exact dormantIdle dormant (never now (.call k))

theorem thirdFrameRefused :
    let fresh : Board 1 3 4 := { registers := .blank (Wiring.board 1) }
    let early : List (Strike 1 3 4) := [.call (.send 0 [1] 5)]
    let strikes : List (Strike 1 3 4) := early ++ [.call (.init {} (Placement.regular 0 64 3)),
      .call (.enable 0 .transmit true), .call (.send 0 [1] 6), .call (.send 0 [1] 7)]
    let now := run Board.suffer fresh strikes
    (Board.send 0 [1] 8 now).answer = .error .ringFull ∧
      (Board.send 0 [1, 2, 3, 4, 5] 9 now).answer = .error .frameTooLarge ∧
      (Call.send 0 [1] 8).perform now = ⟨(), now, []⟩ ∧
      Call.tick.perform (run Board.suffer fresh early) =
        ⟨(), run Board.suffer fresh early, []⟩ := by
  intro fresh early strikes now
  obtain ⟨-, refused, answers, -, -, -⟩ := refusalsInert (.blank (Wiring.board 1)) strikes
  obtain ⟨-, -, -, -, idle, -⟩ := refusalsInert (.blank (Wiring.board 1)) early
  have full : SendError.verdict now 0 1 = .error .ringFull := by decide +kernel
  have long : SendError.verdict now 0 5 = .error .frameTooLarge := by decide +kernel
  have third : (Board.send 0 [1] 8 now).answer = .error .ringFull := (answers 0 [1] 8).trans full
  have quiet : ∀ e ∈ history Board.suffer fresh early, ¬ e.move.Raises e.before := by
    intro e shown
    cases List.mem_singleton.mp shown
    rintro ⟨setup, place, same, -⟩
    cases same
  refine ⟨third, (answers 0 [1, 2, 3, 4, 5] 9).trans long, refused _ (.send .ringFull) ?_, ?_⟩
  · exact congrArg (refused? .send) third
  · refine (idle quiet).1 .tick ?_
    rintro ⟨setup, place, same, -⟩
    cases same

end SerialAdapter
