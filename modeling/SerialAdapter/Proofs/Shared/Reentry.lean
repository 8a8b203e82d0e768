import SerialAdapter.Proofs.Shared.Relay

/-! Hooks that call the board again, while the hardware stands still. The handler on a board behind
locks does what a handler without locks does, in which to re-enter the handler is to look at the
summary and find nothing there. It was acknowledged before the first hook ran, and no call raises
it. The events of a service are heard by the hooks of the table in force when the service is over. -/
namespace SerialAdapter

variable {c n size : Nat} {α β : Type}

structure Stage (c n size : Nat) where
  board : Board c n size
  table : Hooks
  calls : List (Call c)

namespace Stage

def call (k : Call c) (op : Operation (Board c n size) α) : Operation (Stage c n size) α := fun s =>
  let done := op s.board
  ⟨done.answer, { s with board := done.state, calls := s.calls ++ [k] }, done.seen⟩

def freeSlots (i : Nat) (d : Direction) : Operation (Stage c n size) (Except ConfigError Nat) :=
  fun s => ⟨s.board.freeSlots i d, s, []⟩

def setTable (change : Hooks → Hooks) : Operation (Stage c n size) Unit := fun s =>
  ⟨(), { s with table := change s.table }, []⟩

def summaryRead (b : Board c n size) : List Action :=
  [.access (.read8 Register.boardInterrupts (b.registers.peek8 Register.boardInterrupts))]

def glance : Operation (Stage c n size) UInt8 := fun s => ⟨0, s, summaryRead s.board⟩

def play : Program → Operation (Stage c n size) Unit
  | .done => pure ()
  | .remark text next => do
    Operation.emit [.remark text]
    play next
  | .send i data tag next => do
    let answer ← call (.send i data tag) (Board.send i data tag)
    play (next answer)
  | .enable i d on next => do
    let answer ← call (.enable i d on) (Board.enable i d on)
    play (next answer)
  | .clear scope next => do
    let answer ← call (.clearStatistics scope) (Board.clearStatistics scope)
    play (next answer)
  | .freeSlots i d next => do
    let answer ← freeSlots i d
    play (next answer)
  | .tick next => do
    call .tick Board.tick
    play next
  | .interrupt next => do
    let pending ← glance
    play (next pending)
  | .setHook k hook next => do
    setTable (·.set k hook)
    play next
  | .setHooks table next => do
    setTable fun _ => table
    play next

def hear (h : Hook × Event) : Operation (Stage c n size) Unit := play (h.1 h.2)

def attend (i : Fin c) : Operation (Stage c n size) Unit := fun s =>
  let served := call (.serviceChannel i) (Board.serviceChannel i) s
  let heard := List.forM (s.table.heard (events served.seen)) hear served.state
  ⟨(), heard.state, quiet served.seen ++ heard.seen⟩

abbrev shared (s : Stage c n size) : Shared c n size := Shared.unheld s.board s.table

end Stage

structure Board.Calm (b : Board c n size) : Prop where
  sound : b.Sound
  idle : Call.pending b = 0

section Summary

variable {b : Board c n size}

theorem acknowledged (summary mask : UInt8) :
    (summary &&& ~~~(summary &&& mask)) &&& mask = 0 := by
  refine UInt8.toBitVec_inj.mp (BitVec.eq_of_getLsbD_eq fun k inside => ?_)
  simp only [UInt8.toBitVec_and, UInt8.toBitVec_not, BitVec.getLsbD_and, BitVec.getLsbD_not]
  cases summary.toBitVec.getLsbD k <;> simp

theorem takenCalm (h : b.Sound)
    (clears : b.registers.wiring.clearsOnWrite Register.boardInterrupts = true) :
    (Board.takePending b).state.Calm := by
  refine ⟨h.call .takePending, ?_⟩
  have stored := acknowledged (b.registers.peek8 Register.boardInterrupts) (Board.channelMask c)
  unfold Board.takePending
  rw [if_pos h.up]
  simp only [Board.onRegisters, Operation.bindApply, Registers.read8]
  by_cases idle : b.registers.peek8 Register.boardInterrupts &&& Board.channelMask c = 0
  · simp [idle, Call.pending]
  · simpa [idle, Call.pending, Registers.write8, clears, Registers.peekPoke8] using stored

theorem takePendingCalm (h : b.Calm) :
    Board.takePending b = ⟨0, b, Stage.summaryRead b⟩ := by
  have idle : b.registers.peek8 Register.boardInterrupts &&& Board.channelMask c = 0 := h.idle
  unfold Board.takePending
  rw [if_pos h.sound.up]
  simp [Board.onRegisters, Registers.read8, Stage.summaryRead, idle]

theorem pendingNone : Board.pendingChannels c 0 = [] := by simp [Board.pendingChannels]

theorem handleInterruptCalm (h : b.Calm) : (Board.handleInterrupt b).state = b := by
  simp only [Board.handleInterrupt, Operation.bindApply]
  rw [takePendingCalm h, pendingNone]
  rfl

def Even (b b' : Board c n size) : Prop := Alike (·.toNat < 256) b.registers b'.registers

def Inside (j : Nat) (op : Channel n size → Operation Registers (α × Channel n size)) : Prop :=
  j < Limits.maxChannels → ∀ ch r, Alike (fun o => ¬ Register.Window j o) r (op ch r).state

theorem evenSame {b' : Board c n size} (same : b'.registers = b.registers) : Even b b' := by
  refine ⟨?_, fun o _ => ?_⟩
  all_goals rw [same]

section Even

variable (few : c ≤ Limits.maxChannels) {j : Nat}
include few

theorem evenOnChannel {op : Channel n size → Operation Registers (α × Channel n size)}
    (inside : Inside j op) (low : j < c) : Even b (Board.onChannel j low op b).state := by
  have same := inside (Nat.lt_of_lt_of_le low few) b.channels[j] b.registers
  refine same.mono fun o below window => ?_
  unfold Register.Window at window
  omega

theorem evenSendable
    {op : Channel n size → Operation Registers (Except SendError α × Channel n size)}
    (inside : Inside j op) : Even b (Board.sendable j op b).state := by
  unfold Board.sendable
  split
  · split
    · exact evenOnChannel few inside _
    · exact .refl _
  · exact .refl _

theorem evenChecked
    {op : Thresholds → Channel n size → Operation Registers (α × Channel n size)}
    (inside : Inside j (op b.thresholds)) : Even b (Board.checked j op b).state := by
  unfold Board.checked
  split
  · exact .refl _
  · split
    · exact evenOnChannel few inside _
    · exact .refl _

theorem evenSendFrame (data : Option Bytes) (length : Nat) (tag : UInt64) :
    Even b (Board.sendFrame j data length tag b).state := by
  refine evenSendable few fun low ch r => ?_
  split
  · exact .refl _
  · exact (confinedShare low (.send data length tag) b.thresholds ch).frame r

theorem evenTick (l : List (Fin c)) : Even b (List.forM l Board.tickEach b).state := by
  induction l generalizing b with
  | nil => exact .refl _
  | cons i l ih =>
    have first : Even b (Board.tickEach i b).state := evenOnChannel few
      (fun low ch r => (confinedShare low .tick b.thresholds ch).frame r) i.isLt
    exact first.trans ih

end Even

theorem evenCall (h : b.Calm) (k : Call c) : Even b (k.perform b).state := by
  have few := h.sound.few
  have up := h.sound.up
  have share (s : Share) {j : Nat} (low : j < Limits.maxChannels) (ch : Channel n size)
      (r : Registers) := (confinedShare low s b.thresholds ch).frame r
  cases k with
  | init setup place =>
    refine evenSame ?_
    simp [Call.perform, Operation.silent, Board.init, Board.initError?, up, Board.refuse]
  | enable i d on => exact evenChecked few (share (.enable d on))
  | setMode i mode => exact evenChecked few (share (.setMode mode))
  | resyncLine i => exact evenChecked few (share .resync)
  | serviceChannel i => exact evenChecked few (share .service)
  | tickChannel i => exact evenChecked few (share .tick)
  | clearStatistics scope =>
    cases scope with
    | channel i => exact evenChecked few (share (.clear (.channel i)))
    | line i => exact evenChecked few (share (.clear (.line i)))
    | board =>
      refine evenSame ?_
      simp [Call.perform, Operation.silent, Board.clearStatistics, Board.clearBoard, up]
  | send i data tag => exact evenSendFrame few _ _ _
  | sendPrepared i length tag => exact evenSendFrame few _ _ _
  | prepare i data =>
    refine evenSame ?_
    simp only [Call.perform, Operation.silent, Board.prepare]
    split
    · split <;> rfl
    · rfl
  | takePending => exact evenSame (congrArg (·.state.registers) (takePendingCalm h))
  | handleInterrupt => exact evenSame (congrArg Board.registers (handleInterruptCalm h))
  | tick =>
    have all : Board.tick b = List.forM (List.finRange c) Board.tickEach b := if_pos up
    have each := evenTick (b := b) few (List.finRange c)
    rw [← all] at each
    exact each

theorem Board.Calm.call (h : b.Calm) (k : Call c) : (k.perform b).state.Calm := by
  refine ⟨h.sound.call k, ?_⟩
  rw [Call.pending, (evenCall h k).bytes Register.boardInterrupts (by decide)]
  exact h.idle

theorem Board.Calm.calls (h : b.Calm) (calls : List (Call c)) :
    (run Board.move b (calls.map .call)).Calm := by
  induction calls generalizing b with
  | nil => exact h
  | cons k calls ih => exact ih (h.call k)

end Summary

def Mirrors (session : Session c n size α) (op : Operation (Stage c n size) α) : Prop :=
  ∀ s : Stage c n size, s.board.Calm →
    session s.shared = .ok ⟨(op s).answer, (op s).state.shared, (op s).seen⟩ ∧
      ∃ calls, (op s).state.calls = s.calls ++ calls ∧
        (op s).state.board = run Board.move s.board (calls.map .call)

section Mirrors

theorem mirrorsCalm {session : Session c n size α} {op : Operation (Stage c n size) α}
    (h : Mirrors session op) {s : Stage c n size} (calm : s.board.Calm) :
    (op s).state.board.Calm := by
  obtain ⟨-, calls, -, left⟩ := h s calm
  exact left ▸ calm.calls calls

theorem mirrorsAside {session : Session c n size α} {op : Operation (Stage c n size) α}
    (same : ∀ s : Stage c n size,
      session s.shared = .ok ⟨(op s).answer, (op s).state.shared, (op s).seen⟩)
    (board : ∀ s, (op s).state.board = s.board) (calls : ∀ s, (op s).state.calls = s.calls) :
    Mirrors session op :=
  fun s _ => ⟨same s, [], (calls s).trans (List.append_nil _).symm, board s⟩

theorem mirrorsPure (a : α) : Mirrors (pure a : Session c n size α) (pure a) :=
  mirrorsAside (fun _ => rfl) (fun _ => rfl) fun _ => rfl

theorem mirrorsBind {session : Session c n size α} {op : Operation (Stage c n size) α}
    {next : α → Session c n size β} {after : α → Operation (Stage c n size) β}
    (first : Mirrors session op) (rest : ∀ a, Mirrors (next a) (after a)) :
    Mirrors (session >>= next) (op >>= after) := by
  intro s calm
  obtain ⟨begun, early, counted, reached⟩ := first s calm
  obtain ⟨ended, late, counted', left⟩ :=
    rest (op s).answer (op s).state (mirrorsCalm first calm)
  refine ⟨Shared.bindOk next begun ended, early ++ late, ?_, ?_⟩
  · rw [← List.append_assoc, ← counted]
    exact counted'
  · rw [List.map_append, runAppend, ← reached]
    exact left

theorem mirrorsForM {step : β → Session c n size Unit} {each : β → Operation (Stage c n size) Unit}
    (same : ∀ a, Mirrors (step a) (each a)) (l : List β) :
    Mirrors (List.forM l step) (List.forM l each) := by
  induction l with
  | nil => exact mirrorsPure ()
  | cons a l ih => exact mirrorsBind (same a) fun _ => ih

theorem mirrorsCall {op : Operation (Board c n size) α} (k : Call c)
    (same : ∀ b, (op b).state = (k.perform b).state) :
    Mirrors (Shared.locked op) (Stage.call k op) :=
  fun s _ => ⟨Shared.lockedOk op s.board s.table, [k], rfl, same s.board⟩

theorem mirrorsEmit (seen : List Action) :
    Mirrors (Session.emit seen : Session c n size Unit) (Operation.emit seen) :=
  mirrorsAside (fun _ => rfl) (fun _ => rfl) fun _ => rfl

theorem mirrorsFreeSlots (i : Nat) (d : Direction) :
    Mirrors (Shared.freeSlots i d : Session c n size (Except ConfigError Nat))
      (Stage.freeSlots i d) :=
  mirrorsAside (fun s => Shared.lockedOk _ s.board s.table) (fun _ => rfl) fun _ => rfl

theorem mirrorsSetHook (k : EventKind) (hook : Option Hook) :
    Mirrors (Shared.setHook k hook : Session c n size Unit) (Stage.setTable (·.set k hook)) :=
  mirrorsAside (fun _ => rfl) (fun _ => rfl) fun _ => rfl

theorem mirrorsSetHooks (table : Hooks) :
    Mirrors (Shared.setHooks table : Session c n size Unit) (Stage.setTable fun _ => table) :=
  mirrorsAside (fun _ => rfl) (fun _ => rfl) fun _ => rfl

theorem mirrorsRun {interrupt : Session c n size UInt8} (nested : Mirrors interrupt Stage.glance) :
    (p : Program) → Mirrors (Shared.run interrupt p) (Stage.play p)
  | .done => mirrorsPure ()
  | .remark text next => mirrorsBind (mirrorsEmit [.remark text]) fun _ => mirrorsRun nested next
  | .send i data tag next =>
    mirrorsBind (mirrorsCall (.send i data tag) fun _ => rfl) fun answer =>
      mirrorsRun nested (next answer)
  | .enable i d on next =>
    mirrorsBind (mirrorsCall (.enable i d on) fun _ => rfl) fun answer =>
      mirrorsRun nested (next answer)
  | .clear scope next =>
    mirrorsBind (mirrorsCall (.clearStatistics scope) fun _ => rfl) fun answer =>
      mirrorsRun nested (next answer)
  | .freeSlots i d next =>
    mirrorsBind (mirrorsFreeSlots i d) fun answer => mirrorsRun nested (next answer)
  | .tick next => mirrorsBind (mirrorsCall .tick fun _ => rfl) fun _ => mirrorsRun nested next
  | .interrupt next => mirrorsBind nested fun pending => mirrorsRun nested (next pending)
  | .setHook k hook next => mirrorsBind (mirrorsSetHook k hook) fun _ => mirrorsRun nested next
  | .setHooks table next => mirrorsBind (mirrorsSetHooks table) fun _ => mirrorsRun nested next

theorem mirrorsAttend {interrupt : Session c n size UInt8}
    (nested : Mirrors interrupt Stage.glance) (i : Fin c) :
    Mirrors (Shared.serviceAndDeliver interrupt i) (Stage.attend i) := by
  intro s calm
  have each (h : Hook × Event) : Mirrors (Shared.hear interrupt h) (Stage.hear h) :=
    mirrorsRun nested (h.1 h.2)
  obtain ⟨heard, calls, counted, left⟩ := mirrorsForM each
    (s.table.heard (events (Board.serviceChannel i s.board).seen))
    (Stage.call (.serviceChannel i) (Board.serviceChannel i) s).state (calm.call (.serviceChannel i))
  refine ⟨Shared.served calm.sound s.table i heard, .serviceChannel i :: calls, ?_, left⟩
  exact counted.trans (List.append_assoc _ _ _)

end Mirrors

theorem mirrorsInterrupt (depth : Nat) :
    Mirrors (Shared.handleInterrupt (depth + 1) : Session c n size UInt8) Stage.glance := by
  intro s calm
  have taken := takePendingCalm calm
  have none : List.forM (Board.pendingChannels c (Board.takePending s.board).answer)
      (Shared.serviceAndDeliver (Shared.handleInterrupt depth))
      (Shared.unheld (Board.takePending s.board).state s.table) = .ok ⟨(), s.shared, []⟩ := by
    rw [taken, pendingNone]
    rfl
  have whole := Shared.handled none
  rw [taken, List.append_nil] at whole
  exact ⟨whole, [], (List.append_nil _).symm, rfl⟩

/-- The handler ends and never reaches for a lock that is held, however its hooks enter the board
and itself. What it leaves is what the calls leave that were made on the way, those of the hooks
among them, and between any of them a handler finds nothing pending. -/
theorem hooksReenter (registers : Registers) (strikes : List (Strike c n size)) (t : Hooks)
    (depth : Nat) :
    let b := run Board.suffer ({ registers := registers } : Board c n size) strikes
    let taken := Board.takePending b
    let done := List.forM (Board.pendingChannels c taken.answer) Stage.attend
      ⟨taken.state, t, [.takePending]⟩
    b.registers.wiring = Wiring.board c →
      Shared.handleInterrupt (depth + 2) (Shared.unheld b t) =
        .ok ⟨taken.answer, done.state.shared, taken.seen ++ done.seen⟩ ∧
      done.state.board = run Board.move b (done.state.calls.map .call) ∧
      (b.initialized = true → ∀ (calls : List (Call c)) (t' : Hooks),
        let inside := run Board.move taken.state (calls.map .call)
        Shared.handleInterrupt (depth + 1) (Shared.unheld inside t') =
          .ok ⟨0, Shared.unheld inside t', Stage.summaryRead inside⟩) := by
  intro b taken done wired
  cases up : b.initialized with
  | false =>
    have idle : taken = ⟨0, b, []⟩ := takePendingDown up
    have still : done = ⟨(), ⟨taken.state, t, [.takePending]⟩, []⟩ := by
      simp only [done, idle, pendingNone]
      rfl
    have none : List.forM (Board.pendingChannels c taken.answer)
        (Shared.serviceAndDeliver (Shared.handleInterrupt (depth + 1)))
        (Shared.unheld taken.state t) = .ok ⟨(), done.state.shared, done.seen⟩ := by
      rw [still, idle, pendingNone]
      rfl
    refine ⟨Shared.handled none, ?_, fun on => by contradiction⟩
    rw [still]
    rfl
  | true =>
    have clears : b.registers.wiring.clearsOnWrite Register.boardInterrupts = true := by
      rw [wired]
      rfl
    have calm : taken.state.Calm := takenCalm (sufferUp registers strikes up) clears
    obtain ⟨attended, calls, counted, left⟩ :=
      mirrorsForM (mirrorsAttend (mirrorsInterrupt depth))
        (Board.pendingChannels c taken.answer) ⟨taken.state, t, [.takePending]⟩ calm
    refine ⟨Shared.handled attended, ?_, fun _ calls t' => ?_⟩
    · change done.state.calls = _ at counted
      rw [counted]
      exact left
    · exact (mirrorsInterrupt depth ⟨_, t', []⟩ (calm.calls calls)).1

theorem hookReplacedInside :
    let stray := (((((Registers.blank (Wiring.board 2)).poke8 Register.boardInterrupts 3).poke8
      (Register.interrupts 0) 6).poke8 (Register.status 0 .transmit) 0x20).poke8
      (Register.interrupts 1) 4).poke32 (Register.current 0 .transmit) 192
    let strikes : List (Strike 2 3 4) := [.call (.init {} (Placement.regular 0 64 3)),
      .call (.enable 0 .transmit true), .noise (.registers 2 3 4 stray)]
    let b := run Board.suffer { registers := .blank (Wiring.board 2) } strikes
    let early : Hook := fun _ => .remark "early" .done
    let late : Hook := fun _ => .remark "late" .done
    let failed : Hook := fun _ => .send 0 [9] 7 fun _ => .interrupt fun pending =>
      .remark (if pending = 0 then "idle" else "pending") (.setHook .modemChanged (some late) .done)
    let t : Hooks := { failed := some failed, modemChanged := some early }
    let inside := run Board.move (Board.takePending b).state [.call (.send 0 [9] 7)]
    (∃ done, Shared.handleInterrupt 2 (Shared.unheld b t) = .ok done ∧
      done.answer = 3 ∧ spoken done.seen = ["idle", "early", "late"] ∧
      done.state.board.value.freeSlots 0 .transmit = .ok 1) ∧
      Shared.handleInterrupt 1 (Shared.unheld inside t) =
        .ok ⟨0, Shared.unheld inside t, Stage.summaryRead inside⟩ := by
  intro stray strikes b early late failed t inside
  have wired : b.registers.wiring = Wiring.board 2 := rfl
  have up : b.initialized = true := rfl
  obtain ⟨ok, -, nested⟩ := hooksReenter (.blank (Wiring.board 2)) strikes t 0 wired
  refine ⟨⟨_, ok, ?_, ?_, ?_⟩, nested up [.send 0 [9] 7] t⟩ <;> decide +kernel

end SerialAdapter
