import SerialAdapter.Proofs.Channel.Telling
import SerialAdapter.Shared

/-! The interrupt handler of a shared board under siege: before every locked section the hardware
strikes once more, also between the calls of the hooks, and the batch asserts that it has room; an
assertion that fails ends the session as `lost`. A siege without noise is the handler itself, and
under any noise no assertion fails. -/
namespace SerialAdapter

variable {c n size : Nat} {α β : Type}

section Service

variable {b : Board c n size} (up : b.initialized = true) (i : Fin c)
include up

theorem serviceChannelDone : (Board.serviceChannel i b).answer = .ok () ∧
    (Board.serviceChannel i b).state.channel i =
      ((b.channel i).service i b.registers).answer ∧
    (Board.serviceChannel i b).seen = ((b.channel i).service i b.registers).seen := by
  have low : (i : Nat) < c := i.isLt
  have high : ¬ c ≤ (i : Nat) := by omega
  unfold Board.serviceChannel Board.change Board.checked Board.obstacle?
  simp only [up, Bool.not_true, Bool.false_eq_true, ↓reduceIte, high, low, ↓reduceDIte]
  refine ⟨rfl, ?_, ?_⟩
  · change (b.channels.set i _)[i] = _
    simp
  · change (((b.channel i).service i b.registers).seen ++ []) ++ [] = _
    simp

end Service

namespace Shared

def serviceAsserting (i : Nat) :
    Operation (Board c n size) (Option (Except ConfigError (Batch n size))) := fun b =>
  let done := Board.serviceChannel i b
  let recorded := match done.answer with
    | .ok () => (Batch.recordAll? { channel := i } (events done.seen)).map .ok
    | .error cause => some (.error cause)
  ⟨recorded, done.state, done.seen.filter (·.event?.isNone)⟩

theorem assertingBatch {b : Board c n size} (h : b.Sound) (i : Fin c) :
    serviceAsserting i b =
      ⟨some (serviceBatch i b).answer, (serviceBatch i b).state, (serviceBatch i b).seen⟩ := by
  have low := Nat.lt_of_lt_of_le i.isLt h.few
  obtain ⟨answer, -, seen⟩ := serviceChannelDone h.up i
  obtain ⟨batch, told⟩ := serviceTelling low h.room (h.channels i) b.registers
  have kept : Batch.recordAll? { channel := i } (events (Board.serviceChannel i b).seen) =
      some batch := by
    rw [seen, told.events, ← told.channel]
    exact Batch.replayed (toldFits (h.channels i) told)
  have same := Batch.recordAllSome kept
  unfold serviceAsserting serviceBatch
  dsimp only
  rw [answer, kept, same]
  rfl

inductive Breach where
  | fault (fault : SharedFault)
  | lost

end Shared

abbrev Siege (c n size : Nat) := StateT (Nat × Shared c n size) (Except Shared.Breach)

namespace Siege

open Shared

variable (noise : Nat → Noise c n size)

def struck (w : Noise c n size) (s : Shared c n size) : Shared c n size :=
  { s with board := { s.board with value := w.change s.board.value } }

def outcome (time : Nat) : Except SharedFault (Outcome (Shared c n size) α) →
    Except Breach (α × Nat × Shared c n size)
  | .error fault => .error (.fault fault)
  | .ok done => .ok (done.answer, time, done.state)

def under (session : Session c n size α) : Siege c n size α := fun (time, s) =>
  outcome (time + 1) (session (struck (noise time) s))

def service (i : Nat) : Siege c n size (Except ConfigError (Batch n size)) := do
  match ← under noise (locked (serviceAsserting i)) with
  | none => throw .lost
  | some serviced => pure serviced

def run (interrupt : Siege c n size UInt8) : Program → Siege c n size Unit
  | .done => pure ()
  | .remark text next => do
    under noise (Session.emit [.remark text])
    run interrupt next
  | .send i data tag next => do
    let answer ← under noise (send i data tag)
    run interrupt (next answer)
  | .enable i d on next => do
    let answer ← under noise (locked (Board.enable i d on))
    run interrupt (next answer)
  | .clear scope next => do
    let answer ← under noise (locked (Board.clearStatistics scope))
    run interrupt (next answer)
  | .freeSlots i d next => do
    let answer ← under noise (freeSlots i d)
    run interrupt (next answer)
  | .tick next => do
    under noise tick
    run interrupt next
  | .interrupt next => do
    let pending ← interrupt
    run interrupt (next pending)
  | .setHook k hook next => do
    under noise (setHook k hook)
    run interrupt next
  | .setHooks table next => do
    under noise (setHooks table)
    run interrupt next

def deliver (interrupt : Siege c n size UInt8) (es : List Event) : Siege c n size Unit := do
  let table ← under noise readHooks
  List.forM (table.heard es) fun h => run noise interrupt (h.1 h.2)

def serviceAndDeliver (interrupt : Siege c n size UInt8) (i : Fin c) : Siege c n size Unit := do
  let serviced ← service noise i
  match serviced with
  | .error _ => pure ()
  | .ok batch => if batch.isEmpty then pure () else deliver noise interrupt batch.events

def handleInterrupt : (depth : Nat) → Siege c n size UInt8
  | 0 => under noise (Session.fail .nestedTooDeep)
  | depth + 1 => do
    let pending ← under noise (locked Board.takePending)
    List.forM (Board.pendingChannels c pending)
      (serviceAndDeliver noise (handleInterrupt depth))
    return pending

def Holds : Except Breach (α × Nat × Shared c n size) → Prop
  | .ok done => done.2.2.board.value.Sound
  | .error (.fault _) => True
  | .error .lost => False

def Upholds (siege : Siege c n size α) : Prop :=
  ∀ time s, s.board.value.Sound → Holds (siege (time, s))

theorem upholdsPure (a : α) : Upholds (pure a : Siege c n size α) := fun _ _ sound => sound

theorem upholdsBind {siege : Siege c n size α} {next : α → Siege c n size β}
    (first : Upholds siege) (rest : ∀ a, Upholds (next a)) : Upholds (siege >>= next) := by
  intro time s sound
  have done := first time s sound
  change Holds (siege (time, s) >>= fun p => next p.1 p.2)
  cases result : siege (time, s) with
  | error breach =>
    rw [result] at done
    cases breach with
    | fault fault => exact done
    | lost => exact done.elim
  | ok p =>
    rw [result] at done
    exact rest p.1 p.2.1 p.2.2 done

def Keeps (session : Session c n size α) : Prop :=
  ∀ s, s.board.value.Sound → ∀ done, session s = .ok done → done.state.board.value.Sound

theorem upholdsUnder {session : Session c n size α} (keeps : Keeps session) :
    Upholds (under noise session) := by
  intro time s sound
  have still : (struck (noise time) s).board.value.Sound := sound.noise (noise time)
  change Holds (outcome (time + 1) (session (struck (noise time) s)))
  cases result : session (struck (noise time) s) with
  | error fault => trivial
  | ok done => exact keeps _ still done result

theorem lockedApply (op : Operation (Board c n size) α) (s : Shared c n size) :
    locked op s = if s.board.held then .error .heldLock else
      .ok ⟨(op s.board.value).answer, { s with board := ⟨(op s.board.value).state, false⟩ },
        (op s.board.value).seen⟩ := by
  unfold locked Lock.hold?
  cases s.board.held <;> rfl

theorem keepsLocked {op : Operation (Board c n size) α}
    (kept : ∀ b : Board c n size, b.Sound → (op b).state.Sound) : Keeps (locked op) := by
  intro s sound done ok
  rw [lockedApply] at ok
  split at ok
  · contradiction
  · cases ok
    exact kept _ sound

theorem keepsHooks {session : Session c n size α}
    (apart : ∀ s done, session s = .ok done → done.state.board = s.board) : Keeps session := by
  intro s sound done ok
  rw [apart s done ok]
  exact sound

theorem keepsReadHooks : Keeps (readHooks : Session c n size Hooks) := by
  refine keepsHooks fun s done ok => ?_
  unfold readHooks at ok
  split at ok
  · contradiction
  · cases ok
    rfl

theorem keepsSetHooks (table : Hooks) : Keeps (setHooks table : Session c n size Unit) := by
  refine keepsHooks fun s done ok => ?_
  unfold setHooks at ok
  split at ok
  · contradiction
  · cases ok
    rfl

theorem keepsSetHook (k : EventKind) (hook : Option Hook) :
    Keeps (setHook k hook : Session c n size Unit) := by
  refine keepsHooks fun s done ok => ?_
  unfold setHook at ok
  split at ok
  · contradiction
  · cases ok
    rfl

theorem keepsEmit (seen : List Action) : Keeps (Session.emit seen : Session c n size Unit) := by
  refine keepsHooks fun s done ok => ?_
  cases ok
  rfl

theorem serviceSame (i : Fin c) (time : Nat) {s : Shared c n size} (sound : s.board.value.Sound) :
    service noise (i : Nat) (time, s) = under noise (locked (serviceBatch i)) (time, s) := by
  -- the noise may have struck just before, and what is asserted holds nevertheless
  have still : (struck (noise time) s).board.value.Sound := sound.noise (noise time)
  obtain ⟨s', here⟩ : ∃ s', struck (noise time) s = s' := ⟨_, rfl⟩
  rw [here] at still
  change (under noise (locked (serviceAsserting i)) (time, s) >>= fun p =>
    (match p.1 with
      | none => throw .lost
      | some serviced => pure serviced : Siege c n size _) p.2) = _
  unfold under
  dsimp only
  rw [here, lockedApply, lockedApply, assertingBatch still i]
  cases s'.board.held <;> rfl

theorem upholdsService (i : Fin c) : Upholds (service noise (i : Nat) : Siege c n size _) := by
  intro time s sound
  rw [serviceSame noise i time sound]
  refine upholdsUnder noise (keepsLocked fun b kept => ?_) time s sound
  exact kept.call (.serviceChannel i)

def Quiet : Prop := ∀ time, noise time = .none c n size

structure Follows (siege : Siege c n size α) (session : Session c n size α) : Prop where
  upholds : Upholds siege
  same : Quiet noise → ∀ time s, s.board.value.Sound →
    ∃ time', siege (time, s) = outcome time' (session s)

theorem followsPure (a : α) : Follows noise (pure a : Siege c n size α) (pure a) :=
  ⟨upholdsPure a, fun _ time _ _ => ⟨time, rfl⟩⟩

theorem followsUnder {session : Session c n size α} (keeps : Keeps session) :
    Follows noise (under noise session) session := by
  refine ⟨upholdsUnder noise keeps, fun quiet time s _ => ⟨time + 1, ?_⟩⟩
  unfold under
  dsimp only
  rw [quiet time]
  rfl

theorem followsBind {siege : Siege c n size α} {session : Session c n size α}
    {next : α → Siege c n size β} {after : α → Session c n size β}
    (first : Follows noise siege session) (rest : ∀ a, Follows noise (next a) (after a)) :
    Follows noise (siege >>= next) (session >>= after) := by
  refine ⟨upholdsBind first.upholds fun a => (rest a).upholds, fun quiet time s sound => ?_⟩
  have holds := first.upholds time s sound
  obtain ⟨between, one⟩ := first.same quiet time s sound
  change ∃ time', (siege (time, s) >>= fun p => next p.1 p.2) =
    outcome time' (Session.bind session after s)
  unfold Session.bind
  rw [one] at holds ⊢
  cases result : session s with
  | error fault => exact ⟨time, rfl⟩
  | ok done =>
    rw [result] at holds
    obtain ⟨last, two⟩ := (rest done.answer).same quiet between done.state holds
    refine ⟨last, two.trans ?_⟩
    dsimp only
    cases after done.answer done.state <;> rfl

theorem followsForM {l : List β} {step : β → Siege c n size Unit}
    {step' : β → Session c n size Unit} (each : ∀ a, Follows noise (step a) (step' a)) :
    Follows noise (List.forM l step) (List.forM l step') := by
  induction l with
  | nil => exact followsPure noise ()
  | cons a l ih => exact followsBind noise (each a) fun _ => ih

theorem followsLocked {op : Operation (Board c n size) α}
    (kept : ∀ b : Board c n size, b.Sound → (op b).state.Sound) :
    Follows noise (under noise (locked op)) (locked op) := followsUnder noise (keepsLocked kept)

theorem followsService (i : Fin c) :
    Follows noise (service noise (i : Nat)) (locked (serviceBatch (i : Nat))) := by
  have follows : Follows noise (under noise (locked (serviceBatch (i : Nat)))) _ :=
    followsLocked noise fun _ sound => sound.call (.serviceChannel i)
  refine ⟨upholdsService noise i, fun quiet time s sound => ?_⟩
  rw [serviceSame noise i time sound]
  exact follows.same quiet time s sound

theorem followsRun {interrupt : Siege c n size UInt8} {again : Session c n size UInt8}
    (same : Follows noise interrupt again) :
    (program : Program) → Follows noise (run noise interrupt program) (Shared.run again program)
  | .done => followsPure noise ()
  | .remark text next =>
    followsBind noise (followsUnder noise (keepsEmit [.remark text])) fun _ => followsRun same next
  | .send i data tag next =>
    followsBind noise (followsLocked noise fun _ sound => sound.call (.send i data tag))
      fun answer => followsRun same (next answer)
  | .enable i d on next =>
    followsBind noise (followsLocked noise fun _ sound => sound.call (.enable i d on))
      fun answer => followsRun same (next answer)
  | .clear scope next =>
    followsBind noise (followsLocked noise fun _ sound => sound.call (.clearStatistics scope))
      fun answer => followsRun same (next answer)
  | .freeSlots _ _ next =>
    followsBind noise (followsLocked noise fun _ sound => sound)
      fun answer => followsRun same (next answer)
  | .tick next =>
    followsBind noise (followsLocked noise fun _ sound => sound.call .tick)
      fun _ => followsRun same next
  | .interrupt next => followsBind noise same fun pending => followsRun same (next pending)
  | .setHook k hook next =>
    followsBind noise (followsUnder noise (keepsSetHook k hook)) fun _ => followsRun same next
  | .setHooks table next =>
    followsBind noise (followsUnder noise (keepsSetHooks table)) fun _ => followsRun same next

theorem followsDeliver {interrupt : Siege c n size UInt8} {again : Session c n size UInt8}
    (same : Follows noise interrupt again) (es : List Event) :
    Follows noise (deliver noise interrupt es) (Shared.deliver again es) :=
  followsBind noise (followsUnder noise keepsReadHooks) fun _ =>
    followsForM noise fun h => followsRun noise same (h.1 h.2)

theorem followsServiceAndDeliver {interrupt : Siege c n size UInt8}
    {again : Session c n size UInt8} (same : Follows noise interrupt again) (i : Fin c) :
    Follows noise (serviceAndDeliver noise interrupt i) (Shared.serviceAndDeliver again i) := by
  refine followsBind noise (followsService noise i) fun serviced => ?_
  cases serviced with
  | error cause => exact followsPure noise ()
  | ok batch =>
    dsimp only
    split
    · exact followsPure noise ()
    · exact followsDeliver noise same batch.events

theorem followsHandleInterrupt (depth : Nat) :
    Follows noise (handleInterrupt noise depth) (Shared.handleInterrupt depth) := by
  induction depth with
  | zero => exact followsUnder noise fun s sound done ok => by contradiction
  | succ depth ih =>
    refine followsBind noise (followsLocked noise fun b sound => sound.call .takePending)
      fun pending => ?_
    exact followsBind noise (followsForM noise fun i => followsServiceAndDeliver noise ih i)
      fun _ => followsPure noise pending

end Siege

/-- After any calls and any noise the indices are in range, an enabled receiver is armed in full,
and exactly the frames in flight have tags. The next service of any channel fills a batch that
replays all its events, and no assertion of the interrupt handler fails, whatever the hooks call
and the hardware does meanwhile. -/
theorem nothingLost {b : Board c n size} {setup : BoardSetup c}
    {place : Nat → Direction → Placement} (up : (Board.init setup place b).answer = .ok ())
    (strikes : List (Strike c n size)) :
    let now := run Board.suffer (Board.init setup place b).state strikes
    (∀ i : Fin c,
      let receive := (now.channel i).rings.receive
      let transmit := (now.channel i).rings.transmit
      (receive.oldest < n ∧ receive.next < n) ∧ (transmit.oldest < n ∧ transmit.next < n) ∧
      ((now.channel i).receiving = true → receive.inFlight = n - 1) ∧
      ∀ k, k < n → ((transmit.slot (transmit.oldest + k)).tag.isSome = true ↔
        k < transmit.inFlight)) ∧
    (∀ i : Fin c, ∃ batch : Batch n size,
      let done := Board.serviceChannel i now
      Batch.recordAll? { channel := i } (events done.seen) = some batch ∧
      batch.events = events done.seen ∧
      batch.received.length ≤ n - 1 ∧ (∀ r ∈ batch.received, r ≠ .error .underrun) ∧
      (restartsIn i done.seen = true → batch.received = [.error .overflow]) ∧
      batch.sent.length ≤ n - 1 ∧
      batch.sent.length + (done.state.channel i).rings.transmit.inFlight =
        (now.channel i).rings.transmit.inFlight) ∧
    ∀ (noise : Nat → Noise c n size) (depth time : Nat) (held : Bool) (hooks : Lock Hooks),
      let s : Shared c n size := ⟨⟨now, held⟩, hooks⟩
      Siege.handleInterrupt noise depth (time, s) ≠ .error .lost ∧
      ((∀ t, noise t = .none c n size) → ∃ time',
        Siege.handleInterrupt noise depth (time, s) =
          Siege.outcome time' (Shared.handleInterrupt depth s)) := by
  intro now
  have sound : now.Sound := sufferSound (initSound up) strikes
  refine ⟨fun i => ?_, fun i => ?_, fun noise depth time held hooks => ?_⟩
  · have ch := sound.channels i
    exact ⟨⟨ch.indexed.oldest, ch.indexed.next⟩, ⟨ch.tagged.indexed.oldest, ch.tagged.indexed.next⟩,
      ch.armed, fun k low => SlotRing.taggedAt ch.tagged low⟩
  · have ch := sound.channels i
    obtain ⟨-, state, seen⟩ := serviceChannelDone sound.up i
    obtain ⟨batch, told⟩ := serviceTelling (Nat.lt_of_lt_of_le i.isLt sound.few) sound.room ch
      now.registers
    have most := SlotRing.inFlightLt ch.tagged.indexed
    have reclaimed := told.reclaimed
    refine ⟨batch, ?_, ?_, told.received, fun r shown same => ?_, fun on => ?_, by omega, ?_⟩
    · rw [seen, told.events, ← told.channel]
      exact Batch.replayed (toldFits ch told)
    · rw [seen]
      exact told.events.symm
    · have own := told.sound r shown
      rw [same] at own
      exact own rfl
    · rw [seen] at on
      exact told.restarted on
    · rw [state]
      exact reclaimed
  · have follows : Siege.Follows noise _ (Shared.handleInterrupt depth) :=
      Siege.followsHandleInterrupt noise depth
    refine ⟨fun lost => ?_, fun quiet => follows.same quiet time _ sound⟩
    have holds := follows.upholds time ⟨⟨now, held⟩, hooks⟩ sound
    rw [lost] at holds
    exact holds

theorem strayControllersContained :
    let b : Board 1 3 4 := { registers := .blank (Wiring.board 1) }
    let place := Placement.regular 0 64 3
    let stray := ((((((Registers.blank (Wiring.board 1)).poke8 Register.boardInterrupts 1).poke8
      (Register.interrupts 0) 7).poke8 (Register.status 0 .receive) 0xFF).poke8
      (Register.status 0 .transmit) 0xFF).poke32 (Register.current 0 .receive) 0xFFFFFFFF).poke32
      (Register.current 0 .transmit) 5
    let strikes : List (Strike 1 3 4) :=
      [.call (.enable 0 .transmit true), .call (.send 0 [1, 2, 3] 7),
        .call (.enable 0 .receive true), .noise (.registers 1 3 4 stray)]
    let now := run Board.suffer (Board.init {} place b).state strikes
    (∃ batch : Batch 3 4, batch.events = events (Board.serviceChannel 0 now).seen ∧
      batch.received = [.error .overflow] ∧ batch.sent = []) ∧
    Siege.handleInterrupt (fun _ => .registers 1 3 4 stray) 2 (0, ⟨⟨now, false⟩, ⟨{}, false⟩⟩) ≠
      .error .lost := by
  intro b place stray strikes now
  have up : (Board.init {} place b).answer = .ok () := rfl
  have fault : restartsIn 0 (Board.serviceChannel 0 now).seen = true := by decide +kernel
  have before : (now.channel 0).rings.transmit.inFlight = 1 := by decide +kernel
  have after : ((Board.serviceChannel 0 now).state.channel 0).rings.transmit.inFlight = 1 := by
    decide +kernel
  obtain ⟨-, served, siege⟩ := nothingLost up strikes
  obtain ⟨batch, -, replays, -, -, restarted, -, reclaimed⟩ := served 0
  refine ⟨⟨batch, replays, restarted fault, ?_⟩, (siege _ 2 0 false ⟨{}, false⟩).1⟩
  have one : batch.sent.length + 1 = 1 :=
    (congrArg (batch.sent.length + ·) after).symm.trans (reclaimed.trans before)
  exact List.eq_nil_of_length_eq_zero (by omega)

end SerialAdapter
