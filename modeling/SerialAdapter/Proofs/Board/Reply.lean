import SerialAdapter.Proofs.Board.Call

/-! What a call answers, and where it does its work. A call that names a channel is refused, or is
one operation on that channel; this holds of a board that is up. The calls on the whole board have
no such form here. -/
namespace SerialAdapter

inductive Reply where
  | none
  | config (result : Except ConfigError Unit)
  | send (result : Except SendError Unit)
  | copied (bytes : Option Nat)
  | free (slots : Except ConfigError Nat)
  | pending (channels : UInt8)
  | second (result : Except ConfigError (Option Telemetry.Verdict))

namespace Operation

variable {σ α β : Type}

def recast (f : α → β) (op : Operation σ α) : Operation σ β := fun s =>
  ⟨f (op s).answer, (op s).state, (op s).seen⟩

@[simp] theorem recastApply (f : α → β) (op : Operation σ α) (s : σ) :
    op.recast f s = ⟨f (op s).answer, (op s).state, (op s).seen⟩ := rfl

theorem mapRecast (f : α → β) (op : Operation σ α) : f <$> op = op.recast f := by
  funext s
  exact congrArg (Outcome.mk _ _) (List.append_nil _)

end Operation

abbrev Channel.Work (n size : Nat) (α : Type) : Type :=
  Channel n size → Operation Registers (α × Channel n size)

namespace Call

variable {c n size : Nat}

def ask : Call c → Operation (Board c n size) Reply
  | .init setup place => (Board.init setup place).recast .config
  | .enable i d on => (Board.enable i d on).recast .config
  | .setMode i mode => (Board.setMode i mode).recast .config
  | .resyncLine i => (Board.resyncLine i).recast .config
  | .clearStatistics scope => (Board.clearStatistics scope).recast .config
  | .send i data tag => (Board.send i data tag).recast .send
  | .sendPrepared i length tag => (Board.sendPrepared i length tag).recast .send
  | .prepare i data => (Board.prepare i data).recast .copied
  | .takePending => Board.takePending.recast .pending
  | .serviceChannel i => (Board.serviceChannel i).recast .config
  | .handleInterrupt => Board.handleInterrupt.recast fun _ => .none
  | .tickChannel i => (Board.tickChannel i).recast .second
  | .tick => Board.tick.recast fun _ => .none

theorem askSilent (k : Call c) : (k.ask : Operation (Board c n size) Reply).silent = k.perform := by
  cases k <;> rfl

def channel? : Call c → Option Nat
  | .enable i .. | .setMode i _ | .resyncLine i | .clearStatistics (.channel i)
  | .clearStatistics (.line i) | .send i .. | .sendPrepared i .. | .prepare i _
  | .serviceChannel i | .tickChannel i => some i
  | .init .. | .clearStatistics .board | .takePending | .handleInterrupt | .tick => Option.none

def sendWithin (i : Nat) (data : Option Bytes) (length : Nat) (tag : UInt64) :
    Channel.Work n size Reply := fun ch =>
  if ch.transmitting then
    if length = 0 then pure (.send (.error .invalidLength), ch)
    else (ch.send i data length tag).recast fun done => (.send done.1, done.2)
  else pure (.send (.error .notEnabled), ch)

def within (i : Nat) (t : Thresholds) : Call c → Channel.Work n size Reply
  | .enable _ d on, ch => (ch.enable i d on).recast (.config (.ok ()), ·)
  | .setMode _ mode, ch => (ch.setMode i mode t).recast (.config (.ok ()), ·)
  | .resyncLine _, ch => pure (.config (.ok ()), ch.resync t)
  | .clearStatistics scope, ch => Operation.recast (.config (.ok ()), ·) do
    Operation.notify (.cleared scope)
    return ch.clear scope
  | .send _ data tag, ch => sendWithin i (some data) data.length tag ch
  | .sendPrepared _ length tag, ch => sendWithin i none length tag ch
  | .prepare _ data, ch =>
    if ch.transmitting then pure (.copied (ch.prepare data).1, (ch.prepare data).2)
    else pure (.copied none, ch)
  | .serviceChannel _, ch => (ch.service i).recast (.config (.ok ()), ·)
  | .tickChannel _, ch => (ch.tick i t).recast fun done => (.second (.ok done.1), done.2)
  | .init .., ch | .takePending, ch | .handleInterrupt, ch | .tick, ch => pure (.none, ch)

section Within

variable {b : Board c n size} {i : Nat} (low : i < c)
include low

theorem checkedWithin (up : b.initialized = true) {α : Type}
    (op : Thresholds → Channel n size → Operation Registers (α × Channel n size)) :
    Board.checked i op b = Operation.recast .ok (Board.onChannel i low (op b.thresholds)) b := by
  have inside : ¬ c ≤ i := by omega
  simp [Board.checked, Board.obstacle?, up, inside, low, Operation.mapRecast]

theorem changeDone (up : b.initialized = true)
    (op : Thresholds → Channel n size → Operation Registers (Channel n size)) :
    Board.change i op b =
      ⟨.ok (),
        { b with
          registers := (op b.thresholds b.channels[i] b.registers).state
          channels := b.channels.set i (op b.thresholds b.channels[i] b.registers).answer },
        (op b.thresholds b.channels[i] b.registers).seen⟩ := by
  simp [Board.change, checkedWithin low up, Board.onChannel, Operation.recast]

theorem changeWithin (up : b.initialized = true)
    (op : Thresholds → Channel n size → Operation Registers (Channel n size)) :
    (Board.change i op).recast Reply.config b =
      Board.onChannel i low
        (fun ch => (op b.thresholds ch).recast (Reply.config (.ok ()), ·)) b := by
  simp [Board.change, checkedWithin low up, Board.onChannel]

theorem sendableWithin (data : Option Bytes) (length : Nat) (tag : UInt64) :
    (Board.sendFrame i data length tag).recast Reply.send b =
      Board.onChannel i low (sendWithin i data length tag) b := by
  cases on : b.channels[i].transmitting <;> by_cases empty : length = 0 <;>
    simp [Board.sendFrame, Board.sendable, sendWithin, low, on, empty, Board.onChannel,
      Board.refuse]

theorem prepareWithin (data : Bytes) :
    (Board.prepare i data).recast Reply.copied b =
      Board.onChannel i low (fun ch =>
        if ch.transmitting then pure (Reply.copied (ch.prepare data).1, (ch.prepare data).2)
        else pure (Reply.copied none, ch)) b := by
  cases on : b.channels[i].transmitting <;>
    simp [Board.prepare, low, on, Board.onChannel]

theorem askWithin (up : b.initialized = true) {k : Call c} (named : k.channel? = some i) :
    k.ask b = Board.onChannel i low (k.within i b.thresholds) b := by
  cases k with
  | enable j d on =>
    cases named
    exact changeWithin low up _
  | setMode j mode =>
    cases named
    exact changeWithin low up _
  | resyncLine j =>
    cases named
    exact changeWithin low up _
  | clearStatistics scope =>
    cases scope with
    | channel j =>
      cases named
      rw [ask, Board.clearStatistics, Board.clearChannel, changeWithin low up]
      rfl
    | line j =>
      cases named
      rw [ask, Board.clearStatistics, Board.clearChannel, changeWithin low up]
      rfl
    | board => contradiction
  | send j data tag =>
    cases named
    exact sendableWithin low _ _ _
  | sendPrepared j length tag =>
    cases named
    exact sendableWithin low _ _ _
  | prepare j data =>
    cases named
    exact prepareWithin low data
  | serviceChannel j =>
    cases named
    exact changeWithin low up _
  | tickChannel j =>
    cases named
    simp [ask, within, Board.tickChannel, checkedWithin low up, Board.onChannel]
  | _ => contradiction

end Within

end Call

end SerialAdapter
