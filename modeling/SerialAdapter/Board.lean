import SerialAdapter.Channel

/-! The board: a register window, up to eight channels and the thresholds they share. Calls that
name a channel are refused before initialisation and for a channel the board does not have; a
refused call leaves everything as it was and shows nothing. -/
namespace SerialAdapter

structure Board (c n size : Nat) where
  registers : Registers
  channels : Vector (Channel n size) c := Vector.replicate c {}
  thresholds : Thresholds := {}
  initialized : Bool := false

namespace Board

variable {c n size : Nat} {α : Type}

def onChannel (i : Nat) (h : i < c)
    (op : Channel n size → Operation Registers (α × Channel n size)) :
    Operation (Board c n size) α := fun b =>
  let done := op b.channels[i] b.registers
  ⟨done.answer.1,
    { b with registers := done.state, channels := b.channels.set i done.answer.2 }, done.seen⟩

def refuse {ε : Type} (error : ε) : Operation (Board c n size) (Except ε α) :=
  pure (.error error)

def obstacle? (b : Board c n size) (i : Nat) : Option ConfigError :=
  if !b.initialized then some .notInitialized
  else if c ≤ i then some .invalidChannel
  else none

def checked (i : Nat)
    (op : Thresholds → Channel n size → Operation Registers (α × Channel n size)) :
    Operation (Board c n size) (Except ConfigError α) := fun b =>
  match b.obstacle? i with
  | some error => refuse error b
  | none =>
    if h : i < c then (.ok <$> onChannel i h (op b.thresholds)) b
    else refuse .invalidChannel b

def change (i : Nat) (op : Thresholds → Channel n size → Operation Registers (Channel n size)) :
    Operation (Board c n size) (Except ConfigError Unit) :=
  checked i fun t ch => do
    let ch ← op t ch
    return ((), ch)

def acceptable (c n size : Nat) : Bool :=
  0 < c && c ≤ Limits.maxChannels && 2 ≤ n && 0 < size && size ≤ Limits.maxBufferSize

def initError? (b : Board c n size) (setup : BoardSetup c) : Option ConfigError :=
  if b.initialized then some .alreadyInitialized
  else if !acceptable c n size || !setup.thresholds.usable then some .invalidConfig
  else none

def channelMask (c : Nat) : UInt8 := UInt8.ofNat ((1 <<< min c 8) - 1)

def resetControllers : Operation Registers Unit := do
  Registers.write8 Register.boardReset 1
  Operation.emit [.wait Limits.resetPulseMicros]
  Registers.write8 Register.boardReset 0
  Operation.emit [.wait Limits.resetSettleMicros]

def initChannel (setup : BoardSetup c) (place : Nat → Direction → Placement) (i : Fin c) :
    Operation (Board c n size) Unit :=
  onChannel i i.isLt fun ch => do
    let ch ← ch.init i setup.channels[i] (place i) setup.thresholds
    return ((), ch)

def onRegisters (op : Operation Registers α) : Operation (Board c n size) α := fun b =>
  let done := op b.registers
  ⟨done.answer, { b with registers := done.state }, done.seen⟩

def bringUp (setup : BoardSetup c) (place : Nat → Direction → Placement) :
    Operation (Board c n size) Unit := do
  onRegisters resetControllers
  List.forM (List.finRange c) (initChannel setup place)
  onRegisters (Registers.write8 Register.boardInterrupts (channelMask c))
  Operation.notify (.boardReady c n size)

def init (setup : BoardSetup c) (place : Nat → Direction → Placement) :
    Operation (Board c n size) (Except ConfigError Unit) := fun b =>
  match b.initError? setup with
  | some error => refuse error b
  | none =>
    let done := bringUp setup place { b with thresholds := setup.thresholds }
    ⟨.ok (), { done.state with initialized := true }, done.seen⟩

def enable (i : Nat) (d : Direction) (on : Bool) :
    Operation (Board c n size) (Except ConfigError Unit) :=
  change i fun _ ch => ch.enable i d on

def setMode (i : Nat) (mode : ChannelMode) :
    Operation (Board c n size) (Except ConfigError Unit) :=
  change i fun t ch => ch.setMode i mode t

def resyncLine (i : Nat) : Operation (Board c n size) (Except ConfigError Unit) :=
  change i fun t ch => pure (ch.resync t)

def clearChannel (i : Nat) (scope : ClearScope) :
    Operation (Board c n size) (Except ConfigError Unit) :=
  change i fun _ ch => do
    Operation.notify (.cleared scope)
    return ch.clear scope

def clearBoard : Operation (Board c n size) (Except ConfigError Unit) := fun b =>
  if b.initialized then
    ⟨.ok (), { b with channels := b.channels.map (·.clear .board) }, [.notice (.cleared .board)]⟩
  else refuse .notInitialized b

def clearStatistics (scope : ClearScope) :
    Operation (Board c n size) (Except ConfigError Unit) :=
  match scope with
  | .channel i | .line i => clearChannel i scope
  | .board => clearBoard

def freeSlots (b : Board c n size) (i : Nat) (d : Direction) : Except ConfigError Nat :=
  match b.channels[i]? with
  | some ch => .ok (ch.free d)
  | none => .error .invalidChannel

def sendable (i : Nat)
    (op : Channel n size → Operation Registers (Except SendError α × Channel n size)) :
    Operation (Board c n size) (Except SendError α) := fun b =>
  if h : i < c then
    if b.channels[i].transmitting then onChannel i h op b
    else refuse .notEnabled b
  else refuse .invalidChannel b

def sendFrame (i : Nat) (data : Option Bytes) (length : Nat) (tag : UInt64) :
    Operation (Board c n size) (Except SendError Unit) :=
  sendable i fun ch =>
    if length = 0 then pure (.error .invalidLength, ch) else ch.send i data length tag

def send (i : Nat) (data : Bytes) (tag : UInt64) :
    Operation (Board c n size) (Except SendError Unit) :=
  sendFrame i (some data) data.length tag

def sendPrepared (i : Nat) (length : Nat) (tag : UInt64) :
    Operation (Board c n size) (Except SendError Unit) :=
  sendFrame i none length tag

def openWith (i : Nat) (data : Bytes) (tag : UInt64) :
    Operation (Board c n size) (Except BoardError Unit) := do
  match ← enable i .transmit true with
  | .error cause => return .error (.config cause)
  | .ok () =>
    let answer ← send i data tag
    return answer.mapError .send

def nextBuffer? (b : Board c n size) (i : Nat) : Option (Buffer size) :=
  match b.channels[i]? with
  | some ch => if ch.transmitting then ch.rings.transmit.nextBuffer? else none
  | none => none

def prepare (i : Nat) (data : Bytes) : Operation (Board c n size) (Option Nat) := fun b =>
  if h : i < c then
    if b.channels[i].transmitting then onChannel i h (fun ch => pure (ch.prepare data)) b
    else ⟨none, b, []⟩
  else ⟨none, b, []⟩

def takePending : Operation (Board c n size) UInt8 := fun b =>
  if b.initialized then
    onRegisters (do
      let summary ← Registers.read8 Register.boardInterrupts
      let pending := summary &&& channelMask c
      if pending ≠ 0 then Registers.write8 Register.boardInterrupts pending
      return pending) b
  else ⟨0, b, []⟩

def pendingChannels (c : Nat) (pending : UInt8) : List (Fin c) :=
  (List.finRange c).filter fun i => pending.toNat.testBit i

def serviceChannel (i : Nat) : Operation (Board c n size) (Except ConfigError Unit) :=
  change i fun _ ch => ch.service i

def servicePending (i : Fin c) : Operation (Board c n size) Unit :=
  onChannel i i.isLt fun ch => do
    let ch ← ch.service i
    return ((), ch)

def handleInterrupt : Operation (Board c n size) Unit := do
  let pending ← takePending
  List.forM (pendingChannels c pending) servicePending

def tickChannel (i : Nat) :
    Operation (Board c n size) (Except ConfigError (Option Telemetry.Verdict)) :=
  checked i fun t ch => ch.tick i t

def tickEach (i : Fin c) : Operation (Board c n size) Unit := fun b =>
  let done := onChannel i i.isLt (Channel.tick i b.thresholds) b
  ⟨(), done.state, done.seen⟩

def tick : Operation (Board c n size) Unit := fun b =>
  if b.initialized then
    List.forM (List.finRange c) tickEach b
  else ⟨(), b, []⟩

end Board

end SerialAdapter
