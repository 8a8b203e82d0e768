import SerialAdapter.Duplex
import SerialAdapter.Registers
import SerialAdapter.Telemetry

/-! One serial channel: its mode, its data path, and what is known about its traffic and its
line. Operations take the channel's number, which says where its registers are. -/
namespace SerialAdapter

namespace Line

open Register Registers

def sample (i : Nat) : Operation Registers Telemetry.Sample := do
  write8 (lineLatch i) 1
  let alarms ← read8 (lineStatus i)
  let bipolar ← read16 (bipolar i)
  let crc ← read16 (crc i)
  let frameSync ← read16 (frameSync i)
  let remoteCrc ← read16 (remoteCrc i)
  return {
    alarms := .ofByte alarms
    bipolar := bipolar.toUInt32
    crc := crc.toUInt32
    frameSync := frameSync.toUInt32
    remoteCrc := remoteCrc.toUInt32 }

def modem (i : Nat) : Operation Registers ModemSignals := do
  let byte ← read8 (Register.modem i)
  return .ofByte byte

end Line

structure Channel (n size : Nat) where
  setup : ChannelSetup := {}
  rings : Duplex n size := {}
  receiving : Bool := false
  transmitting : Bool := false
  traffic : Traffic := {}
  line : Telemetry.Monitor := {}
  alarms : LineAlarms := {}

namespace Channel

variable {n size : Nat}

def isEnabled (ch : Channel n size) : Direction → Bool
  | .receive => ch.receiving
  | .transmit => ch.transmitting

def free (ch : Channel n size) (d : Direction) : Nat := (ch.rings.ring d).free

def withEnabled (ch : Channel n size) (d : Direction) (on : Bool) : Channel n size :=
  match d with
  | .receive => { ch with receiving := on }
  | .transmit => { ch with transmitting := on }

def resync (ch : Channel n size) (t : Thresholds) : Channel n size :=
  { ch with line := ch.line.resync t.settle }

def programMode (i : Nat) (t : Thresholds) (ch : Channel n size) :
    Operation Registers (Channel n size) := do
  Registers.write8 (Register.mode i) ch.setup.register
  return if ch.setup.mode.isLine then ch.resync t else ch

def init (i : Nat) (setup : ChannelSetup) (place : Direction → Placement) (t : Thresholds)
    (ch : Channel n size) : Operation Registers (Channel n size) := do
  let rings := ch.rings.layout place
  let rings ← rings.stop i .receive
  let rings ← rings.stop i .transmit
  programMode i t { setup := setup, rings := rings, line := ch.line.clear }

def setMode (i : Nat) (mode : ChannelMode) (t : Thresholds) (ch : Channel n size) :
    Operation Registers (Channel n size) :=
  programMode i t { ch with setup := { ch.setup with mode := mode } }

def enable (i : Nat) (d : Direction) (on : Bool) (ch : Channel n size) :
    Operation Registers (Channel n size) := do
  let rings ← if on then ch.rings.start i d else ch.rings.stop i d
  Operation.notify (.enabled i d on)
  return { ch with rings := rings }.withEnabled d on

def clear (scope : ClearScope) (ch : Channel n size) : Channel n size :=
  match scope with
  | .line _ => { ch with line := ch.line.clear }
  | .channel _ | .board => { ch with traffic := .clear, line := ch.line.clear }

def send (i : Nat) (data : Option Bytes) (length : Nat) (tag : UInt64) (ch : Channel n size) :
    Operation Registers (Except SendError Unit × Channel n size) := do
  let (result, rings) ← ch.rings.send i data length tag
  return (result.map fun _ => (), { ch with rings := rings })

def prepare (data : Bytes) (ch : Channel n size) : Option Nat × Channel n size :=
  let (copied, r) := ch.rings.transmit.prepare data
  (copied, { ch with rings := ch.rings.withRing .transmit r })

def serviceReceive (i : Nat) (ch : Channel n size) : Operation Registers (Channel n size) := do
  let (rings, traffic) ← ch.rings.serviceReceive i ch.traffic
  return { ch with rings := rings, traffic := traffic }

def serviceTransmit (i : Nat) (ch : Channel n size) : Operation Registers (Channel n size) := do
  let (rings, traffic) ← ch.rings.serviceTransmit i ch.traffic
  return { ch with rings := rings, traffic := traffic }

def reportModem (i : Nat) : Operation Registers Unit := do
  let signals ← Line.modem i
  Operation.raise (.modemChanged i signals)

def service (i : Nat) (ch : Channel n size) : Operation Registers (Channel n size) := do
  let byte ← Registers.read8 (Register.interrupts i)
  let status := InterruptStatus.ofByte byte
  if status.any then
    Registers.write8 (Register.interrupts i) status.toByte
    let ch ← if status.receive && ch.receiving then ch.serviceReceive i else pure ch
    let ch ← if status.transmit && ch.transmitting then ch.serviceTransmit i else pure ch
    if status.modem then reportModem i
    return ch
  else
    return ch

def recordSecond (s : Telemetry.Sample) (t : Thresholds) (ch : Channel n size) :
    Operation Registers (Option Telemetry.Verdict × Channel n size) := do
  let second := Telemetry.Monitor.observe ch.setup.mode ch.setup.crc4 s t ch.line
  Operation.emit second.seen
  return (second.answer, { ch with alarms := s.alarms, line := second.state })

def tick (i : Nat) (t : Thresholds) (ch : Channel n size) :
    Operation Registers (Option Telemetry.Verdict × Channel n size) := do
  if ch.setup.mode.isLine then
    let s ← Line.sample i
    ch.recordSecond s t
  else
    return (none, ch)

end Channel

end SerialAdapter
