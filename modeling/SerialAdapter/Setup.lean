/-! What a caller chooses, within what limits, and why something is refused. The limits hold for every
board: a buffer length fits the sixteen-bit length word of a descriptor, and the board's interrupt
summary has one bit for each channel. A `ConfigError` or `SendError` is an answer to a caller; a
`ChannelError` happened on the line and only reaches the event sink and the counters. -/
namespace SerialAdapter.Limits

def defaultSlots : Nat := 4
def defaultBufferSize : Nat := 1600
def defaultChannels : Nat := 2

def maxBufferSize : Nat := 65535

def maxChannels : Nat := 8

def descriptorSize : Nat := 16

def resetPulseMicros : Nat := 10
def resetSettleMicros : Nat := 100

def minuteSeconds : UInt32 := 60
def intervalSeconds : UInt32 := 900
def historyIntervals : Nat := 48
def settleSeconds : UInt8 := 2

def e1SevereBipolar : UInt32 := 2048
def e1SeverePath : UInt32 := 832
def g703SevereCode : UInt32 := 2048
def e1DegradedPerMille : UInt32 := 2048
def g703DegradedDivisor : UInt32 := 2

end SerialAdapter.Limits

namespace SerialAdapter

inductive ConfigError where
  | invalidChannel
  | invalidConfig
  | alreadyInitialized
  | notInitialized
  deriving DecidableEq, Repr

def ConfigError.message : ConfigError → String
  | .invalidChannel => "invalid channel"
  | .invalidConfig => "invalid configuration"
  | .alreadyInitialized => "already initialized"
  | .notInitialized => "not initialized"

inductive SendError where
  | frameTooLarge
  | ringFull
  | invalidLength
  | notEnabled
  | invalidChannel
  deriving DecidableEq, Repr

def SendError.message : SendError → String
  | .frameTooLarge => "frame too large for buffer"
  | .ringFull => "transmit ring full"
  | .invalidLength => "invalid frame length"
  | .notEnabled => "transmitter not enabled"
  | .invalidChannel => "invalid channel"

inductive ChannelError where
  | framing
  | checksum
  | overrun
  | overflow
  | underrun
  deriving DecidableEq, Repr

def ChannelError.message : ChannelError → String
  | .framing => "framing error"
  | .checksum => "checksum error"
  | .overrun => "receive overrun"
  | .overflow => "receive buffer overflow"
  | .underrun => "transmit underrun"

inductive BoardError where
  | config (cause : ConfigError)
  | send (cause : SendError)
  deriving DecidableEq, Repr

def BoardError.message : BoardError → String
  | .config cause => "config: " ++ cause.message
  | .send cause => "send: " ++ cause.message

inductive Direction where
  | receive
  | transmit
  deriving DecidableEq, Repr

inductive ChannelMode where
  | async
  | hdlc
  | e1
  | g703
  deriving DecidableEq, Repr

namespace ChannelMode

def isLine : ChannelMode → Bool
  | .e1 | .g703 => true
  | .async | .hdlc => false

def code : ChannelMode → UInt8
  | .async => 0
  | .hdlc => 1
  | .e1 => 2
  | .g703 => 3

end ChannelMode

structure ChannelSetup where
  mode : ChannelMode := .hdlc
  crc4 : Bool := false
  deriving DecidableEq, Repr

def ChannelSetup.register (s : ChannelSetup) : UInt8 :=
  if s.crc4 && s.mode = .e1 then s.mode.code ||| 0x10 else s.mode.code

structure Thresholds where
  e1Bipolar : UInt32 := Limits.e1SevereBipolar
  e1Path : UInt32 := Limits.e1SeverePath
  g703Code : UInt32 := Limits.g703SevereCode
  e1PerMille : UInt32 := Limits.e1DegradedPerMille
  g703Divisor : UInt32 := Limits.g703DegradedDivisor
  settle : UInt8 := Limits.settleSeconds
  deriving DecidableEq, Repr

def Thresholds.usable (t : Thresholds) : Bool :=
  t.e1Bipolar != 0 && t.e1Path != 0 && t.g703Code != 0 && t.e1PerMille != 0 && t.g703Divisor != 0

def Thresholds.check (t : Thresholds) : Except ConfigError Unit :=
  if t.usable then .ok () else .error .invalidConfig

structure BoardSetup (channels : Nat) where
  channels : Vector ChannelSetup channels := Vector.replicate channels {}
  thresholds : Thresholds := {}

namespace BoardSetup

variable {c : Nat}

def withChannel (s : BoardSetup c) (i : Nat) (setup : ChannelSetup) : BoardSetup c :=
  { s with channels := s.channels.setIfInBounds i setup }

def withAllChannels (s : BoardSetup c) (setup : ChannelSetup) : BoardSetup c :=
  { s with channels := Vector.replicate c setup }

def withThresholds (s : BoardSetup c) (thresholds : Thresholds) : BoardSetup c :=
  { s with thresholds := thresholds }

end BoardSetup

inductive ClearScope where
  | channel (index : Nat)
  | line (index : Nat)
  | board
  deriving DecidableEq, Repr

end SerialAdapter
