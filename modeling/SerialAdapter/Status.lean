/-! The status bytes of the adapter, each as the record of the flags it defines. `Bits.has` reads one
bit and `Bits.put` writes one into an otherwise empty byte. Decoding ignores undefined bits, so
encoding a decoded byte keeps exactly the defined ones. -/
namespace SerialAdapter.Bits

def has (byte : UInt8) (k : Nat) : Bool := byte.toNat.testBit k

def put (k : Nat) (on : Bool) : UInt8 := if on then UInt8.ofNat (1 <<< k) else 0

def hexDigit (n : Nat) : Char := if n < 10 then Char.ofNat (48 + n) else Char.ofNat (87 + n)

def hex (byte : UInt8) : String :=
  String.ofList [hexDigit (byte.toNat / 16), hexDigit (byte.toNat % 16)]

end SerialAdapter.Bits

namespace SerialAdapter

structure DescriptorStatus where
  endOfFrame : Bool
  shortFrame : Bool
  abort : Bool
  residualBits : Bool
  overrun : Bool
  crcError : Bool
  endOfTransfer : Bool
  deriving DecidableEq, Repr

namespace DescriptorStatus

def ofByte (b : UInt8) : DescriptorStatus where
  endOfFrame := Bits.has b 7
  shortFrame := Bits.has b 6
  abort := Bits.has b 5
  residualBits := Bits.has b 4
  overrun := Bits.has b 3
  crcError := Bits.has b 2
  endOfTransfer := Bits.has b 0

def toByte (s : DescriptorStatus) : UInt8 :=
  Bits.put 7 s.endOfFrame ||| Bits.put 6 s.shortFrame ||| Bits.put 5 s.abort |||
    Bits.put 4 s.residualBits ||| Bits.put 3 s.overrun ||| Bits.put 2 s.crcError |||
    Bits.put 0 s.endOfTransfer

def badFraming (s : DescriptorStatus) : Bool := s.shortFrame || s.abort || s.residualBits

def endOfFrameByte : UInt8 := 0x80

end DescriptorStatus

structure DmaStatus where
  endOfTransfer : Bool
  endOfMessage : Bool
  bufferOverflow : Bool
  counterOverflow : Bool
  running : Bool
  deriving DecidableEq, Repr

namespace DmaStatus

def ofByte (b : UInt8) : DmaStatus where
  endOfTransfer := Bits.has b 7
  endOfMessage := Bits.has b 6
  bufferOverflow := Bits.has b 5
  counterOverflow := Bits.has b 4
  running := Bits.has b 1

def toByte (s : DmaStatus) : UInt8 :=
  Bits.put 7 s.endOfTransfer ||| Bits.put 6 s.endOfMessage ||| Bits.put 5 s.bufferOverflow |||
    Bits.put 4 s.counterOverflow ||| Bits.put 1 s.running

def all : DmaStatus := ⟨true, true, true, true, true⟩

def events (s : DmaStatus) : UInt8 := { s with running := false }.toByte

def ringFault (s : DmaStatus) : Bool := s.bufferOverflow || s.counterOverflow

def chainOverflow (s : DmaStatus) : Bool := s.bufferOverflow

end DmaStatus

structure InterruptStatus where
  receive : Bool
  transmit : Bool
  modem : Bool
  deriving DecidableEq, Repr

namespace InterruptStatus

def ofByte (b : UInt8) : InterruptStatus where
  receive := Bits.has b 0
  transmit := Bits.has b 1
  modem := Bits.has b 2

def toByte (s : InterruptStatus) : UInt8 :=
  Bits.put 0 s.receive ||| Bits.put 1 s.transmit ||| Bits.put 2 s.modem

def any (s : InterruptStatus) : Bool := s.receive || s.transmit || s.modem

end InterruptStatus

structure ModemSignals where
  carrier : Bool
  clearToSend : Bool
  deriving DecidableEq, Repr

namespace ModemSignals

def ofByte (b : UInt8) : ModemSignals where
  carrier := Bits.has b 0
  clearToSend := Bits.has b 1

def toByte (s : ModemSignals) : UInt8 := Bits.put 0 s.carrier ||| Bits.put 1 s.clearToSend

end ModemSignals

structure LineAlarms where
  signalLoss : Bool := false
  carrierLoss : Bool := false
  allOnes : Bool := false
  outOfFrame : Bool := false
  multiframeLoss : Bool := false
  testCode : Bool := false
  slip : Bool := false
  deriving DecidableEq, Repr

namespace LineAlarms

def ofByte (b : UInt8) : LineAlarms where
  signalLoss := Bits.has b 0
  carrierLoss := Bits.has b 1
  allOnes := Bits.has b 2
  outOfFrame := Bits.has b 3
  multiframeLoss := Bits.has b 4
  testCode := Bits.has b 5
  slip := Bits.has b 6

def unavailable (a : LineAlarms) : Bool := a.signalLoss || a.carrierLoss || a.allOnes

end LineAlarms

end SerialAdapter
