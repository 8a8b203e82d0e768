import SerialAdapter.Action
import SerialAdapter.Batch

/-! Actions as lines of text, the way a bus analyser beside the adapter would log them, and ready-made
hooks. Each hook first tells the event it heard and then does one thing to the board, telling how
that went. -/
namespace SerialAdapter

namespace Bits

def hexOf (width n : Nat) : String :=
  let digits := Nat.toDigits 16 n
  String.ofList (List.replicate (width - digits.length) '0' ++ digits)

end Bits

namespace Trace

def digest (payload : Bytes) : UInt32 :=
  payload.foldl (fun h byte => (h ^^^ byte.toUInt32) * 0x01000193) 0x811c9dc5

def writtenOut : Nat := 48

def bytes (payload : Bytes) : String :=
  if payload.length ≤ writtenOut then String.join (payload.map Bits.hex)
  else
    "len=" ++ toString payload.length ++ " fnv=" ++ Bits.hexOf 8 (digest payload).toNat

def bit (on : Bool) : String := if on then "1" else "0"

def modem (s : ModemSignals) : String := "cd=" ++ bit s.carrier ++ " cts=" ++ bit s.clearToSend

def alarms (a : LineAlarms) : String :=
  let mark (on : Bool) (letter : Char) := if on then letter else '-'
  String.ofList [mark a.signalLoss 'L', mark a.carrierLoss 'C', mark a.allOnes 'A',
    mark a.outOfFrame 'F', mark a.multiframeLoss 'M', mark a.testCode 'T', mark a.slip 'S']

def errorKind : ChannelError → String
  | .framing => "Framing"
  | .checksum => "Checksum"
  | .overrun => "Overrun"
  | .overflow => "Overflow"
  | .underrun => "Underrun"

def event : Event → String
  | .received i payload => "rx " ++ toString i ++ " [" ++ bytes payload ++ "]"
  | .sent i tag length =>
    "done " ++ toString i ++ " tag=" ++ toString tag.toNat ++ " len=" ++ toString length
  | .failed i error => "err " ++ toString i ++ " " ++ errorKind error
  | .modemChanged i s => "modem " ++ toString i ++ " " ++ modem s

def access : Access → String
  | .read8 offset value => "r8 " ++ Bits.hexOf 4 offset.toNat ++ " " ++ Bits.hexOf 2 value.toNat
  | .write8 offset value => "w8 " ++ Bits.hexOf 4 offset.toNat ++ " " ++ Bits.hexOf 2 value.toNat
  | .read16 offset value => "r16 " ++ Bits.hexOf 4 offset.toNat ++ " " ++ Bits.hexOf 4 value.toNat
  | .write16 offset value => "w16 " ++ Bits.hexOf 4 offset.toNat ++ " " ++ Bits.hexOf 4 value.toNat

def notice (n : Notice) : String := "log " ++ n.level.name ++ ": " ++ n.text

structure Detail where
  accesses : Bool
  notices : Bool
  events : Bool

def line (d : Detail) : Action → Option String
  | .access a => if d.accesses then some (access a) else none
  | .notice n => if d.notices then some (notice n) else none
  | .event e => if d.events then some (event e) else none
  | .remark text => some text
  | .wait _ => none

def lines (d : Detail) (seen : List Action) : List String := seen.filterMap (line d)

def waited (seen : List Action) : Nat :=
  seen.foldl (fun total a => match a with | .wait micros => total + micros | _ => total) 0

def written (seen : List Action) : List (UInt16 × UInt16) :=
  (accesses seen).filterMap Access.written?

end Trace

inductive Reaction where
  | nothing
  | send (last : UInt64) (target : Option Nat) (data : Bytes)
  | echo
  | disable (direction : Direction)
  | clear
  | countFree
  | interrupt
  | tick
  | unhookAll
  | unhookReceived
  | unhookSent
  | rehookSent (label : String) (next : Reaction)
  deriving Inhabited

def Event.number : Event → UInt64
  | .received _ payload => UInt64.ofNat payload.length
  | .sent _ tag _ => tag
  | .failed .. | .modemChanged .. => 0

def Event.payload : Event → Bytes
  | .received _ payload => payload
  | .sent .. | .failed .. | .modemChanged .. => []

namespace Reaction

def sendResult : Except SendError Unit → String
  | .ok () => "ok"
  | .error cause => cause.message

def success {ε α : Type} : Except ε α → String
  | .ok _ => "true"
  | .error _ => "false"

def freeResult : Except ConfigError Nat → String
  | .ok count => "Ok(" ++ toString count ++ ")"
  | .error cause => "Err(" ++ cause.message ++ ")"

def tell (text : String) : Program := .remark ("hook " ++ text) .done

def hook (label : String) (reaction : Reaction) : Hook := fun e =>
  .remark (label ++ Trace.event e) <|
    match reaction with
    | .nothing => .done
    | .send last target data =>
      let tag := e.number + 1
      if tag ≤ last then
        .send (target.getD e.channel) data tag fun answer =>
          tell ("send tag=" ++ toString tag.toNat ++ " " ++ sendResult answer)
      else .done
    | .echo =>
      .send e.channel e.payload (UInt64.ofNat e.payload.length) fun answer =>
        tell ("echo " ++ sendResult answer)
    | .disable d => .enable e.channel d false fun answer => tell ("off " ++ success answer)
    | .clear => .clear .board fun answer => tell ("clear " ++ success answer)
    | .countFree =>
      .freeSlots e.channel .receive fun receive =>
        .freeSlots e.channel .transmit fun transmit =>
          tell ("free " ++ freeResult receive ++ " " ++ freeResult transmit)
    | .interrupt => .interrupt fun pending => tell ("irq " ++ toString pending.toNat)
    | .tick => .tick .done
    | .unhookAll => .setHooks {} .done
    | .unhookReceived => .setHook .received none .done
    | .unhookSent => .setHook .sent none .done
    | .rehookSent label next => .setHook .sent (some (hook label next)) .done

end Reaction

end SerialAdapter
