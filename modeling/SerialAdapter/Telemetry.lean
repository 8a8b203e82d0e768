import SerialAdapter.Action
import SerialAdapter.Setup
import SerialAdapter.Status

/-! Telemetry of one line: the verdict on one second, and what the seconds come to over time. A second
is unavailable, or it is judged by its error counts; the verdict is what it adds to the interval, so
an interval is a plain sum. Sums stop at the largest word. Only an available second that was not
severely errored takes part in the degraded-minute test. A minute is judged when its sixtieth second
is counted, and an interval closes with its nine hundredth; the closed ones are kept newest first.
After a resynchronisation the next seconds are not counted, whatever the mode. -/
namespace SerialAdapter.Telemetry

def satAdd (a b : UInt32) : UInt32 :=
  let sum := a + b
  if sum < a then 0xFFFFFFFF else sum

theorem toNatSatAdd (a b : UInt32) :
    (satAdd a b).toNat = min (a.toNat + b.toNat) 4294967295 := by
  have ha := a.toNat_lt
  have hb := b.toNat_lt
  have sum : (a + b).toNat = (a.toNat + b.toNat) % 4294967296 := UInt32.toNat_add a b
  unfold satAdd
  dsimp only
  split
  · rename_i wrapped
    rw [UInt32.lt_iff_toNat_lt, sum] at wrapped
    have top : (0xFFFFFFFF : UInt32).toNat = 4294967295 := rfl
    rw [top]
    omega
  · rename_i kept
    rw [UInt32.lt_iff_toNat_lt, sum] at kept
    rw [sum]
    omega

structure Interval where
  bipolarViolations : UInt32 := 0
  frameSyncErrors : UInt32 := 0
  crcErrors : UInt32 := 0
  remoteCrcErrors : UInt32 := 0
  unavailableSeconds : UInt32 := 0
  erroredSeconds : UInt32 := 0
  severelyErroredSeconds : UInt32 := 0
  burstyErroredSeconds : UInt32 := 0
  lineErroredSeconds : UInt32 := 0
  severelyErroredFramingSeconds : UInt32 := 0
  controlledSlipSeconds : UInt32 := 0
  degradedMinutes : UInt32 := 0
  deriving DecidableEq, Repr

namespace Interval

def zero : Interval := {}

def toList (a : Interval) : List UInt32 :=
  [a.bipolarViolations, a.frameSyncErrors, a.crcErrors, a.remoteCrcErrors, a.unavailableSeconds,
    a.erroredSeconds, a.severelyErroredSeconds, a.burstyErroredSeconds, a.lineErroredSeconds,
    a.severelyErroredFramingSeconds, a.controlledSlipSeconds, a.degradedMinutes]

def ofList (counts : List UInt32) : Interval :=
  let at? (i : Nat) := counts.getD i 0
  ⟨at? 0, at? 1, at? 2, at? 3, at? 4, at? 5, at? 6, at? 7, at? 8, at? 9, at? 10, at? 11⟩

theorem ofListToList (a : Interval) : ofList a.toList = a := rfl

def isZero (a : Interval) : Bool := a = zero

def add (a b : Interval) : Interval where
  bipolarViolations := satAdd a.bipolarViolations b.bipolarViolations
  frameSyncErrors := satAdd a.frameSyncErrors b.frameSyncErrors
  crcErrors := satAdd a.crcErrors b.crcErrors
  remoteCrcErrors := satAdd a.remoteCrcErrors b.remoteCrcErrors
  unavailableSeconds := satAdd a.unavailableSeconds b.unavailableSeconds
  erroredSeconds := satAdd a.erroredSeconds b.erroredSeconds
  severelyErroredSeconds := satAdd a.severelyErroredSeconds b.severelyErroredSeconds
  burstyErroredSeconds := satAdd a.burstyErroredSeconds b.burstyErroredSeconds
  lineErroredSeconds := satAdd a.lineErroredSeconds b.lineErroredSeconds
  severelyErroredFramingSeconds :=
    satAdd a.severelyErroredFramingSeconds b.severelyErroredFramingSeconds
  controlledSlipSeconds := satAdd a.controlledSlipSeconds b.controlledSlipSeconds
  degradedMinutes := satAdd a.degradedMinutes b.degradedMinutes

end Interval

structure Sample where
  alarms : LineAlarms := {}
  bipolar : UInt32 := 0
  crc : UInt32 := 0
  frameSync : UInt32 := 0
  remoteCrc : UInt32 := 0
  deriving DecidableEq, Repr

structure Verdict where
  counts : Interval
  participating : Option UInt32
  deriving DecidableEq, Repr

namespace Verdict

def unavailable : Verdict := ⟨{ unavailableSeconds := 1 }, none⟩

def isUnavailable (v : Verdict) : Bool := v.counts.unavailableSeconds != 0

end Verdict

def once (condition : Bool) : UInt32 := if condition then 1 else 0

def Sample.path (s : Sample) (crc4 : Bool) : UInt32 := if crc4 then s.crc else s.frameSync

def judgeE1 (s : Sample) (crc4 : Bool) (t : Thresholds) : Verdict :=
  if s.alarms.unavailable then .unavailable
  else
    let path := s.path crc4
    let severe := t.e1Bipolar ≤ s.bipolar || t.e1Path ≤ path
    { counts :=
        { bipolarViolations := s.bipolar
          frameSyncErrors := s.frameSync
          crcErrors := s.crc
          remoteCrcErrors := s.remoteCrc
          lineErroredSeconds := once (0 < s.bipolar)
          erroredSeconds := once (0 < path || s.alarms.outOfFrame || s.alarms.slip)
          severelyErroredFramingSeconds := once s.alarms.outOfFrame
          controlledSlipSeconds := once s.alarms.slip
          severelyErroredSeconds := once severe
          burstyErroredSeconds := once (!severe && 0 < path) }
      participating := if severe then none else some s.bipolar }

def judgeG703 (s : Sample) (t : Thresholds) : Verdict :=
  if s.alarms.unavailable then .unavailable
  else
    let errored := 0 < s.bipolar
    let severe := t.g703Code ≤ s.bipolar
    { counts :=
        { bipolarViolations := s.bipolar
          lineErroredSeconds := once errored
          erroredSeconds := once errored
          severelyErroredSeconds := once severe
          burstyErroredSeconds := once (!severe && errored) }
      participating := if severe then none else some s.bipolar }

def judge (mode : ChannelMode) (s : Sample) (crc4 : Bool) (t : Thresholds) : Option Verdict :=
  match mode with
  | .e1 => some (judgeE1 s crc4 t)
  | .g703 => some (judgeG703 s t)
  | .async | .hdlc => none

def minuteDegradedE1 (errors seconds : UInt32) (t : Thresholds) : Bool :=
  seconds.toUInt64 * t.e1PerMille.toUInt64 < errors.toUInt64 * 1000

def minuteDegradedG703 (errors seconds : UInt32) (t : Thresholds) : Bool :=
  seconds.toUInt64 < errors.toUInt64 * t.g703Divisor.toUInt64

structure Tally where
  seconds : UInt32 := 0
  errors : UInt32 := 0
  deriving DecidableEq, Repr

def Tally.add (t : Tally) : Option UInt32 → Tally
  | none => t
  | some errors => ⟨t.seconds + 1, satAdd t.errors errors⟩

def Tally.degraded (t : Tally) (mode : ChannelMode) (thresholds : Thresholds) : Bool :=
  match mode with
  | .e1 => minuteDegradedE1 t.errors t.seconds thresholds
  | _ => minuteDegradedG703 t.errors t.seconds thresholds

structure Monitor where
  current : Interval := {}
  closedTotal : Interval := {}
  history : List Interval := []
  seconds : UInt32 := 0
  closedSeconds : UInt32 := 0
  tally : Tally := {}
  settling : UInt8 := 0
  deriving DecidableEq, Repr

namespace Monitor

def resync (m : Monitor) (seconds : UInt8) : Monitor := { m with settling := seconds }

def isSettling (m : Monitor) : Bool := 0 < m.settling

def clear (m : Monitor) : Monitor := { settling := m.settling }

def closeMinute (m : Monitor) (mode : ChannelMode) (t : Thresholds) : Monitor :=
  { m with
    current :=
      if m.tally.degraded mode t then
        { m.current with degradedMinutes := m.current.degradedMinutes + 1 }
      else m.current
    tally := {} }

def closeInterval (m : Monitor) : Monitor :=
  { m with
    history := (m.current :: m.history).take Limits.historyIntervals
    closedTotal := m.closedTotal.add m.current
    closedSeconds := satAdd m.closedSeconds m.seconds
    current := {}
    seconds := 0 }

def add (m : Monitor) (v : Verdict) : Monitor :=
  { m with
    current := m.current.add v.counts
    tally := m.tally.add v.participating
    seconds := m.seconds + 1 }

def count (m : Monitor) (mode : ChannelMode) (t : Thresholds) (v : Verdict) : Monitor :=
  let m := m.add v
  let m := if m.seconds % Limits.minuteSeconds = 0 then m.closeMinute mode t else m
  if Limits.intervalSeconds ≤ m.seconds then m.closeInterval else m

/-- One elapsed second. A settling monitor only uses up its window, whatever the mode. -/
def record (m : Monitor) (mode : ChannelMode) (crc4 : Bool) (s : Sample) (t : Thresholds) :
    Option Verdict × Monitor :=
  if m.isSettling then (none, { m with settling := m.settling - 1 })
  else
    match judge mode s crc4 t with
    | none => (none, m)
    | some v => (some v, m.count mode t v)

def observe (mode : ChannelMode) (crc4 : Bool) (s : Sample) (t : Thresholds) :
    Operation Monitor (Option Verdict) := fun m =>
  let (verdict, after) := m.record mode crc4 s t
  let closed := verdict.isSome && after.seconds = 0
  ⟨verdict, after, if closed then [.notice (.intervalClosed after.history.length)] else []⟩

def total (m : Monitor) : Interval := m.closedTotal.add m.current

def interval? (m : Monitor) (i : Nat) : Option Interval := m.history[i]?

def totalSeconds (m : Monitor) : UInt32 := satAdd m.closedSeconds m.seconds

end Monitor

end SerialAdapter.Telemetry
