import Mathlib.Algebra.GroupWithZero.Nat
import Mathlib.Data.List.Induction
import SerialAdapter.Telemetry

/-! The exact reckoning of a list of seconds: for each counter the sum over the seconds, in natural
numbers, and the minutes of sixty seconds that were degraded. What a monitor shows is this, cut off
at the largest word. The list grows at its end and is seen as full blocks of one size, minutes or
intervals, and the rest behind them. -/
namespace SerialAdapter

section Blocks

variable {α : Type} {size : Nat} {l : List α}

def block (size k : Nat) (l : List α) : List α := (l.drop (k * size)).take size

def closed (size : Nat) (l : List α) : List α := l.take (l.length / size * size)

def opened (size : Nat) (l : List α) : List α := l.drop (l.length / size * size)

theorem closedOpened (size : Nat) (l : List α) : closed size l ++ opened size l = l :=
  List.take_append_drop _ _

theorem openedWithin {a : α} (shown : a ∈ opened size l) : a ∈ l := List.mem_of_mem_drop shown

theorem blockWithin {k : Nat} {a : α} (shown : a ∈ block size k l) : a ∈ l :=
  List.mem_of_mem_drop (List.mem_of_mem_take shown)

theorem blockLength {k : Nat} (full : (k + 1) * size ≤ l.length) :
    (block size k l).length = size := by
  rw [Nat.add_one_mul] at full
  rw [block, List.length_take, List.length_drop]
  omega

theorem openedLength (size : Nat) (l : List α) : (opened size l).length = l.length % size := by
  rw [opened, List.length_drop, Nat.mul_comm, ← Nat.mod_eq_sub_mul_div]

theorem blockKept {k : Nat} (full : (k + 1) * size ≤ l.length) (a : α) :
    block size k (l ++ [a]) = block size k l := by
  rw [Nat.add_one_mul] at full
  rw [block, block, List.drop_append_of_le_length (by omega), List.take_append_of_le_length]
  rw [List.length_drop]
  omega

section Snoc

variable (a : α)

theorem openedGrown (grown : (l.length + 1) % size ≠ 0) :
    opened size (l ++ [a]) = opened size l ++ [a] := by
  have inside := Nat.div_mul_le_self l.length size
  rw [opened, List.length_append, List.length_singleton, Nat.succ_div_of_mod_ne_zero grown,
    List.drop_append_of_le_length inside]
  rfl

theorem closedGrown (grown : (l.length + 1) % size ≠ 0) :
    closed size (l ++ [a]) = closed size l := by
  have inside := Nat.div_mul_le_self l.length size
  rw [closed, List.length_append, List.length_singleton, Nat.succ_div_of_mod_ne_zero grown,
    List.take_append_of_le_length inside]
  rfl

variable (full : (l.length + 1) % size = 0)
include full

theorem wholeFull : (l.length + 1) / size * size = l.length + 1 :=
  Nat.div_mul_cancel (Nat.dvd_of_mod_eq_zero full)

theorem openedFull : opened size (l ++ [a]) = [] := by
  rw [opened, List.length_append, List.length_singleton, wholeFull full]
  exact List.drop_of_length_le (by simp)

theorem closedFull : closed size (l ++ [a]) = l ++ [a] := by
  rw [closed, List.length_append, List.length_singleton, wholeFull full]
  exact List.take_of_length_le (by simp)

theorem blockFull : block size (l.length / size) (l ++ [a]) = opened size l ++ [a] := by
  have inside := Nat.div_mul_le_self l.length size
  have whole := wholeFull full
  rw [Nat.succ_div_of_mod_eq_zero full, Nat.add_one_mul] at whole
  rw [block, List.drop_append_of_le_length inside, opened]
  refine List.take_of_length_le ?_
  rw [List.length_append, List.length_drop, List.length_singleton]
  omega

end Snoc

end Blocks

end SerialAdapter

namespace SerialAdapter.Telemetry

inductive Counter where
  | bipolarViolations
  | frameSyncErrors
  | crcErrors
  | remoteCrcErrors
  | unavailableSeconds
  | erroredSeconds
  | severelyErroredSeconds
  | burstyErroredSeconds
  | lineErroredSeconds
  | severelyErroredFramingSeconds
  | controlledSlipSeconds
  | degradedMinutes
  deriving DecidableEq, Repr

namespace Interval

def get (a : Interval) : Counter → UInt32
  | .bipolarViolations => a.bipolarViolations
  | .frameSyncErrors => a.frameSyncErrors
  | .crcErrors => a.crcErrors
  | .remoteCrcErrors => a.remoteCrcErrors
  | .unavailableSeconds => a.unavailableSeconds
  | .erroredSeconds => a.erroredSeconds
  | .severelyErroredSeconds => a.severelyErroredSeconds
  | .burstyErroredSeconds => a.burstyErroredSeconds
  | .lineErroredSeconds => a.lineErroredSeconds
  | .severelyErroredFramingSeconds => a.severelyErroredFramingSeconds
  | .controlledSlipSeconds => a.controlledSlipSeconds
  | .degradedMinutes => a.degradedMinutes

def ofCounters (count : Counter → UInt32) : Interval where
  bipolarViolations := count .bipolarViolations
  frameSyncErrors := count .frameSyncErrors
  crcErrors := count .crcErrors
  remoteCrcErrors := count .remoteCrcErrors
  unavailableSeconds := count .unavailableSeconds
  erroredSeconds := count .erroredSeconds
  severelyErroredSeconds := count .severelyErroredSeconds
  burstyErroredSeconds := count .burstyErroredSeconds
  lineErroredSeconds := count .lineErroredSeconds
  severelyErroredFramingSeconds := count .severelyErroredFramingSeconds
  controlledSlipSeconds := count .controlledSlipSeconds
  degradedMinutes := count .degradedMinutes

theorem getOfCounters (count : Counter → UInt32) (c : Counter) :
    (ofCounters count).get c = count c := by
  cases c <;> rfl

theorem ofGet (a : Interval) : ofCounters a.get = a := rfl

theorem getAdd (a b : Interval) (c : Counter) : (a.add b).get c = satAdd (a.get c) (b.get c) := by
  cases c <;> rfl

def addMinute (a : Interval) : Interval := { a with degradedMinutes := a.degradedMinutes + 1 }

theorem getAddMinute (a : Interval) (c : Counter) :
    a.addMinute.get c = if c = .degradedMinutes then a.get c + 1 else a.get c := by
  cases c <;> rfl

theorem same {a b : Interval} (each : ∀ c, a.get c = b.get c) : a = b := by
  rw [← ofGet a, ← ofGet b, funext each]

end Interval

def capped (x : Nat) : UInt32 := UInt32.ofNat (min x 4294967295)

theorem cappedToNat (x : Nat) : (capped x).toNat = min x 4294967295 :=
  UInt32.toNat_ofNat_of_lt' (by
    change min x 4294967295 < 4294967296
    omega)

theorem cappedSmall {x : Nat} {word : UInt32} (same : word.toNat = x) : word = capped x := by
  have low := word.toNat_lt
  refine UInt32.toNat_inj.mp ?_
  rw [cappedToNat]
  omega

theorem cappedSucc {x : Nat} (small : x < 4294967295) : capped x + 1 = capped (x + 1) := by
  refine cappedSmall ?_
  have one := UInt32.toNat_add (capped x) 1
  have single : (1 : UInt32).toNat = 1 := rfl
  rw [cappedToNat] at one
  omega

theorem cappedAdd (x : Nat) (y : UInt32) : satAdd (capped x) y = capped (x + y.toNat) := by
  refine UInt32.toNat_inj.mp ?_
  rw [toNatSatAdd, cappedToNat, cappedToNat]
  omega

theorem cappedCapped (x y : Nat) : satAdd (capped x) (capped y) = capped (x + y) := by
  rw [cappedAdd, cappedToNat]
  refine UInt32.toNat_inj.mp ?_
  rw [cappedToNat, cappedToNat]
  omega

structure Second where
  mode : ChannelMode
  crc4 : Bool
  sample : Sample
  thresholds : Thresholds
  verdict : Verdict
  judged : judge mode sample crc4 thresholds = some verdict

def Second.of? (mode : ChannelMode) (crc4 : Bool) (s : Sample) (t : Thresholds) : Option Second :=
  match judged : judge mode s crc4 t with
  | some verdict => some ⟨mode, crc4, s, t, verdict, judged⟩
  | none => none

def partaking (seconds : List Second) : List UInt32 := seconds.filterMap (·.verdict.participating)

def errors (seconds : List Second) : Nat := ((partaking seconds).map UInt32.toNat).sum

def degraded (minute : List Second) : Bool :=
  match minute.getLast? with
  | none => false
  | some last =>
    let allowed := (partaking minute).length
    match last.mode with
    | .e1 => allowed * last.thresholds.e1PerMille.toNat < errors minute * 1000
    | _ => allowed < errors minute * last.thresholds.g703Divisor.toNat

def degradedIn (seconds : List Second) : Nat :=
  (List.range (seconds.length / 60)).countP fun k => degraded (block 60 k seconds)

def amount (c : Counter) (seconds : List Second) : Nat :=
  (seconds.map fun s => (s.verdict.counts.get c).toNat).sum +
    if c = .degradedMinutes then degradedIn seconds else 0

def reckon (seconds : List Second) : Interval := .ofCounters fun c => capped (amount c seconds)

theorem partakingSnoc (seconds : List Second) (s : Second) : partaking (seconds ++ [s]) =
    partaking seconds ++ s.verdict.participating.toList := by
  simp only [partaking, List.filterMap_append, List.filterMap_cons, List.filterMap_nil]
  cases s.verdict.participating with
  | none => rfl
  | some errors => rfl

def minuteGain (seconds : List Second) (s : Second) : Nat :=
  if (seconds.length + 1) % 60 = 0 ∧ degraded (opened 60 seconds ++ [s]) then 1 else 0

def gain (c : Counter) (seconds : List Second) (s : Second) : Nat :=
  (s.verdict.counts.get c).toNat + if c = .degradedMinutes then minuteGain seconds s else 0

theorem degradedSnoc (seconds : List Second) (s : Second) :
    degradedIn (seconds ++ [s]) = degradedIn seconds + minuteGain seconds s := by
  have before : (List.range (seconds.length / 60)).countP
      (fun k => degraded (block 60 k (seconds ++ [s]))) = degradedIn seconds := by
    refine List.countP_congr fun k low => ?_
    rw [blockKept (by have := List.mem_range.mp low; omega)]
  unfold minuteGain
  rw [degradedIn, List.length_append, List.length_singleton]
  by_cases full : (seconds.length + 1) % 60 = 0
  · rw [Nat.succ_div_of_mod_eq_zero full, List.range_succ, List.countP_append, before,
      List.countP_singleton, blockFull s full]
    simp [full]
  · rw [Nat.succ_div_of_mod_ne_zero full, before]
    simp [full]

theorem amountSnoc (c : Counter) (seconds : List Second) (s : Second) :
    amount c (seconds ++ [s]) = amount c seconds + gain c seconds s := by
  unfold amount gain
  rw [List.map_append, List.sum_append, degradedSnoc]
  simp only [List.map_cons, List.map_nil, List.sum_cons, List.sum_nil]
  split <;> omega

theorem reckonGet (seconds : List Second) (c : Counter) :
    (reckon seconds).get c = capped (amount c seconds) := Interval.getOfCounters _ c

theorem amountNil (c : Counter) : amount c [] = 0 := by
  cases c <;> rfl

theorem reckonNil : reckon [] = {} := by
  refine Interval.same fun c => ?_
  rw [reckonGet, amountNil]
  cases c <;> rfl

theorem degradedLe (seconds : List Second) : degradedIn seconds ≤ seconds.length / 60 := by
  have le := List.countP_le_length (p := fun k => degraded (block 60 k seconds))
    (l := List.range (seconds.length / 60))
  rwa [List.length_range] at le

theorem Second.judgedBy (s : Second) : s.verdict = judgeE1 s.sample s.crc4 s.thresholds ∨
    s.verdict = judgeG703 s.sample s.thresholds := by
  obtain ⟨mode, crc4, sample, t, verdict, judged⟩ := s
  cases mode with
  | e1 => exact .inl (Option.some.inj judged).symm
  | g703 => exact .inr (Option.some.inj judged).symm
  | async => contradiction
  | hdlc => contradiction

theorem Second.noMinute (s : Second) : s.verdict.counts.degradedMinutes = 0 := by
  rcases s.judgedBy with e1 | g703
  · rw [e1]
    unfold judgeE1
    split <;> rfl
  · rw [g703]
    unfold judgeG703
    split <;> rfl

def Second.partakes (s : Second) : Bool :=
  s.verdict.counts.unavailableSeconds = 0 && s.verdict.counts.severelyErroredSeconds = 0

theorem participatingSame (s : Second) :
    s.verdict.participating = if s.partakes then some s.sample.bipolar else none := by
  unfold Second.partakes
  rcases s.judgedBy with e1 | g703
  · rw [e1, judgeE1]
    split
    · rfl
    · by_cases severe : (s.thresholds.e1Bipolar ≤ s.sample.bipolar ||
          s.thresholds.e1Path ≤ s.sample.path s.crc4) = true <;> simp [severe, once]
  · rw [g703, judgeG703]
    split
    · rfl
    · by_cases severe : s.thresholds.g703Code ≤ s.sample.bipolar <;> simp [severe, once]

theorem amountMinutes (seconds : List Second) :
    amount .degradedMinutes seconds = degradedIn seconds := by
  have none : (seconds.map fun s => (s.verdict.counts.get .degradedMinutes).toNat).sum = 0 := by
    induction seconds with
    | nil => rfl
    | cons s seconds ih =>
      have zero : s.verdict.counts.get .degradedMinutes = 0 := s.noMinute
      rw [List.map_cons, List.sum_cons, ih, zero]
      rfl
  unfold amount
  rw [none, if_pos rfl, Nat.zero_add]

theorem openedMinute {α : Type} (l : List α) : opened 60 (opened 900 l) = opened 60 l := by
  unfold opened
  rw [List.drop_drop, List.length_drop]
  congr 1
  omega

theorem gainOpened (c : Counter) (seconds : List Second) (s : Second) :
    gain c (opened 900 seconds) s = gain c seconds s := by
  unfold gain minuteGain
  rw [openedMinute, openedLength]
  have aligned : (seconds.length % 900 + 1) % 60 = (seconds.length + 1) % 60 := by omega
  rw [aligned]

theorem amountSplit (c : Counter) (seconds : List Second) :
    amount c seconds = amount c (closed 900 seconds) + amount c (opened 900 seconds) := by
  induction seconds using List.reverseRecOn with
  | nil => exact (amountNil c).trans (congrArg₂ (· + ·) (amountNil c) (amountNil c)).symm
  | append_singleton seconds s ih =>
    by_cases full : (seconds.length + 1) % 900 = 0
    · rw [closedFull s full, openedFull s full, amountNil, Nat.add_zero]
    · rw [closedGrown s full, openedGrown s full, amountSnoc, amountSnoc, gainOpened, ih,
        Nat.add_assoc]

end SerialAdapter.Telemetry
