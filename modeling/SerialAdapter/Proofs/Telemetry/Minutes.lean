import SerialAdapter.Proofs.Telemetry.Run

/-! The test of a minute against its rule. The rule counts with numbers of any size and leaves a
second out by what it was counted as; a monitor has one word for the seconds and one for the errors,
and the second of these may be full. -/
namespace SerialAdapter.Telemetry

def partakers (minute : List Second) : Nat := minute.countP Second.partakes

def volume (minute : List Second) : Nat :=
  ((minute.filter Second.partakes).map (·.sample.bipolar.toNat)).sum

def Second.exceeds (last : Second) (minute : List Second) : Bool :=
  match last.mode with
  | .e1 => partakers minute * last.thresholds.e1PerMille.toNat < volume minute * 1000
  | .g703 => partakers minute < volume minute * last.thresholds.g703Divisor.toNat
  | .async | .hdlc => false

def exceeding (seconds : List Second) : Nat :=
  (List.range (seconds.length / 60)).countP fun k =>
    (block 60 k seconds).getLast?.any (·.exceeds (block 60 k seconds))

theorem partakingSame (minute : List Second) :
    partaking minute = (minute.filter Second.partakes).map (·.sample.bipolar) := by
  induction minute with
  | nil => rfl
  | cons s minute ih =>
    have taken := participatingSame s
    unfold partaking at ih ⊢
    cases part : s.partakes with
    | true =>
      rw [part, if_pos rfl] at taken
      rw [List.filterMap_cons, taken, List.filter_cons_of_pos part, List.map_cons, ih]
    | false =>
      rw [part, if_neg Bool.false_ne_true] at taken
      rw [List.filterMap_cons, taken, List.filter_cons_of_neg (by simp [part]), ih]

theorem partakersSame (minute : List Second) : (partaking minute).length = partakers minute := by
  rw [partakingSame, List.length_map, partakers, List.countP_eq_length_filter]

theorem volumeSame (minute : List Second) : errors minute = volume minute := by
  rw [errors, partakingSame, List.map_map]
  rfl

theorem partakersLe (minute : List Second) : partakers minute ≤ minute.length :=
  List.countP_le_length

theorem degradedExceeds {minute : List Second} {last : Second}
    (ends : minute.getLast? = some last) : degraded minute = last.exceeds minute := by
  unfold degraded Second.exceeds
  rw [ends, partakersSame, volumeSame]
  obtain ⟨mode, crc4, sample, thresholds, verdict, judged⟩ := last
  cases mode with
  | e1 => rfl
  | g703 => rfl
  | async => contradiction
  | hdlc => contradiction

theorem degradedExceeding (seconds : List Second) : degradedIn seconds = exceeding seconds := by
  refine List.countP_congr fun k _ => ?_
  cases ends : (block 60 k seconds).getLast? with
  | none =>
    unfold degraded
    rw [ends]
    rfl
  | some last =>
    rw [degradedExceeds ends]
    rfl

structure Tally.Exact (tally : Tally) (minute : List Second) : Prop where
  few : partakers minute ≤ 60
  seconds : tally.seconds.toNat = partakers minute
  errors : tally.errors.toNat = min (volume minute) 4294967295
  allowed : ∀ t : Thresholds, (tally.seconds.toUInt64 * t.e1PerMille.toUInt64).toNat =
    partakers minute * t.e1PerMille.toNat
  scaled : (tally.errors.toUInt64 * 1000).toNat = tally.errors.toNat * 1000
  divided : ∀ t : Thresholds, (tally.errors.toUInt64 * t.g703Divisor.toUInt64).toNat =
    tally.errors.toNat * t.g703Divisor.toNat

theorem talliesExact {tally : Tally} {minute : List Second} (h : Tallies tally minute)
    (short : minute.length ≤ 60) : tally.Exact minute := by
  have seconds : tally.seconds.toNat = partakers minute := h.seconds.trans (partakersSame minute)
  refine ⟨Nat.le_trans (partakersLe minute) short, seconds, ?_, fun t => ?_,
    productExact tally.errors 1000, fun t => productExact _ _⟩
  · rw [h.errors, cappedToNat, volumeSame]
  · rw [productExact, seconds]

theorem talliesZero {tally : Tally} (h : Tallies tally []) : tally = {} := by
  obtain ⟨seconds, errors⟩ := tally
  have none : seconds = 0 := UInt32.toNat_inj.mp h.seconds
  have zero : errors = 0 := h.errors.trans (by decide)
  rw [none, zero]

namespace Monitor

def latest (m : Monitor) : Interval := if m.seconds = 0 then m.history.headD {} else m.current

variable {m : Monitor} {seconds : List Second}

theorem latestReckoned (h : Reckons m seconds) (s : Second) :
    (m.count s.mode s.thresholds s.verdict).latest = reckon (opened 900 seconds ++ [s]) := by
  have next := reckonsCount h s
  have count := next.count
  rw [List.length_append, List.length_singleton] at count
  unfold latest
  by_cases full : (seconds.length + 1) % 900 = 0
  · rw [full] at count
    rw [if_pos (UInt32.toNat_inj.mp count), next.history, intervalsFull s full]
    rfl
  · have some : (m.count s.mode s.thresholds s.verdict).seconds ≠ 0 := fun none => by
      rw [none] at count
      exact full count.symm
    rw [if_neg some, next.current, openedGrown s full]

theorem minutesReckoned {seconds : List Second} (short : seconds.length ≤ 900) :
    (reckon seconds).degradedMinutes.toNat = degradedIn seconds := by
  have few := degradedLe seconds
  have word : (reckon seconds).degradedMinutes = capped (amount .degradedMinutes seconds) :=
    reckonGet seconds .degradedMinutes
  rw [word, amountMinutes, cappedToNat]
  omega

theorem latestMinutes (h : Reckons m seconds) (s : Second) :
    let interval := opened 900 seconds
    (m.count s.mode s.thresholds s.verdict).latest.degradedMinutes.toNat =
      m.current.degradedMinutes.toNat +
        if (interval.length + 1) % 60 = 0 ∧ s.exceeds (opened 60 interval ++ [s]) then 1 else 0 := by
  intro interval
  have before : interval.length < 900 := by
    rw [openedLength]
    exact Nat.mod_lt _ (by decide)
  have after : (interval ++ [s]).length ≤ 900 := by
    rw [List.length_append, List.length_singleton]
    exact before
  have ends : (opened 60 interval ++ [s]).getLast? = some s := List.getLast?_concat
  rw [latestReckoned h, h.current, minutesReckoned (Nat.le_of_lt before), minutesReckoned after,
    degradedSnoc, minuteGain, degradedExceeds ends]

theorem takeCounted {log : Log} (h : Tracks m log) (settled : log.window = 0) (s : Second) :
    m.take (.second s.mode s.crc4 s.sample s.thresholds) =
      m.count s.mode s.thresholds s.verdict := by
  have off : ¬m.isSettling = true := fun on =>
    Nat.lt_irrefl 0 (settled ▸ (settlingIff h).mp on)
  rw [take, record, if_neg off, s.judged]

theorem historyMinutes (h : Reckons m seconds) {i : Nat} {a : Interval}
    (shown : m.interval? i = some a) :
    a.degradedMinutes.toNat = exceeding (block 900 (seconds.length / 900 - 1 - i) seconds) := by
  rw [interval?, h.history, List.getElem?_take] at shown
  split at shown
  · obtain ⟨low, -⟩ := List.getElem?_eq_some_iff.mp shown
    rw [intervalsLength] at low
    have whole : (block 900 (seconds.length / 900 - 1 - i) seconds).length = 900 :=
      blockLength (by omega)
    rw [intervalsGet low] at shown
    rw [← Option.some.inj shown, minutesReckoned (Nat.le_of_eq whole), degradedExceeding]
  · contradiction

end Monitor

/-- Degraded minutes after any run. The tally is that of the running minute and starts from nothing
with each; the next second to count adds a minute exactly if it ends one that broke the rule; and the
open interval and each closed one have as many as they hold. -/
theorem minutesExact (inputs : List Input) :
    let m := run Monitor.take {} inputs
    let log := run Log.enter {} inputs
    let interval := opened 900 log.seconds
    let minute := opened 60 interval
    m.seconds.toNat = interval.length ∧ m.tally.Exact minute ∧
      (interval.length % 60 = 0 → m.tally = {}) ∧
      (log.window = 0 → ∀ s : Second,
        let next := m.take (.second s.mode s.crc4 s.sample s.thresholds)
        (m.tally.add s.verdict.participating).Exact (minute ++ [s]) ∧
        next.latest.degradedMinutes.toNat = m.current.degradedMinutes.toNat +
          if (interval.length + 1) % 60 = 0 ∧ s.exceeds (minute ++ [s]) then 1 else 0) ∧
      m.current.degradedMinutes.toNat = exceeding interval ∧
      ∀ i a, m.interval? i = some a → a.degradedMinutes.toNat =
        exceeding (block 900 (log.seconds.length / 900 - 1 - i) log.seconds) := by
  intro m log interval minute
  have tracks : m.Tracks log := Monitor.tracksRun inputs
  have reckons := tracks.reckons
  have length : interval.length = log.seconds.length % 900 := openedLength 900 log.seconds
  have same : minute = opened 60 log.seconds := openedMinute log.seconds
  have few : minute.length < 60 := by
    rw [openedLength]
    exact Nat.mod_lt _ (by decide)
  have tally : Tallies m.tally minute := same ▸ reckons.tally
  refine ⟨reckons.count.trans length.symm, talliesExact tally (Nat.le_of_lt few), fun aligned => ?_,
    fun settled s => ⟨?_, ?_⟩, ?_, fun i a shown => Monitor.historyMinutes reckons shown⟩
  · have none : minute = [] := List.eq_nil_of_length_eq_zero (by rw [openedLength, aligned])
    exact talliesZero (none ▸ tally)
  · refine talliesExact (tallyAdd tally s few) ?_
    rw [List.length_append, List.length_singleton]
    exact few
  · rw [Monitor.takeCounted tracks settled]
    exact Monitor.latestMinutes reckons s
  · have short : interval.length ≤ 900 := by omega
    rw [reckons.current, Monitor.minutesReckoned short, degradedExceeding]

def laxest : Thresholds :=
  { e1Bipolar := 4294967295, e1Path := 4294967295, g703Code := 4294967295, e1PerMille := 4294967295,
    g703Divisor := 1 }

def loud (mode : ChannelMode) : Input := .second mode false { bipolar := 4294967294 } laxest

theorem fullTallyDegrades :
    let before := List.replicate 30 (loud .g703) ++ List.replicate 29 (loud .e1)
    let m := run Monitor.take {} before
    (run Log.enter {} before).window = 0 ∧ m.tally = ⟨59, 4294967295⟩ ∧
      (m.take (loud .e1)).latest.degradedMinutes.toNat = 1 := by
  intro before m
  have settled : (run Log.enter {} before).window = 0 := by decide +kernel
  have next := ((minutesExact before).2.2.2.1 settled
    ⟨.e1, false, { bipolar := 4294967294 }, laxest, _, rfl⟩).2
  exact ⟨settled, by decide +kernel, next.trans (by decide +kernel)⟩

end SerialAdapter.Telemetry
