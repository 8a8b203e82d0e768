import SerialAdapter.Proofs.Telemetry.Reckoning

/-! A monitor against the seconds that it counted: the open interval, the closed ones and the running
minute are the reckoning of the parts of this list. -/
namespace SerialAdapter.Telemetry

theorem productExact (a b : UInt32) :
    (a.toUInt64 * b.toUInt64).toNat = a.toNat * b.toNat := by
  have fits : a.toNat * b.toNat ≤ 4294967295 * 4294967295 :=
    Nat.mul_le_mul (Nat.le_of_lt_succ a.toNat_lt) (Nat.le_of_lt_succ b.toNat_lt)
  rw [UInt64.toNat_mul, UInt32.toNat_toUInt64, UInt32.toNat_toUInt64]
  exact Nat.mod_eq_of_lt (Nat.lt_of_le_of_lt fits (by decide))

theorem minuteE1 {tally : Tally} {minute : List Second} {t : Thresholds}
    (short : (partaking minute).length ≤ 60)
    (seconds : tally.seconds.toNat = (partaking minute).length)
    (counted : tally.errors = capped (errors minute)) :
    minuteDegradedE1 tally.errors tally.seconds t =
      decide ((partaking minute).length * t.e1PerMille.toNat < errors minute * 1000) := by
  have rate := t.e1PerMille.toNat_lt
  have allowed : (partaking minute).length * t.e1PerMille.toNat ≤ 60 * 4294967295 :=
    Nat.mul_le_mul short (by omega)
  have scaled : (tally.errors.toUInt64 * 1000).toNat = tally.errors.toNat * 1000 :=
    productExact tally.errors 1000
  unfold minuteDegradedE1
  refine decide_eq_decide.mpr ?_
  rw [UInt64.lt_iff_toNat_lt, productExact, scaled, seconds, counted, cappedToNat]
  omega

theorem minuteG703 {tally : Tally} {minute : List Second} {t : Thresholds}
    (short : (partaking minute).length ≤ 60)
    (seconds : tally.seconds.toNat = (partaking minute).length)
    (counted : tally.errors = capped (errors minute)) :
    minuteDegradedG703 tally.errors tally.seconds t =
      decide ((partaking minute).length < errors minute * t.g703Divisor.toNat) := by
  unfold minuteDegradedG703
  refine decide_eq_decide.mpr ?_
  rw [UInt64.lt_iff_toNat_lt, productExact, UInt32.toNat_toUInt64, seconds, counted, cappedToNat]
  -- a sum that was cut off is far beyond what a minute allows, unless nothing is
  rcases Nat.le_total (errors minute) 4294967295 with small | large
  · rw [Nat.min_eq_left small]
  · rw [Nat.min_eq_right large]
    rcases Nat.eq_zero_or_pos t.g703Divisor.toNat with zero | some
    · rw [zero, Nat.mul_zero, Nat.mul_zero]
    · have most : 4294967295 * 1 ≤ 4294967295 * t.g703Divisor.toNat := Nat.mul_le_mul_left _ some
      have more := Nat.mul_le_mul_right t.g703Divisor.toNat large
      omega

structure Tallies (tally : Tally) (minute : List Second) : Prop where
  seconds : tally.seconds.toNat = (partaking minute).length
  errors : tally.errors = capped (errors minute)

theorem talliesNone : Tallies {} [] := ⟨rfl, by decide⟩

theorem partakingLe (minute : List Second) : (partaking minute).length ≤ minute.length :=
  List.length_filterMap_le _ _

theorem tallyDegraded {tally : Tally} {minute : List Second} {s : Second}
    (h : Tallies tally (minute ++ [s])) (short : (minute ++ [s]).length ≤ 60) :
    tally.degraded s.mode s.thresholds = degraded (minute ++ [s]) := by
  have few := Nat.le_trans (partakingLe _) short
  unfold Tally.degraded degraded
  rw [List.getLast?_append, List.getLast?_singleton]
  simp only [Option.some_or]
  cases s.mode with
  | e1 => exact minuteE1 few h.seconds h.errors
  | _ => exact minuteG703 few h.seconds h.errors

theorem tallyAdd {tally : Tally} {minute : List Second} (h : Tallies tally minute) (s : Second)
    (short : minute.length < 60) :
    Tallies (tally.add s.verdict.participating) (minute ++ [s]) := by
  have few := partakingLe minute
  have joined := partakingSnoc minute s
  cases shown : s.verdict.participating with
  | none =>
    have same : partaking (minute ++ [s]) = partaking minute := by
      rw [joined, shown]
      exact List.append_nil _
    refine ⟨?_, ?_⟩
    · rw [same]
      exact h.seconds
    · rw [errors, same]
      exact h.errors
  | some found =>
    have more : partaking (minute ++ [s]) = partaking minute ++ [found] := by
      rw [joined, shown]
      rfl
    refine ⟨?_, ?_⟩
    · have one := UInt32.toNat_add tally.seconds 1
      rw [h.seconds] at one
      have single : (1 : UInt32).toNat = 1 := rfl
      rw [more, List.length_append, List.length_singleton]
      change (tally.seconds + 1).toNat = _
      omega
    · rw [errors, more, List.map_append, List.sum_append]
      change satAdd tally.errors found = capped (errors minute + (found.toNat + 0))
      rw [h.errors, cappedAdd, Nat.add_zero]

namespace Monitor

def intervals (seconds : List Second) : List Interval :=
  (List.range (seconds.length / 900)).reverse.map fun k => reckon (block 900 k seconds)

theorem intervalsLength (seconds : List Second) :
    (intervals seconds).length = seconds.length / 900 := by
  rw [intervals, List.length_map, List.length_reverse, List.length_range]

theorem intervalsGet {seconds : List Second} {i : Nat} (low : i < seconds.length / 900) :
    (intervals seconds)[i]? = some (reckon (block 900 (seconds.length / 900 - 1 - i) seconds)) := by
  have inside : i < (List.range (seconds.length / 900)).length := by rwa [List.length_range]
  rw [intervals, List.getElem?_map, List.getElem?_reverse inside, List.length_range,
    List.getElem?_range (by omega)]
  rfl

theorem intervalsKept (seconds : List Second) (s : Second) :
    ((List.range (seconds.length / 900)).reverse.map fun k =>
      reckon (block 900 k (seconds ++ [s]))) = intervals seconds := by
  refine List.map_congr_left fun k shown => ?_
  have low := List.mem_range.mp (List.mem_reverse.mp shown)
  rw [blockKept (by omega)]

theorem intervalsGrown {seconds : List Second} (s : Second)
    (grown : (seconds.length + 1) % 900 ≠ 0) :
    intervals (seconds ++ [s]) = intervals seconds := by
  rw [← intervalsKept seconds s, intervals, List.length_append, List.length_singleton,
    Nat.succ_div_of_mod_ne_zero grown]

theorem intervalsFull {seconds : List Second} (s : Second)
    (full : (seconds.length + 1) % 900 = 0) :
    intervals (seconds ++ [s]) = reckon (opened 900 seconds ++ [s]) :: intervals seconds := by
  rw [← intervalsKept seconds s, intervals, List.length_append, List.length_singleton,
    Nat.succ_div_of_mod_eq_zero full, List.range_succ, List.reverse_append,
    List.reverse_singleton, List.singleton_append, List.map_cons, blockFull s full]

structure Reckons (m : Monitor) (seconds : List Second) : Prop where
  count : m.seconds.toNat = seconds.length % 900
  tally : Tallies m.tally (opened 60 seconds)
  current : m.current = reckon (opened 900 seconds)
  closedTotal : m.closedTotal = reckon (closed 900 seconds)
  closedSeconds : m.closedSeconds = capped (seconds.length / 900 * 900)
  history : m.history = (intervals seconds).take 48

theorem reckonsNone (settling : UInt8) : Reckons { settling := settling } [] where
  count := rfl
  tally := talliesNone
  current := reckonNil.symm
  closedTotal := reckonNil.symm
  closedSeconds := cappedSmall rfl
  history := rfl

theorem reckonsSettle {m : Monitor} {seconds : List Second} (h : Reckons m seconds)
    (settling : UInt8) : Reckons { m with settling := settling } seconds :=
  ⟨h.count, h.tally, h.current, h.closedTotal, h.closedSeconds, h.history⟩

def accrue (m : Monitor) (s : Second) : Monitor :=
  let m := m.add s.verdict
  if m.seconds % Limits.minuteSeconds = 0 then m.closeMinute s.mode s.thresholds else m

theorem countAccrue (m : Monitor) (s : Second) : m.count s.mode s.thresholds s.verdict =
    if Limits.intervalSeconds ≤ (m.accrue s).seconds then (m.accrue s).closeInterval
    else m.accrue s := rfl

section Step

variable {m : Monitor} {seconds : List Second} (h : Reckons m seconds) (s : Second)
include h

theorem addCount : (m.add s.verdict).seconds.toNat = seconds.length % 900 + 1 := by
  have one := UInt32.toNat_add m.seconds 1
  have low := Nat.mod_lt seconds.length (by decide : 0 < 900)
  rw [h.count] at one
  have single : (1 : UInt32).toNat = 1 := rfl
  change (m.seconds + 1).toNat = _
  omega

theorem minuteFull : (m.add s.verdict).seconds % Limits.minuteSeconds = 0 ↔
    (seconds.length + 1) % 60 = 0 := by
  have sixty : (Limits.minuteSeconds).toNat = 60 := rfl
  rw [← UInt32.toNat_inj, UInt32.toNat_mod, addCount h, sixty]
  change _ = 0 ↔ _
  omega

theorem addTally : Tallies (m.add s.verdict).tally (opened 60 seconds ++ [s]) := by
  refine tallyAdd h.tally s ?_
  rw [openedLength]
  exact Nat.mod_lt _ (by decide)

theorem addCurrent (c : Counter) : ((m.add s.verdict).current).get c =
    capped (amount c (opened 900 seconds) + (s.verdict.counts.get c).toNat) := by
  change (m.current.add s.verdict.counts).get c = _
  rw [Interval.getAdd, h.current, reckon, Interval.getOfCounters, cappedAdd]

theorem accruedMinute : (m.accrue s).current =
    if (seconds.length + 1) % 60 = 0 ∧ degraded (opened 60 seconds ++ [s]) then
      (m.add s.verdict).current.addMinute
    else (m.add s.verdict).current := by
  have short : (opened 60 seconds ++ [s]).length ≤ 60 := by
    rw [List.length_append, openedLength, List.length_singleton]
    omega
  have judged := tallyDegraded (addTally h s) short
  unfold accrue
  dsimp only
  by_cases full : (seconds.length + 1) % 60 = 0
  · rw [if_pos ((minuteFull h s).mpr full)]
    unfold closeMinute
    rw [judged]
    simp only [full, true_and]
    rfl
  · rw [if_neg fun hit => full ((minuteFull h s).mp hit), if_neg fun both => full both.1]

theorem accruedCurrent : (m.accrue s).current = reckon (opened 900 seconds ++ [s]) := by
  refine Interval.same fun c => ?_
  have before := addCurrent h s c
  rw [accruedMinute h s, reckonGet, amountSnoc, gainOpened]
  unfold gain minuteGain
  split
  · rw [Interval.getAddMinute, before]
    split
    · rename_i minutes
      subst minutes
      -- at most fifteen minutes in an interval, so the plain sum cannot wrap
      have few := degradedLe (opened 900 seconds)
      rw [openedLength] at few
      have zero : s.verdict.counts.get .degradedMinutes = 0 := s.noMinute
      rw [zero, amountMinutes]
      exact cappedSucc (by
        change degradedIn (opened 900 seconds) + 0 < _
        omega)
    · rfl
  · rw [before]
    split <;> rfl

theorem accruedTally : Tallies (m.accrue s).tally (opened 60 (seconds ++ [s])) := by
  unfold accrue
  dsimp only
  by_cases full : (seconds.length + 1) % 60 = 0
  · rw [if_pos ((minuteFull h s).mpr full), openedFull s full]
    exact talliesNone
  · rw [if_neg fun hit => full ((minuteFull h s).mp hit), openedGrown s full]
    exact addTally h s

omit h in
theorem accruedRest : (m.accrue s).seconds = (m.add s.verdict).seconds ∧
    (m.accrue s).closedTotal = m.closedTotal ∧ (m.accrue s).closedSeconds = m.closedSeconds ∧
    (m.accrue s).history = m.history ∧ (m.accrue s).settling = m.settling := by
  unfold accrue
  dsimp only
  split <;> exact ⟨rfl, rfl, rfl, rfl, rfl⟩

theorem reckonsCount :
    Reckons (m.count s.mode s.thresholds s.verdict) (seconds ++ [s]) := by
  obtain ⟨same, total, closedSeconds, history, -⟩ := accruedRest (m := m) s
  have count : (m.accrue s).seconds.toNat = seconds.length % 900 + 1 := by
    rw [same]
    exact addCount h s
  have current := accruedCurrent h s
  have tally := accruedTally h s
  have whole : Limits.intervalSeconds ≤ (m.accrue s).seconds ↔
      (seconds.length + 1) % 900 = 0 := by
    have limit : (Limits.intervalSeconds).toNat = 900 := rfl
    rw [UInt32.le_iff_toNat_le, limit, count]
    omega
  rw [countAccrue]
  by_cases full : (seconds.length + 1) % 900 = 0
  · rw [if_pos (whole.mpr full)]
    exact {
      count := by
        rw [List.length_append, List.length_singleton, full]
        rfl
      tally := tally
      current := by
        rw [openedFull s full]
        exact reckonNil.symm
      closedTotal := by
        rw [closedFull s full]
        change (m.accrue s).closedTotal.add (m.accrue s).current = _
        refine Interval.same fun c => ?_
        rw [Interval.getAdd, total, h.closedTotal, current, reckonGet, reckonGet, reckonGet,
          cappedCapped, amountSnoc, amountSnoc, amountSplit c seconds, gainOpened, Nat.add_assoc]
      closedSeconds := by
        rw [List.length_append, List.length_singleton, wholeFull full]
        change satAdd (m.accrue s).closedSeconds (m.accrue s).seconds = _
        rw [closedSeconds, h.closedSeconds, cappedAdd, count]
        congr 1
        omega
      history := by
        rw [intervalsFull s full, ← current]
        change ((m.accrue s).current :: (m.accrue s).history).take (47 + 1) = _
        rw [history, h.history, List.take_succ_cons, List.take_succ_cons, List.take_take]
        rfl }
  · rw [if_neg fun hit => full (whole.mp hit)]
    have order := Nat.succ_div_of_mod_ne_zero full
    exact {
      count := by
        rw [count, List.length_append, List.length_singleton]
        omega
      tally := tally
      current := by rw [current, openedGrown s full]
      closedTotal := by rw [total, h.closedTotal, closedGrown s full]
      closedSeconds := by
        rw [closedSeconds, h.closedSeconds, List.length_append, List.length_singleton, order]
      history := by
        rw [history, h.history, intervalsGrown s full] }

end Step

end Monitor

end SerialAdapter.Telemetry
