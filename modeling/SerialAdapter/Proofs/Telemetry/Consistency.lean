import SerialAdapter.Proofs.Telemetry.Run

/-! The counters of an interval against one another and against its length. Each relation holds of
every second that can be judged and so of their sum; only that a degraded minute has a second to
spare is a fact about whole minutes. -/
namespace SerialAdapter

structure Thresholds.Positive (t : Thresholds) : Prop where
  e1Bipolar : t.e1Bipolar ≠ 0
  e1Path : t.e1Path ≠ 0
  g703Code : t.g703Code ≠ 0
  e1PerMille : t.e1PerMille ≠ 0
  g703Divisor : t.g703Divisor ≠ 0

theorem usablePositive (t : Thresholds) : t.usable = true ↔ t.Positive := by
  simp only [Thresholds.usable, Bool.and_eq_true, bne_iff_ne]
  constructor
  · rintro ⟨⟨⟨⟨bipolar, path⟩, code⟩, perMille⟩, divisor⟩
    exact ⟨bipolar, path, code, perMille, divisor⟩
  · rintro ⟨bipolar, path, code, perMille, divisor⟩
    exact ⟨⟨⟨⟨bipolar, path⟩, code⟩, perMille⟩, divisor⟩

namespace Telemetry

structure Consistent (count : Counter → Nat) (s : Nat) : Prop where
  errored : count .unavailableSeconds + count .erroredSeconds ≤ s
  lineErrored : count .unavailableSeconds + count .lineErroredSeconds ≤ s
  severity : count .unavailableSeconds + count .severelyErroredSeconds +
    count .burstyErroredSeconds ≤ s
  bursty : count .burstyErroredSeconds ≤ count .erroredSeconds
  framing : count .severelyErroredFramingSeconds ≤ count .erroredSeconds
  slip : count .controlledSlipSeconds ≤ count .erroredSeconds
  severe : count .severelyErroredSeconds ≤ count .lineErroredSeconds + count .erroredSeconds
  violated : count .lineErroredSeconds ≤ count .bipolarViolations
  violations : count .bipolarViolations ≤ 65535 * count .lineErroredSeconds
  minutes : count .degradedMinutes ≤ s / 60
  spoiled : count .degradedMinutes + count .unavailableSeconds +
    count .severelyErroredSeconds ≤ s
  frameSync : count .frameSyncErrors ≤ 65535 * s
  crc : count .crcErrors ≤ 65535 * s
  remoteCrc : count .remoteCrcErrors ≤ 65535 * s

theorem consistentNone : Consistent (fun _ => 0) 0 := by
  constructor <;> simp

theorem consistentAdd {f g : Counter → Nat} {s t : Nat} (hf : Consistent f s)
    (hg : Consistent g t) : Consistent (fun c => f c + g c) (s + t) := by
  cases hf
  cases hg
  constructor <;> omega

theorem consistentWords {count : Counter → Nat} {s : Nat} (h : Consistent count s)
    (c : Counter) : count c ≤ 65535 * s := by
  cases h
  cases c <;> omega

structure Sample.Short (s : Sample) : Prop where
  bipolar : s.bipolar.toNat ≤ 65535
  crc : s.crc.toNat ≤ 65535
  frameSync : s.frameSync.toNat ≤ 65535
  remoteCrc : s.remoteCrc.toNat ≤ 65535

theorem onceLe (b : Bool) : (once b).toNat ≤ 1 := by
  cases b <;> decide

theorem onceMono {a b : Bool} (implies : a = true → b = true) :
    (once a).toNat ≤ (once b).toNat := by
  cases a <;> cases b <;> simp_all [once]

theorem onceOr {a b c : Bool} (either : a = true → b = true ∨ c = true) :
    (once a).toNat ≤ (once b).toNat + (once c).toNat := by
  cases a <;> cases b <;> cases c <;> simp_all [once]

theorem onceApart (a b : Bool) : (once a).toNat + (once (!a && b)).toNat ≤ 1 := by
  cases a <;> cases b <;> decide

theorem onceViolations {x : UInt32} (short : x.toNat ≤ 65535) :
    (once (0 < x)).toNat ≤ x.toNat ∧ x.toNat ≤ 65535 * (once (0 < x)).toNat := by
  by_cases some : 0 < x
  · have one : (once (0 < x)).toNat = 1 := by simp [once, some]
    have more : 0 < x.toNat := UInt32.lt_iff_toNat_lt.mp some
    omega
  · have none : (once (0 < x)).toNat = 0 := by simp [once, some]
    have zero : ¬ 0 < x.toNat := fun more => some (UInt32.lt_iff_toNat_lt.mpr more)
    omega

theorem reached {t x : UInt32} (positive : t ≠ 0) (above : t ≤ x) : 0 < x := by
  have low := UInt32.le_iff_toNat_le.mp above
  have some : t.toNat ≠ 0 := fun zero => positive (UInt32.toNat_inj.mp zero)
  refine UInt32.lt_iff_toNat_lt.mpr ?_
  change 0 < x.toNat
  omega

abbrev Verdict.count (v : Verdict) (c : Counter) : Nat := (v.counts.get c).toNat

theorem consistentUnavailable : Consistent Verdict.unavailable.count 1 := by
  constructor <;> decide

theorem consistentE1 {s : Sample} (crc4 : Bool) {t : Thresholds} (short : s.Short)
    (positive : t.Positive) : Consistent (judgeE1 s crc4 t).count 1 := by
  unfold judgeE1
  split
  · exact consistentUnavailable
  · obtain ⟨path, same⟩ : ∃ path, s.path crc4 = path := ⟨_, rfl⟩
    obtain ⟨out, framed⟩ : ∃ out, s.alarms.outOfFrame = out := ⟨_, rfl⟩
    obtain ⟨slip, slipped⟩ : ∃ slip, s.alarms.slip = slip := ⟨_, rfl⟩
    obtain ⟨severe, judged⟩ : ∃ severe,
      (decide (t.e1Bipolar ≤ s.bipolar) || decide (t.e1Path ≤ path)) = severe := ⟨_, rfl⟩
    dsimp only
    rw [same, framed, slipped, judged]
    have violations := onceViolations short.bipolar
    have lined := onceLe (0 < s.bipolar)
    have erred := onceLe (0 < path || out || slip)
    have apart := onceApart severe (0 < path)
    have pathErred : (once (0 < path)).toNat ≤ (once (0 < path || out || slip)).toNat :=
      onceMono (by simp +contextual)
    have outErred : (once out).toNat ≤ (once (0 < path || out || slip)).toNat :=
      onceMono (by simp +contextual)
    have slipErred : (once slip).toNat ≤ (once (0 < path || out || slip)).toNat :=
      onceMono (by simp +contextual)
    have bursty : (once (!severe && 0 < path)).toNat ≤ (once (0 < path)).toNat :=
      onceMono (by simp +contextual)
    have severity : (once severe).toNat ≤
        (once (0 < s.bipolar)).toNat + (once (0 < path)).toNat := by
      refine onceOr fun on => ?_
      rw [← judged, Bool.or_eq_true, decide_eq_true_eq, decide_eq_true_eq] at on
      rw [decide_eq_true_eq, decide_eq_true_eq]
      exact on.imp (reached positive.e1Bipolar) (reached positive.e1Path)
    cases short
    constructor <;> simp only [Verdict.count, Interval.get, UInt32.toNat_zero] <;> omega

theorem consistentG703 {s : Sample} {t : Thresholds} (short : s.Short)
    (positive : t.Positive) : Consistent (judgeG703 s t).count 1 := by
  unfold judgeG703
  split
  · exact consistentUnavailable
  · dsimp only
    have violations := onceViolations short.bipolar
    have lined := onceLe (0 < s.bipolar)
    have apart := onceApart (t.g703Code ≤ s.bipolar) (0 < s.bipolar)
    have severity : (once (t.g703Code ≤ s.bipolar)).toNat ≤ (once (0 < s.bipolar)).toNat :=
      onceMono (by simpa using reached positive.g703Code)
    have bursty : (once (!decide (t.g703Code ≤ s.bipolar) && 0 < s.bipolar)).toNat ≤
        (once (0 < s.bipolar)).toNat := onceMono (by simp +contextual)
    constructor <;> simp only [Verdict.count, Interval.get, UInt32.toNat_zero] <;> omega

structure Second.Sound (s : Second) : Prop where
  sample : s.sample.Short
  thresholds : s.thresholds.Positive

theorem secondConsistent {s : Second} (sound : s.Sound) : Consistent s.verdict.count 1 := by
  rcases s.judgedBy with e1 | g703
  · rw [e1]
    exact consistentE1 s.crc4 sound.sample sound.thresholds
  · rw [g703]
    exact consistentG703 sound.sample sound.thresholds

def sumOf (c : Counter) (seconds : List Second) : Nat :=
  (seconds.map (·.verdict.count c)).sum

@[simp] theorem sumOfCons (c : Counter) (s : Second) (seconds : List Second) :
    sumOf c (s :: seconds) = s.verdict.count c + sumOf c seconds := rfl

@[simp] theorem sumOfAppend (c : Counter) (first second : List Second) :
    sumOf c (first ++ second) = sumOf c first + sumOf c second := by
  simp [sumOf]

theorem sumConsistent {seconds : List Second} (sound : ∀ s ∈ seconds, s.Sound) :
    Consistent (fun c => sumOf c seconds) seconds.length := by
  induction seconds with
  | nil => exact consistentNone
  | cons s seconds ih =>
    obtain ⟨first, rest⟩ := List.forall_mem_cons.mp sound
    have sum := consistentAdd (secondConsistent first) (ih rest)
    simpa [Nat.add_comm] using sum

def spoiled (seconds : List Second) : Nat :=
  sumOf .unavailableSeconds seconds + sumOf .severelyErroredSeconds seconds

theorem spoiledAppend (first second : List Second) :
    spoiled (first ++ second) = spoiled first + spoiled second := by
  simp only [spoiled, sumOfAppend]
  omega

theorem partakerClean {s : Second} (some : s.verdict.participating.isSome = true) :
    s.verdict.count .unavailableSeconds + s.verdict.count .severelyErroredSeconds = 0 := by
  rw [participatingSame, Option.isSome_ite, Second.partakes, Bool.and_eq_true, decide_eq_true_eq,
    decide_eq_true_eq] at some
  obtain ⟨available, mild⟩ := some
  simp only [Verdict.count, Interval.get, available, mild]
  rfl

theorem degradedPartaker {minute : List Second} (hit : degraded minute = true) :
    ∃ s ∈ minute, s.verdict.participating.isSome = true := by
  have some : errors minute ≠ 0 := by
    intro none
    unfold degraded at hit
    split at hit
    · contradiction
    · rw [none] at hit
      split at hit <;> simp at hit
  have taken : partaking minute ≠ [] := by
    intro none
    exact some (by simp [errors, none])
  obtain ⟨e, shown⟩ := List.exists_mem_of_ne_nil _ taken
  obtain ⟨s, inside, partakes⟩ := List.mem_filterMap.mp shown
  exact ⟨s, inside, by simp [partakes]⟩

section Minutes

variable {seconds : List Second} (sound : ∀ s ∈ seconds, s.Sound)
include sound

theorem spoiledLe : spoiled seconds ≤ seconds.length := by
  have sum := (sumConsistent sound).severity
  unfold spoiled
  omega

theorem spoiledLt {s : Second} (inside : s ∈ seconds)
    (clean : s.verdict.count .unavailableSeconds + s.verdict.count .severelyErroredSeconds = 0) :
    spoiled seconds < seconds.length := by
  obtain ⟨before, after, rfl⟩ := List.append_of_mem inside
  have first := spoiledLe fun s shown => sound s (List.mem_append_left _ shown)
  have last := spoiledLe fun s shown =>
    sound s (List.mem_append_right _ (List.mem_cons_of_mem _ shown))
  unfold spoiled at *
  simp only [sumOfAppend, sumOfCons, List.length_append, List.length_cons]
  omega

theorem spoiledMinute (hit : degraded seconds = true) : spoiled seconds < seconds.length := by
  obtain ⟨s, inside, partakes⟩ := degradedPartaker hit
  exact spoiledLt sound inside (partakerClean partakes)

end Minutes

theorem degradedSpoiled {seconds : List Second} (sound : ∀ s ∈ seconds, s.Sound) :
    degradedIn seconds + spoiled (closed 60 seconds) ≤ (closed 60 seconds).length := by
  induction seconds using List.reverseRecOn with
  | nil => exact Nat.le_refl 0
  | append_singleton seconds s ih =>
    have before := ih fun s shown => sound s (List.mem_append_left _ shown)
    rw [degradedSnoc]
    unfold minuteGain
    by_cases full : (seconds.length + 1) % 60 = 0
    · have minute : ∀ x ∈ opened 60 seconds ++ [s], x.Sound := fun x shown =>
        sound x ((List.mem_append.mp shown).elim
          (fun early => List.mem_append_left _ (openedWithin early))
          (fun last => List.mem_append_right _ last))
      have room : (if degraded (opened 60 seconds ++ [s]) then 1 else 0) +
          spoiled (opened 60 seconds ++ [s]) ≤ (opened 60 seconds ++ [s]).length := by
        split
        · have less := spoiledMinute minute (by assumption)
          omega
        · have le := spoiledLe minute
          omega
      have whole : seconds ++ [s] = closed 60 seconds ++ (opened 60 seconds ++ [s]) := by
        rw [← List.append_assoc, closedOpened]
      have length := (congrArg List.length whole).trans List.length_append
      have split := (congrArg spoiled whole).trans (spoiledAppend _ _)
      rw [closedFull s full]
      simp only [full, true_and]
      omega
    · rw [closedGrown s full]
      simpa [full] using before

theorem degradedRoom {seconds : List Second} (sound : ∀ s ∈ seconds, s.Sound) :
    degradedIn seconds + spoiled seconds ≤ seconds.length := by
  have parts := closedOpened 60 seconds
  have length := (congrArg List.length parts).symm.trans List.length_append
  have split := (congrArg spoiled parts).symm.trans (spoiledAppend _ _)
  have before := degradedSpoiled sound
  have after : spoiled (opened 60 seconds) ≤ (opened 60 seconds).length :=
    spoiledLe fun s shown => sound s (openedWithin shown)
  omega

theorem amountSum {c : Counter} (other : c ≠ .degradedMinutes) (seconds : List Second) :
    amount c seconds = sumOf c seconds := by
  unfold amount
  rw [if_neg other, Nat.add_zero]
  rfl

theorem amountConsistent {seconds : List Second} (sound : ∀ s ∈ seconds, s.Sound) :
    Consistent (fun c => amount c seconds) seconds.length := by
  have minutes := degradedLe seconds
  have room := degradedRoom sound
  unfold spoiled at room
  cases sumConsistent sound
  constructor <;> simp only [amountMinutes, amountSum, ne_eq, reduceCtorEq, not_false_eq_true] <;>
    omega

structure Interval.Sound (a : Interval) (s : Nat) : Prop where
  consistent : Consistent (fun c => (a.get c).toNat) s
  unsaturated : ∀ c, a.get c < 0xFFFFFFFF

theorem reckonSound {seconds : List Second} (sound : ∀ s ∈ seconds, s.Sound)
    (short : seconds.length ≤ 900) : (reckon seconds).Sound seconds.length := by
  have amounts := amountConsistent sound
  have words (c : Counter) : amount c seconds ≤ 65535 * 900 :=
    Nat.le_trans (consistentWords amounts c) (Nat.mul_le_mul_left _ short)
  have precise (c : Counter) : ((reckon seconds).get c).toNat = amount c seconds := by
    have word := words c
    rw [reckonGet, cappedToNat]
    omega
  refine ⟨?_, fun c => ?_⟩
  · rw [funext precise]
    exact amounts
  · have word := words c
    refine UInt32.lt_iff_toNat_lt.mpr ?_
    rw [precise]
    change _ < 4294967295
    omega

namespace Monitor

def Honest (m : Monitor) : Prop := ∃ log : Log, m.Tracks log ∧ ∀ s ∈ log.seconds, s.Sound

theorem honestFresh (settling : UInt8) : Honest { settling := settling } :=
  ⟨{ window := settling.toNat }, ⟨rfl, reckonsNone settling⟩, fun s shown => by contradiction⟩

variable {m : Monitor} (h : m.Honest)
include h

theorem honestResync (k : UInt8) : (m.resync k).Honest := by
  obtain ⟨log, tracks, sound⟩ := h
  exact ⟨log.enter (.resync k), tracksTake tracks (.resync k), sound⟩

theorem honestRecord (mode : ChannelMode) (crc4 : Bool) {s : Sample} {t : Thresholds}
    (short : s.Short) (positive : t.Positive) : (m.record mode crc4 s t).2.Honest := by
  obtain ⟨log, tracks, sound⟩ := h
  refine ⟨log.enter (.second mode crc4 s t), tracksSecond tracks mode crc4 s t, ?_⟩
  simp only [Log.enter]
  split
  · exact sound
  · intro second shown
    rcases List.mem_append.mp shown with old | new
    · exact sound second old
    · cases judged : judge mode s crc4 t with
      | none =>
        rw [secondNone judged] at new
        contradiction
      | some v =>
        rw [secondSome judged] at new
        cases List.mem_singleton.mp new
        exact ⟨short, positive⟩

theorem honestIntervals : m.current.Sound m.seconds.toNat ∧ ∀ a ∈ m.history, a.Sound 900 := by
  obtain ⟨log, tracks, sound⟩ := h
  have reckons := tracks.reckons
  have most := Nat.mod_lt log.seconds.length (by decide : 0 < 900)
  constructor
  · rw [reckons.current, reckons.count, ← openedLength]
    refine reckonSound (fun s shown => sound s (openedWithin shown)) ?_
    rw [openedLength]
    omega
  · intro a shown
    rw [reckons.history] at shown
    obtain ⟨k, low, rfl⟩ := List.mem_map.mp (List.mem_of_mem_take shown)
    have few := List.mem_range.mp (List.mem_reverse.mp low)
    have full : (block 900 k log.seconds).length = 900 := blockLength (by omega)
    have whole := reckonSound (fun s shown => sound s (blockWithin shown)) (Nat.le_of_eq full)
    rwa [full] at whole

end Monitor

end Telemetry
end SerialAdapter
