import SerialAdapter.Proofs.Run
import SerialAdapter.Proofs.Telemetry.Ledger

/-! Monitors over whole runs. A log keeps the settle window and every second that counted since the
last clearing; whatever a monitor shows after a run is the reckoning of its log. -/
namespace SerialAdapter.Telemetry

inductive Input where
  | second (mode : ChannelMode) (crc4 : Bool) (sample : Sample) (thresholds : Thresholds)
  | resync (seconds : UInt8)
  | clear

namespace Input

def isSecond : Input → Bool
  | .second .. => true
  | _ => false

def isResync : Input → Bool
  | .resync _ => true
  | _ => false

end Input

def Monitor.take : Input → Monitor → Monitor
  | .second mode crc4 s t, m => (m.record mode crc4 s t).2
  | .resync k, m => m.resync k
  | .clear, m => m.clear

structure Log where
  window : Nat := 0
  seconds : List Second := []

def Log.enter : Input → Log → Log
  | .second mode crc4 s t, l =>
    if 0 < l.window then { l with window := l.window - 1 }
    else { l with seconds := l.seconds ++ (Second.of? mode crc4 s t).toList }
  | .resync k, l => { l with window := k.toNat }
  | .clear, l => { l with seconds := [] }

theorem secondNone {mode : ChannelMode} {crc4 : Bool} {s : Sample} {t : Thresholds}
    (none : judge mode s crc4 t = none) : Second.of? mode crc4 s t = .none := by
  unfold Second.of?
  split
  · rename_i verdict judged
    rw [none] at judged
    contradiction
  · rfl

theorem secondSome {mode : ChannelMode} {crc4 : Bool} {s : Sample} {t : Thresholds} {v : Verdict}
    (judged : judge mode s crc4 t = some v) :
    Second.of? mode crc4 s t = some ⟨mode, crc4, s, t, v, judged⟩ := by
  unfold Second.of?
  split
  · rename_i verdict judged'
    cases Option.some.inj (judged.symm.trans judged')
    rfl
  · rename_i none
    rw [none] at judged
    contradiction

namespace Monitor

theorem countSettling (m : Monitor) (s : Second) :
    (m.count s.mode s.thresholds s.verdict).settling = m.settling := by
  obtain ⟨-, -, -, -, settling⟩ := accruedRest (m := m) s
  rw [countAccrue]
  split
  · exact settling
  · exact settling

structure Tracks (m : Monitor) (l : Log) : Prop where
  window : m.settling.toNat = l.window
  reckons : m.Reckons l.seconds

variable {m : Monitor} {l : Log}

theorem settlingIff (h : Tracks m l) : m.isSettling = true ↔ 0 < l.window := by
  unfold isSettling
  rw [decide_eq_true_iff, UInt8.lt_iff_toNat_lt, h.window]
  rfl

theorem recordAnswer (h : Tracks m l) (mode : ChannelMode) (crc4 : Bool) (s : Sample)
    (t : Thresholds) :
    (m.record mode crc4 s t).1 = (if 0 < l.window then none else judge mode s crc4 t) ∧
      (0 < l.window → (m.record mode crc4 s t).2 = { m with settling := m.settling - 1 }) := by
  unfold record
  by_cases on : 0 < l.window
  · rw [if_pos ((settlingIff h).mpr on), if_pos on]
    exact ⟨rfl, fun _ => rfl⟩
  · rw [if_neg fun settling => on ((settlingIff h).mp settling), if_neg on]
    refine ⟨?_, fun off => (on off).elim⟩
    split <;> exact Eq.symm (by assumption)

theorem tracksSecond (h : Tracks m l) (mode : ChannelMode) (crc4 : Bool) (s : Sample)
    (t : Thresholds) :
    Tracks (m.record mode crc4 s t).2 (l.enter (.second mode crc4 s t)) := by
  have window := h.window
  simp only [record, Log.enter]
  by_cases on : 0 < l.window
  · rw [if_pos ((settlingIff h).mpr on), if_pos on]
    refine ⟨?_, reckonsSettle h.reckons _⟩
    have one : (1 : UInt8).toNat = 1 := rfl
    change (m.settling - 1).toNat = l.window - 1
    rw [UInt8.toNat_sub_of_le]
    · rw [window, one]
    · rw [UInt8.le_iff_toNat_le, window, one]
      exact on
  · rw [if_neg fun settling => on ((settlingIff h).mp settling), if_neg on]
    cases judged : judge mode s crc4 t with
    | none =>
      rw [secondNone judged]
      refine ⟨window, ?_⟩
      change m.Reckons (l.seconds ++ [])
      rw [List.append_nil]
      exact h.reckons
    | some v =>
      rw [secondSome judged]
      have counted := reckonsCount h.reckons ⟨mode, crc4, s, t, v, judged⟩
      exact ⟨(countSettling m ⟨mode, crc4, s, t, v, judged⟩ ▸ window), counted⟩

theorem tracksTake (h : Tracks m l) (x : Input) : Tracks (m.take x) (l.enter x) := by
  cases x with
  | second mode crc4 s t => exact tracksSecond h mode crc4 s t
  | resync k => exact ⟨rfl, reckonsSettle h.reckons k⟩
  | clear => exact ⟨h.window, reckonsNone m.settling⟩

theorem tracksRun (inputs : List Input) : Tracks (run take {} inputs) (run Log.enter {} inputs) := by
  induction inputs using List.reverseRecOn with
  | nil => exact ⟨rfl, reckonsNone 0⟩
  | append_singleton inputs x ih =>
    rw [runSnoc, runSnoc]
    exact tracksTake ih x

end Monitor

theorem windowQuiet (l : Log) {inputs : List Input} (quiet : ∀ x ∈ inputs, x.isResync = false) :
    (run Log.enter l inputs).window = l.window - inputs.countP Input.isSecond := by
  induction inputs using List.reverseRecOn with
  | nil => rfl
  | append_singleton inputs x ih =>
    have before := ih fun y shown => quiet y (List.mem_append_left _ shown)
    have now := quiet x (List.mem_append_right _ (List.mem_singleton_self x))
    rw [runSnoc, List.countP_append]
    obtain ⟨l', here⟩ : ∃ l', run Log.enter l inputs = l' := ⟨_, rfl⟩
    rw [here] at before ⊢
    cases x with
    | second mode crc4 s t =>
      have one : List.countP Input.isSecond [.second mode crc4 s t] = 1 := rfl
      rw [one]
      simp only [Log.enter]
      split
      · change l'.window - 1 = _
        omega
      · change l'.window = _
        omega
    | resync k => contradiction
    | clear => exact before

theorem windowSince (earlier : List Input) (k : UInt8) {later : List Input}
    (quiet : ∀ x ∈ later, x.isResync = false) :
    (run Log.enter {} (earlier ++ .resync k :: later)).window =
      k.toNat - later.countP Input.isSecond := by
  rw [← List.singleton_append, ← List.append_assoc, runAppend, runSnoc, windowQuiet _ quiet]
  rfl

/-- A monitor after any run. What it shows is exact but for the largest word: the seconds counted
since the last clearing, the open interval, the last full ones and the sum of all. -/
theorem monitorReckons (inputs : List Input) :
    let m := run Monitor.take {} inputs
    let log := run Log.enter {} inputs
    let n := log.seconds.length
    m.seconds.toNat = n % 900 ∧ m.history.length = min 48 (n / 900) ∧
      m.totalSeconds.toNat = min n 4294967295 ∧
      m.current = reckon (opened 900 log.seconds) ∧
      (∀ i, m.interval? i = if i < min 48 (n / 900) then
        some (reckon (block 900 (n / 900 - 1 - i) log.seconds)) else none) ∧
      m.total = reckon log.seconds ∧
      (∀ mode crc4 s t,
        (m.record mode crc4 s t).1 = (if 0 < log.window then none else judge mode s crc4 t) ∧
        (0 < log.window → (m.record mode crc4 s t).2 = { m with settling := m.settling - 1 })) ∧
      ((∀ x ∈ inputs, x.isResync = false) → log.window = 0) ∧
      (∀ earlier k later, inputs = earlier ++ .resync k :: later →
        (∀ x ∈ later, x.isResync = false) →
        log.window = k.toNat - later.countP Input.isSecond) := by
  intro m log n
  have tracks : m.Tracks log := Monitor.tracksRun inputs
  have reckons := tracks.reckons
  have most : (Monitor.intervals log.seconds).length = n / 900 :=
    Monitor.intervalsLength log.seconds
  refine ⟨reckons.count, ?_, ?_, reckons.current, fun i => ?_, ?_, ?_, fun quiet => ?_, ?_⟩
  · rw [reckons.history, List.length_take, most]
  · rw [Monitor.totalSeconds, reckons.closedSeconds, cappedAdd, cappedToNat, reckons.count]
    have whole := Nat.div_add_mod n 900
    change min (n / 900 * 900 + n % 900) _ = _
    omega
  · rw [Monitor.interval?, reckons.history]
    by_cases shown : i < min 48 (n / 900)
    · rw [if_pos shown, List.getElem?_take_of_lt (by omega)]
      exact Monitor.intervalsGet (by omega)
    · rw [if_neg shown]
      refine List.getElem?_eq_none ?_
      rw [List.length_take, most]
      omega
  · rw [Monitor.total, reckons.closedTotal, reckons.current]
    refine Interval.same fun c => ?_
    rw [Interval.getAdd, reckonGet, reckonGet, reckonGet, cappedCapped, ← amountSplit]
  · exact Monitor.recordAnswer tracks
  · rw [windowQuiet _ quiet]
    exact Nat.zero_sub _
  · rintro earlier k later rfl quiet
    exact windowSince earlier k quiet

end SerialAdapter.Telemetry
