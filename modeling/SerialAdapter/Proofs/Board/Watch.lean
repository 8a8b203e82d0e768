import SerialAdapter.Proofs.Board.Stimulus

/-! Each line of a board as a machine of its own: the telemetry of one channel, what it goes by, and
the line registers the hardware has loaded. The machine hears of a second, a mode, a
resynchronisation, a clearing and a load, and of nothing else; the board runs one such machine for
each channel. What a second is judged to be is not said here. -/
namespace SerialAdapter

open Operation Registers

structure Watch where
  setup : ChannelSetup
  monitor : Telemetry.Monitor
  alarms : LineAlarms := {}
  status : UInt8
  counts : Gauge → UInt16

namespace Watch

inductive Input where
  | second
  | mode (mode : ChannelMode)
  | resync
  | clear
  | status (value : UInt8)
  | count (gauge : Gauge) (value : UInt16)

def sample (w : Watch) : Telemetry.Sample where
  alarms := .ofByte w.status
  bipolar := (w.counts .bipolar).toUInt32
  crc := (w.counts .crc).toUInt32
  frameSync := (w.counts .frameSync).toUInt32
  remoteCrc := (w.counts .remoteCrc).toUInt32

def second (t : Thresholds) (w : Watch) : Option Telemetry.Verdict × Watch :=
  if w.setup.mode.isLine then
    let (verdict, monitor) := w.monitor.record w.setup.mode w.setup.crc4 w.sample t
    (verdict, { w with monitor := monitor, alarms := .ofByte w.status, counts := fun _ => 0 })
  else (none, w)

def resync (t : Thresholds) (w : Watch) : Watch :=
  { w with monitor := w.monitor.resync t.settle }

def enter (mode : ChannelMode) (t : Thresholds) (w : Watch) : Watch :=
  let w := { w with setup := { w.setup with mode := mode } }
  if mode.isLine then w.resync t else w

def step (t : Thresholds) : Input → Watch → Watch
  | .second, w => (w.second t).2
  | .mode mode, w => w.enter mode t
  | .resync, w => w.resync t
  | .clear, w => { w with monitor := w.monitor.clear }
  | .status value, w => { w with status := value }
  | .count g value, w => { w with counts := fun g' => if g' = g then value else w.counts g' }

end Watch

def Channel.watch {n size : Nat} (i : Nat) (ch : Channel n size) (r : Registers) : Watch where
  setup := ch.setup
  monitor := ch.line
  alarms := ch.alarms
  status := r.peek8 (Register.lineStatus i)
  counts g := r.peek16 (Register.gauge i g)

def Board.watch {c n size : Nat} (i : Fin c) (b : Board c n size) : Watch :=
  (b.channel i).watch i b.registers

def Stimulus.felt {c n size : Nat} (i : Fin c) : Stimulus c n size → Option Watch.Input
  | .call (.tickChannel j) => if j = i then some .second else none
  | .call .tick => some .second
  | .call (.setMode j mode) => if j = i then some (.mode mode) else none
  | .call (.resyncLine j) => if j = i then some .resync else none
  | .call (.clearStatistics (.channel j)) | .call (.clearStatistics (.line j)) =>
    if j = i then some .clear else none
  | .call (.clearStatistics .board) => some .clear
  | .status j value => if j = i then some (.status value) else none
  | .count j g value => if j = i then some (.count g value) else none
  | _ => none

section Cells

variable {i : Nat} (r : Registers)

theorem peekGauge (g g' : Gauge) (value : UInt16) :
    (r.poke16 (Register.gauge i g) value).peek16 (Register.gauge i g') =
      if g' = g then value else r.peek16 (Register.gauge i g') := by
  cases g <;> cases g' <;>
    simp [peek16, poke16, peekPoke8, wordParts, Register.gauge, Register.bipolar, Register.crc,
      Register.frameSync, Register.remoteCrc, UInt16.add_assoc]

theorem statusBesideGauge (g : Gauge) (value : UInt16) :
    (r.poke16 (Register.gauge i g) value).peek8 (Register.lineStatus i) =
      r.peek8 (Register.lineStatus i) := by
  cases g <;>
    simp [poke16, peekPoke8, Register.gauge, Register.bipolar, Register.crc, Register.frameSync,
      Register.remoteCrc, Register.lineStatus, UInt16.add_assoc]

theorem gaugeBesideStatus (g : Gauge) (value : UInt8) :
    (r.poke8 (Register.lineStatus i) value).peek16 (Register.gauge i g) =
      r.peek16 (Register.gauge i g) := by
  cases g <;>
    simp [peek16, peekPoke8, Register.gauge, Register.bipolar, Register.crc, Register.frameSync,
      Register.remoteCrc, Register.lineStatus, UInt16.add_assoc]

theorem besideLatch (value : UInt8) :
    (r.poke8 (Register.lineLatch i) value).peek8 (Register.lineStatus i) =
        r.peek8 (Register.lineStatus i) ∧
      ∀ g, (r.poke8 (Register.lineLatch i) value).peek16 (Register.gauge i g) =
        r.peek16 (Register.gauge i g) := by
  refine ⟨?_, fun g => ?_⟩
  · simp [peekPoke8, Register.lineStatus, Register.lineLatch]
  · cases g <;>
      simp [peek16, peekPoke8, Register.gauge, Register.bipolar, Register.crc, Register.frameSync,
        Register.remoteCrc, Register.lineLatch, UInt16.add_assoc]

variable {n size : Nat} (ch : Channel n size) (t : Thresholds)

theorem watchCount (g : Gauge) (value : UInt16) :
    ch.watch i (r.poke16 (Register.gauge i g) value) =
      Watch.step t (.count g value) (ch.watch i r) := by
  simp only [Channel.watch, Watch.step, peekGauge, statusBesideGauge]

theorem watchStatus (value : UInt8) :
    ch.watch i (Controller.setLineStatus i value r) =
      Watch.step t (.status value) (ch.watch i r) := by
  simp only [Channel.watch, Watch.step, Controller.setLineStatus, gaugeBesideStatus, peekPoke8,
    ↓reduceIte]

theorem watchAlike {r' : Registers} {c : Nat} (few : c ≤ Limits.maxChannels) (low : i < c)
    (same : Alike (Register.LineBlock i) r r') : ch.watch i r' = ch.watch i r := by
  have status := same.bytes _ (inLineBlock (Nat.lt_of_lt_of_le low few) (k := 0) (by decide))
  have counts (g : Gauge) : r'.peek16 (Register.gauge i g) = r.peek16 (Register.gauge i g) := by
    obtain ⟨first, second⟩ := gaugeInLine few ⟨i, low⟩ g
    exact alikePeek16 same first second
  change r'.peek8 (Register.lineStatus i) = r.peek8 (Register.lineStatus i) at status
  simp only [Channel.watch, status, counts]

end Cells

section Sample

variable {c i n size : Nat} (few : c ≤ Limits.maxChannels) (low : i < c) {r : Registers}
  (wired : r.wiring = .board c) (ch : Channel n size)

theorem gaugeRestarts (low : i < c) (g : Gauge) :
    (Wiring.board c).clearsOnRead (Register.gauge i g) = true := by
  refine List.any_eq_true.mpr ⟨i, List.mem_range.mpr low, ?_⟩
  cases g <;> simp [Register.gauge]

include few low wired

theorem sampleWatch : (Line.sample i r).answer = (ch.watch i r).sample ∧
    ch.watch i (Line.sample i r).state = { ch.watch i r with counts := fun _ => 0 } := by
  have latch : r.wiring.clearsOnWrite (Register.lineLatch i) = false := by
    have free := (sideEffectFree few low (k := 74) (by decide) (by decide)).1
    rw [wired]
    simpa [Register.lineLatch, Register.lineBlock, UInt16.add_assoc] using free
  have restarts (g : Gauge) : r.wiring.clearsOnRead (Register.gauge i g) = true :=
    wired ▸ gaugeRestarts low g
  have still8 (r : Registers) (o : UInt16) (v : UInt8) : (r.poke8 o v).wiring = r.wiring := rfl
  have still16 (r : Registers) (o v : UInt16) : (r.poke16 o v).wiring = r.wiring := rfl
  have names : Register.bipolar i = Register.gauge i .bipolar ∧
      Register.crc i = Register.gauge i .crc ∧ Register.frameSync i = Register.gauge i .frameSync ∧
      Register.remoteCrc i = Register.gauge i .remoteCrc := ⟨rfl, rfl, rfl, rfl⟩
  simp only [Line.sample, names, bindApply, pureApply, write8, read8, read16, latch, restarts,
    still8, still16, ↓reduceIte, Bool.false_eq_true, peekGauge, besideLatch, reduceCtorEq]
  refine ⟨rfl, ?_⟩
  simp only [Channel.watch, peekGauge, statusBesideGauge, besideLatch, Watch.mk.injEq, true_and]
  funext g
  cases g <;> simp

theorem tickWatch (t : Thresholds) :
    (ch.tick i t r).answer.1 = ((ch.watch i r).second t).1 ∧
      (ch.tick i t r).answer.2.watch i (ch.tick i t r).state = ((ch.watch i r).second t).2 := by
  obtain ⟨answer, state⟩ := sampleWatch few low wired ch
  have status := congrArg Watch.status state
  have counts := congrArg Watch.counts state
  simp only [Channel.watch] at status counts
  cases on : ch.setup.mode.isLine
  · simp [Channel.tick, Watch.second, Channel.watch, on]
  · simp only [Channel.tick, on, ↓reduceIte, bindApply, Channel.recordSecond, answer, emit,
      Telemetry.Monitor.observe, pureApply, Watch.second, Channel.watch, status, counts]
    trivial

end Sample

section Step

variable {c n size : Nat} (few : c ≤ Limits.maxChannels) {b : Board c n size}

theorem watchSame {b' : Board c n size} (few : c ≤ Limits.maxChannels)
    (same : Board.Same .line b b') (i : Fin c) : b'.watch i = b.watch i := by
  have view := same.channels i
  simp only [Half.view, Channel.mk.injEq] at view
  have cells := watchAlike b.registers (b'.channel i) few i.isLt
    (same.registers.mono fun _ => Half.lineBlockHalf i.isLt)
  simp only [Board.watch, cells]
  simp only [Channel.watch, view]

theorem feltData {x : Stimulus c n size} (data : x.half = .data) (i : Fin c) : x.felt i = none := by
  rcases x with k | _ | _ | _ | _
  · cases k <;> first | rfl | contradiction
  all_goals first | rfl | contradiction

variable (up : b.initialized = true)
include few up

theorem meetConstant (x : Stimulus c n size) : (b.meet x).initialized = true ∧
    (b.meet x).thresholds = b.thresholds ∧ (b.meet x).registers.wiring = b.registers.wiring := by
  have spares := (askHolds few x).spares up
  exact ⟨spares.up', spares.thresholds, spares.registers.wiring⟩

theorem watchShare (k : Call c) (i : Fin c) :
    let done := (k.share b i).perform i b.thresholds (b.channel i) b.registers
    (b.meet (.call k)).watch i = done.answer.watch i done.state := by
  have split := callSplit few up k i
  have silent : b.meet (.call k) = (k.perform b).state := by
    rw [← Call.askSilent]
    rfl
  rw [silent, Board.watch, split.channel]
  refine watchAlike _ _ few i.isLt (split.registers.mono fun o inside => ?_)
  exact Register.reachWindow (Register.lineReach inside)

end Step

def Share.input? : Share → Option Watch.Input
  | .tick => some .second
  | .setMode mode => some (.mode mode)
  | .resync => some .resync
  | .clear _ => some .clear
  | _ => none

section Hear

variable {c n size : Nat}

theorem feltShare {k : Call c} (line : k.half = .line) (b : Board c n size) (i : Fin c) :
    (Stimulus.call k : Stimulus c n size).felt i = (k.share b i).input? ∧
      ((k.share b i).input? = none → k.share b i = .rest) := by
  cases k with
  | tick => exact ⟨rfl, fun none => by contradiction⟩
  | clearStatistics scope =>
    cases scope with
    | board => exact ⟨rfl, fun none => by contradiction⟩
    | channel j | line j =>
      by_cases own : j = i <;>
        simp [Stimulus.felt, Call.share, Call.concerns, Call.own, own, Share.input?]
  | setMode j mode | resyncLine j | tickChannel j =>
    by_cases own : j = i <;>
      simp [Stimulus.felt, Call.share, Call.concerns, Call.own, own, Share.input?]
  | _ => contradiction

variable {i : Nat} (few : c ≤ Limits.maxChannels) (low : i < c) {r : Registers}
  (wired : r.wiring = .board c) (ch : Channel n size)
include few low wired

theorem shareWatch {share : Share} {input : Watch.Input} (heard : share.input? = some input)
    (t : Thresholds) :
    (share.perform i t ch r).answer.watch i (share.perform i t ch r).state =
      Watch.step t input (ch.watch i r) := by
  cases share with
  | tick =>
    cases heard
    exact (tickWatch few low wired ch t).2
  | setMode mode =>
    cases heard
    have frame := (confinedProgramMode (i := i) t
      { ch with setup := { ch.setup with mode := mode } }).frame r
    have here := Nat.lt_of_lt_of_le low few
    have still := watchAlike r ((Share.setMode mode).perform i t ch r).answer few low
      (frame.mono fun o inside there => modeLine here (there ▸ inside))
    refine still.trans ?_
    cases mode <;> rfl
  | resync =>
    cases heard
    rfl
  | clear scope =>
    cases heard
    cases scope <;> rfl
  | _ => contradiction

end Hear

section Run

variable {c n size : Nat} (few : c ≤ Limits.maxChannels) {b : Board c n size}
include few

theorem watchOther {α : Type} {k : Nat} {i j : Fin c} (other : j ≠ i) {op : Operation Registers α}
    (confined : Confined k (Register.LineBlock j) op) (r : Registers) (ch : Channel n size) :
    ch.watch i (op r).state = ch.watch i r := by
  refine watchAlike r ch few i.isLt ((confined.frame r).mono fun o inside there => ?_)
  have apart : j.val ≠ i.val := fun same => other (Fin.ext same)
  unfold Register.LineBlock at inside there
  omega

theorem meetWatch (up : b.initialized = true) (wired : b.registers.wiring = .board c)
    (x : Stimulus c n size) (i : Fin c) :
    (b.meet x).watch i = (x.felt i).elim (b.watch i) (Watch.step b.thresholds · (b.watch i)) := by
  cases half : x.half with
  | data =>
    have spares := (askHolds few x).spares up
    rw [half] at spares
    rw [feltData half]
    exact watchSame few spares i
  | line =>
    cases x with
    | call k =>
      obtain ⟨felt, rest⟩ := feltShare half b i
      rw [watchShare few up, felt]
      cases heard : (k.share b i).input? with
      | none =>
        rw [rest heard]
        rfl
      | some input => exact shareWatch few i.isLt wired _ heard b.thresholds
    | status j value =>
      by_cases own : j = i
      · subst own
        simp only [Stimulus.felt, ↓reduceIte, Option.elim_some]
        exact watchStatus b.registers _ b.thresholds value
      · have there : Register.LineBlock j (Register.lineStatus j) :=
          inLineBlock (Nat.lt_of_lt_of_le j.isLt few) (k := 0) (by decide)
        simp only [Stimulus.felt, own, ↓reduceIte, Option.elim_none]
        exact watchOther few own (confinedPoke8 (i := i) there value) b.registers _
    | count j g value =>
      by_cases own : j = i
      · subst own
        simp only [Stimulus.felt, ↓reduceIte, Option.elim_some]
        exact watchCount b.registers _ b.thresholds g value
      · obtain ⟨first, second⟩ := gaugeInLine few j g
        simp only [Stimulus.felt, own, ↓reduceIte, Option.elim_none]
        exact watchOther few own (confinedPoke16 (i := i) first second value) b.registers _
    | look j d => contradiction
    | stir s => contradiction

theorem runConstant (up : b.initialized = true) (steps : List (Stimulus c n size)) :
    (run Board.meet b steps).initialized = true ∧
      (run Board.meet b steps).thresholds = b.thresholds ∧
      (run Board.meet b steps).registers.wiring = b.registers.wiring := by
  induction steps generalizing b with
  | nil => exact ⟨up, rfl, rfl⟩
  | cons x steps ih =>
    obtain ⟨up', thresholds, wiring⟩ := meetConstant few up x
    obtain ⟨last, same, still⟩ := ih up'
    exact ⟨last, same.trans thresholds, still.trans wiring⟩

theorem tickReply (up : b.initialized = true) (wired : b.registers.wiring = .board c) (i : Fin c) :
    ((Call.tickChannel i).ask b).answer = .second (.ok ((b.watch i).second b.thresholds).1) := by
  rw [Call.askWithin i.isLt up rfl]
  exact congrArg (Reply.second ∘ .ok) (tickWatch few i.isLt wired (b.channel i) b.thresholds).1

theorem runWatch (up : b.initialized = true) (wired : b.registers.wiring = .board c)
    (steps : List (Stimulus c n size)) (i : Fin c) :
    (run Board.meet b steps).watch i =
      run (Watch.step b.thresholds) (b.watch i) (steps.filterMap (Stimulus.felt i)) := by
  induction steps generalizing b with
  | nil => rfl
  | cons x steps ih =>
    obtain ⟨up', thresholds, wiring⟩ := meetConstant few up x
    have rest := ih up' (wiring.trans wired)
    rw [meetWatch few up wired x i, thresholds] at rest
    rw [run, rest]
    cases heard : x.felt i with
    | none => rw [List.filterMap_cons_none heard]; rfl
    | some input => rw [List.filterMap_cons_some heard]; rfl

end Run

namespace Watch

def sampled? (w : Watch) : Input → Option Telemetry.Sample
  | .second => if w.setup.mode.isLine then some w.sample else none
  | _ => none

def samples (t : Thresholds) (w : Watch) (inputs : List Input) : List Telemetry.Sample :=
  (history (step t) w inputs).filterMap fun e => e.before.sampled? e.move

def reading (g : Gauge) (s : Telemetry.Sample) : UInt32 :=
  match g with
  | .bipolar => s.bipolar
  | .crc => s.crc
  | .frameSync => s.frameSync
  | .remoteCrc => s.remoteCrc

def Input.loaded? (g : Gauge) : Input → Option UInt32
  | .count g' value => if g' = g then some value.toUInt32 else none
  | _ => none

def pending (g : Gauge) (w : Watch) : UInt32 := (w.counts g).toUInt32

section Account

variable (t : Thresholds) (w : Watch) (inputs : List Input) (g : Gauge)

theorem samplesSnoc (x : Input) : samples t w (inputs ++ [x]) =
    samples t w inputs ++ ((run (step t) w inputs).sampled? x).toList := by
  rw [samples, historySnoc, List.filterMap_append]
  cases taken : (run (step t) w inputs).sampled? x <;> simp [samples, taken]

theorem stepAlarms (x : Input) :
    (step t x w).alarms = ((w.sampled? x).map (·.alarms)).getD w.alarms := by
  cases x with
  | second =>
    simp only [step, second, sampled?]
    split <;> rfl
  | mode mode => cases mode <;> rfl
  | _ => rfl

theorem lastAlarms : (run (step t) w inputs).alarms =
    ((samples t w inputs).getLast?.map (·.alarms)).getD w.alarms := by
  induction inputs using List.reverseRecOn with
  | nil => rfl
  | append_singleton inputs x ih =>
    rw [runSnoc, samplesSnoc, stepAlarms]
    cases (run (step t) w inputs).sampled? x with
    | none => simpa using ih
    | some s => simp

theorem stepPending (x : Input) :
    (∃ s, w.sampled? x = some s ∧ reading g s = w.pending g ∧ (step t x w).pending g = 0 ∧
      x.loaded? g = none) ∨
    (w.sampled? x = none ∧ x.loaded? g = some ((step t x w).pending g)) ∨
    (w.sampled? x = none ∧ x.loaded? g = none ∧ (step t x w).pending g = w.pending g) := by
  cases x with
  | second =>
    cases on : w.setup.mode.isLine
    · exact .inr (.inr ⟨by simp [sampled?, on], rfl, by simp [step, second, on]⟩)
    · refine .inl ⟨w.sample, by simp [sampled?, on], ?_, by simp [step, second, on, pending], rfl⟩
      cases g <;> rfl
  | count g' value =>
    by_cases own : g' = g
    · subst own
      exact .inr (.inl ⟨rfl, by simp [Input.loaded?, step, pending]⟩)
    · refine .inr (.inr ⟨rfl, by simp [Input.loaded?, own], ?_⟩)
      simp [step, pending, Ne.symm own]
  | mode mode => exact .inr (.inr ⟨rfl, rfl, by cases mode <;> rfl⟩)
  | _ => exact .inr (.inr ⟨rfl, rfl, rfl⟩)

theorem countsConserved :
    (((samples t w inputs).map (reading g) ++ [(run (step t) w inputs).pending g]).filter
      (· ≠ 0)).Sublist (w.pending g :: inputs.filterMap (·.loaded? g)) := by
  induction inputs using List.reverseRecOn with
  | nil => exact List.filter_sublist
  | append_singleton inputs x ih =>
    rw [runSnoc, samplesSnoc, List.filterMap_append]
    rcases stepPending t (run (step t) w inputs) g x with
      ⟨s, taken, shown, zero, none⟩ | ⟨none, loaded⟩ | ⟨none, loaded, still⟩
    · have unread : [(0 : UInt32)].filter (· ≠ 0) = [] := rfl
      rw [taken, Option.toList_some, List.map_append, List.map_singleton, shown, zero,
        List.filter_append, unread, List.append_nil, List.filterMap_cons_none none]
      simpa using ih
    · have before : (((samples t w inputs).map (reading g)).filter (· ≠ 0)).Sublist
          (w.pending g :: inputs.filterMap (·.loaded? g)) := by
        refine List.Sublist.trans ?_ ih
        rw [List.filter_append]
        exact List.sublist_append_left _ _
      have last : ([(step t x (run (step t) w inputs)).pending g].filter (· ≠ 0)).Sublist
          [(step t x (run (step t) w inputs)).pending g] := List.filter_sublist
      simpa [none, loaded] using before.append last
    · simpa [none, loaded, still] using ih

end Account

end Watch

theorem initWatch {n size : Nat} (i : Nat) (setup : ChannelSetup) (place : Direction → Placement)
    (t : Thresholds) (ch : Channel n size) (r r' : Registers) :
    (ch.init i setup place t r).answer.watch i r' = Watch.step t (.mode setup.mode)
      { setup := setup
        monitor := ch.line.clear
        status := r'.peek8 (Register.lineStatus i)
        counts := fun g => r'.peek16 (Register.gauge i g) } := by
  rcases setup with ⟨mode, crc4⟩
  cases mode <;> rfl

section Start

variable {c n size : Nat} {b : Board c n size} {setup : BoardSetup c}
  {place : Nat → Direction → Placement} (up : (Board.init setup place b).answer = .ok ())
include up

theorem startWatch (i : Fin c) :
    let start := (Board.init setup place b).state
    start.watch i = Watch.step setup.thresholds (.mode (setup.channels.get i).mode)
      { setup := setup.channels.get i
        monitor := (b.channel i).line.clear
        status := start.registers.peek8 (Register.lineStatus i)
        counts := fun g => start.registers.peek16 (Register.gauge i g) } := by
  obtain ⟨-, -, few, -, -, -⟩ := initAccepted up
  have split := splitBringUp (i := i) (b := { b with thresholds := setup.thresholds }) few setup
    place rfl
  have channel : (Board.init setup place b).state.channel i =
      ((b.channel i).init i (setup.channels.get i) (place i) setup.thresholds
        b.registers).answer := by
    rw [initState up]
    exact split.channel
  intro start
  rw [Board.watch, channel]
  exact initWatch i _ _ _ _ _ _

theorem startThresholds : (Board.init setup place b).state.thresholds = setup.thresholds := by
  obtain ⟨-, some, few, -, -, -⟩ := initAccepted up
  have split := splitBringUp (i := ⟨0, some⟩) (b := { b with thresholds := setup.thresholds }) few
    setup place rfl
  rw [initState up]
  exact split.thresholds

end Start

theorem Watch.secondReads {t : Thresholds} {w : Watch} (line : w.setup.mode.isLine) (g : Gauge) :
    (w.step t .second).counts g = 0 := by
  simp [Watch.step, Watch.second, line]

/-- Each line is a machine of its own from the start of the board on, and a tick answers what it
judges the second to be. Its alarms are those of the last second it took; no loaded count is read
twice, and a second leaves the counters at zero. -/
theorem linesRefined {c n size : Nat} {b : Board c n size} {setup : BoardSetup c}
    {place : Nat → Direction → Placement} (wired : b.registers.wiring = .board c)
    (up : (Board.init setup place b).answer = .ok ()) (steps : List (Stimulus c n size))
    (i : Fin c) :
    let t := setup.thresholds
    let start := (Board.init setup place b).state
    let now := run Board.meet start steps
    let inputs := steps.filterMap (Stimulus.felt i)
    let samples := Watch.samples t (start.watch i) inputs
    start.watch i = Watch.step t (.mode (setup.channels.get i).mode)
        { setup := setup.channels.get i
          monitor := (b.channel i).line.clear
          status := start.registers.peek8 (Register.lineStatus i)
          counts := fun g => start.registers.peek16 (Register.gauge i g) } ∧
      now.watch i = run (Watch.step t) (start.watch i) inputs ∧
      ((Call.tickChannel i).ask now).answer = .second (.ok ((now.watch i).second t).1) ∧
      (now.channel i).alarms = (samples.getLast?.map (·.alarms)).getD {} ∧
      (∀ g, ((samples.map (Watch.reading g)).filter (· ≠ 0)).Sublist
        ((start.watch i).pending g :: inputs.filterMap (·.loaded? g))) ∧
      ∀ x : Stimulus c n size, x.felt i = some .second → (now.channel i).setup.mode.isLine →
        ∀ g, (now.meet x).registers.peek16 (Register.gauge i g) = 0 := by
  intro t start now inputs samples
  obtain ⟨-, -, few, -, -, -⟩ := initAccepted up
  have on : start.initialized = true := (initStart up i .receive).1
  have wiring : start.registers.wiring = .board c := (initStart up i .receive).2.1.trans wired
  have thresholds : start.thresholds = t := startThresholds up
  have first := startWatch up i
  have whole : now.watch i = run (Watch.step t) (start.watch i) inputs := by
    rw [← thresholds]
    exact runWatch few on wiring steps i
  obtain ⟨still, same, wired⟩ := runConstant few on steps
  replace wired : now.registers.wiring = .board c := wired.trans wiring
  refine ⟨first, whole, ?_, ?_, fun g => ?_, fun x second line g => ?_⟩
  · rw [tickReply few still wired i, same, thresholds]
  · have last := Watch.lastAlarms t (start.watch i) inputs
    have none : (start.watch i).alarms = {} := by
      rw [first, Watch.stepAlarms]
      rfl
    rw [← whole, none] at last
    exact last
  · have conserved := Watch.countsConserved t (start.watch i) inputs g
    rw [List.filter_append] at conserved
    exact (List.sublist_append_left _ _).trans conserved
  · have after := congrArg Watch.counts (meetWatch few still wired x i)
    rw [second, Option.elim_some] at after
    exact (congrFun after g).trans (Watch.secondReads line g)

theorem slipSeenBeforeLeaving :
    let setup : BoardSetup 2 := { channels := #v[{}, { mode := .e1 }] }
    let fresh : Board 2 3 4 := { registers := .blank (.board 2) }
    let up := (Board.init setup (Placement.regular 0x1000 0x40 3) fresh).state
    let steps : List (Stimulus 2 3 4) :=
      [.count 1 .bipolar 5, .call .tick, .call (.enable 1 .transmit true), .call .tick,
        .status 1 64, .count 1 .bipolar 3, .count 0 .bipolar 9, .call (.send 1 [7, 8] 1),
        .call (.tickChannel 1), .call (.setMode 1 .hdlc), .call .tick]
    let now := run Board.meet up steps
    (now.channel 1).alarms = { slip := true } ∧
      (now.watch 1).monitor.current.bipolarViolations = 3 := by
  intro setup fresh up steps now
  have accepted : (Board.init setup (Placement.regular 0x1000 0x40 3) fresh).answer = .ok () := by
    decide +kernel
  obtain ⟨-, whole, -, alarms, -⟩ := linesRefined rfl accepted steps 1
  constructor
  · rw [alarms]
    decide +kernel
  · rw [whole]
    decide +kernel

end SerialAdapter
