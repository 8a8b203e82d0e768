import SerialAdapter.Proofs.Channel.Counting

/-! The traffic counters of a board against the events of its channels, since each channel was
brought up or cleared. What the hardware writes and answers between the calls is anything. -/
namespace SerialAdapter

variable {c n size : Nat}

theorem eventsOf (i : Nat) (seen : List Action) :
    (events seen).filter (·.channel = i) = events (about i seen) := by
  induction seen with
  | nil => rfl
  | cons a seen ih =>
    have whole : events (a :: seen) = events [a] ++ events seen := eventsAppend [a] seen
    have part : about i (a :: seen) = about i [a] ++ about i seen := aboutAppend i [a] seen
    rw [whole, part, eventsAppend, List.filter_append, ih]
    congr 1
    cases a with
    | event e =>
      by_cases own : e.channel = i <;>
        simp [events, about, Action.event?, Action.channel?, own]
    | notice m =>
      unfold about
      rw [List.filter_cons]
      split <;> rfl
    | _ => rfl

namespace Strike

def shown (b : Board c n size) : Strike c n size → List Action
  | .call k => (k.perform b).seen
  | .noise _ => []

def told (i : Nat) (e : Entry (Board c n size) (Strike c n size)) : List Event :=
  (events (e.move.shown e.before)).filter (·.channel = i)

def clears (i : Nat) (e : Entry (Board c n size) (Strike c n size)) : Bool :=
  match e.move with
  | .call (.clearStatistics (.channel j)) => j = i
  | .call (.clearStatistics .board) => true
  | _ => false

end Strike

def Call.spares : Call c → Bool
  | .enable .. | .setMode .. | .clearStatistics (.line _) => true
  | _ => false

section Shares

variable {b : Board c n size} {i : Fin c}

theorem clearsShare (k : Call c) : (k.share b i).clears = Strike.clears i ⟨b, .call k⟩ := by
  unfold Call.share
  split
  · rename_i reached
    cases k with
    | clearStatistics scope =>
      cases scope with
      | channel j => exact reached.symm
      | line j => rfl
      | board => rfl
    | _ => rfl
  · rename_i other
    cases k with
    | clearStatistics scope =>
      cases scope with
      | channel j => exact (Bool.eq_false_iff.mpr other).symm
      | line j => rfl
      | board => exact (other rfl).elim
    | _ => rfl

theorem sparesShare {k : Call c} (spares : k.spares = true) :
    k.share b i ≠ .service ∧ (k.share b i).clears = false := by
  unfold Call.share
  split
  · cases k with
    | enable j d on => exact ⟨Share.noConfusion, rfl⟩
    | setMode j mode => exact ⟨Share.noConfusion, rfl⟩
    | clearStatistics scope =>
      cases scope with
      | line j => exact ⟨Share.noConfusion, rfl⟩
      | _ => contradiction
    | _ => contradiction
  · exact ⟨Share.noConfusion, rfl⟩

theorem callTold {k : Call c} (split : Split i (k.share b i) b (k.perform b)) :
    Strike.told i ⟨b, .call k⟩ = events (about i
      ((k.share b i).perform i b.thresholds (b.channel i) b.registers).seen) := by
  rw [Strike.told, eventsOf, ← split.news]
  rfl

end Shares

theorem initCounts {b : Board c n size} {setup : BoardSetup c}
    {place : Nat → Direction → Placement} (up : (Board.init setup place b).answer = .ok ())
    (i : Fin c) : ((Board.init setup place b).state.channel i).traffic.Counts [] := by
  have few := (initAccepted up).2.2.1
  have split := splitBringUp (i := i) (b := { b with thresholds := setup.thresholds }) few setup
    place rfl
  have clean : ((Board.init setup place b).state.channel i).traffic = {} := by
    rw [initState up]
    refine (congrArg Channel.traffic split.channel).trans ?_
    simp only [Share.perform, Channel.init, Channel.programMode, Operation.bindApply]
    split <;> rfl
  rw [clean]
  exact Traffic.countsNone

theorem clearedCounts {ch : Channel n size} {share : Share} (clears : share.clears = true) (i : Nat)
    (t : Thresholds) (r : Registers) :
    (share.perform i t ch r).answer.traffic.Counts [] := by
  cases share with
  | clear scope =>
    cases scope with
    | line j => contradiction
    | channel j => exact Traffic.countsNone
    | board => exact Traffic.countsNone
  | _ => contradiction

/-- The counters of a channel are those of its events since it was brought up or last cleared, a
restart of its ring after a fault being the overflow that is told. Clearing the line, switching a
direction and changing the mode leave them as they are. -/
theorem trafficAccounted {b : Board c n size} {setup : BoardSetup c}
    {place : Nat → Direction → Placement} (up : (Board.init setup place b).answer = .ok ())
    (strikes : List (Strike c n size)) (i : Fin c) :
    let start := (Board.init setup place b).state
    let now := run Board.suffer start strikes
    (now.channel i).traffic.Counts
      ((epoch (Strike.clears i) (history Board.suffer start strikes)).flatMap (Strike.told i)) ∧
    ∀ k : Call c, k.spares = true →
      ((k.perform now).state.channel i).traffic = (now.channel i).traffic := by
  intro start now
  have sound := initSound up
  have few := sound.few
  have low := Nat.lt_of_lt_of_le i.isLt few
  have counted : now.Sound ∧ (now.channel i).traffic.Counts
      ((epoch (Strike.clears i) (history Board.suffer start strikes)).flatMap
        (Strike.told i)) := by
    refine epochKeeps (P := fun h b => b.Sound ∧ (b.channel i).traffic.Counts
      (h.flatMap (Strike.told i))) Board.suffer (Strike.clears i) ⟨sound, initCounts up i⟩ ?_ ?_
      strikes
    · rintro h b (k | w) ⟨sound, -⟩ cut
      · have split := callSplit few sound.up k i
        refine ⟨sound.call k, ?_⟩
        rw [Board.suffer, split.channel]
        exact clearedCounts ((clearsShare k).trans cut) i _ _
      · contradiction
    · rintro h b (k | w) ⟨sound, counts⟩ kept
      · have split := callSplit few sound.up k i
        refine ⟨sound.call k, ?_⟩
        rw [Board.suffer, split.channel, List.flatMap_append, List.flatMap_singleton,
          callTold split]
        exact shareCounts low (sound.channels i) counts (shareStarted b i k)
          ((clearsShare k).trans kept) _ _
      · refine ⟨sound.noise w, ?_⟩
        have same : ((w.change b).channel i).traffic = (b.channel i).traffic := by
          rw [((w.tampers b).channels i).rest]
        rw [Board.suffer, same, List.flatMap_append]
        simpa [Strike.told, Strike.shown, events] using counts
  refine ⟨counted.2, fun k spares => ?_⟩
  have split := callSplit few counted.1.up k i
  obtain ⟨served, kept⟩ := sparesShare (b := now) (i := i) spares
  rw [split.channel]
  exact shareTraffic (shareStarted now i k) served kept _ _

theorem faultAndFrameCounted :
    let b : Board 1 3 4 := { registers := .blank (Wiring.board 1) }
    let place := Placement.regular 0 64 3
    let finished := (((Registers.blank (Wiring.board 1)).poke8 (Register.interrupts 0) 3).poke8
      (Register.status 0 .receive) 0xFF).poke32 (Register.current 0 .transmit) 272
    let strikes : List (Strike 1 3 4) :=
      [.call (.enable 0 .transmit true), .call (.send 0 [1, 2, 3] 7),
        .call (.enable 0 .receive true), .noise (.registers 1 3 4 finished),
        .call (.serviceChannel 0)]
    let now := run Board.suffer (Board.init {} place b).state strikes
    let cleared := ((Call.clearStatistics (.line 0)).perform now).state
    (now.channel 0).traffic.overflow = 1 ∧ (now.channel 0).traffic.transmit.bytes = 3 ∧
      (cleared.channel 0).traffic = (now.channel 0).traffic := by
  intro b place finished strikes now cleared
  have up : (Board.init {} place b).answer = .ok () := rfl
  have told : (epoch (Strike.clears 0) (history Board.suffer (Board.init {} place b).state
      strikes)).flatMap (Strike.told 0) = [.failed 0 .overflow, .sent 0 7 3] := by decide +kernel
  obtain ⟨counts, spared⟩ := trafficAccounted up strikes 0
  exact ⟨(told ▸ counts).kinds .overflow, (told ▸ counts).bytesOut,
    spared (.clearStatistics (.line 0)) rfl⟩

end SerialAdapter
