import SerialAdapter.Proofs.Board.Refusal

/-! The intervals of every line of a board, in every state that it can reach. A line is sampled in
words of sixteen bits and judged by thresholds that the board accepted; nothing else is asked of
what the hardware counts. -/
namespace SerialAdapter

open Telemetry

variable {c n size i : Nat}

theorem sampleShort (i : Nat) (r : Registers) : (Line.sample i r).answer.Short := by
  have word (x : UInt16) : x.toUInt32.toNat ≤ 65535 := by
    have low := x.toNat_lt
    rw [UInt16.toNat_toUInt32]
    omega
  exact ⟨word _, word _, word _, word _⟩

section Shares

variable {ch : Channel n size} {t : Thresholds} {r : Registers}

theorem programModeLine (h : ch.line.Honest) : (ch.programMode i t r).answer.line.Honest := by
  simp only [Channel.programMode, Operation.bindApply]
  split
  · exact Monitor.honestResync h t.settle
  · exact h

theorem initLine (setup : ChannelSetup) (place : Direction → Placement) :
    (ch.init i setup place t r).answer.line.Honest := by
  simp only [Channel.init, Operation.bindApply]
  exact programModeLine (Monitor.honestFresh ch.line.settling)

theorem honestShare (few : i < Limits.maxChannels) (positive : t.Positive) (h : ch.line.Honest)
    (share : Share) : (share.perform i t ch r).answer.line.Honest := by
  cases share with
  | rest => exact h
  | prepare data => exact h
  | init setup place => exact initLine setup place
  | setMode mode => exact programModeLine h
  | resync => exact Monitor.honestResync h t.settle
  | clear scope =>
    cases scope <;> exact Monitor.honestFresh ch.line.settling
  | enable d on => exact (enableRest i d on ch r).2.2.symm ▸ h
  | send data length tag => exact h
  | service =>
    obtain ⟨g, -, served⟩ := Channel.serviced few ch r
    have kept : (ch.service i r).answer.line = ch.line := by rw [served.channel]
    exact kept ▸ h
  | tick =>
    have ticked : (ch.tick i t r).answer.2.line.Honest := by
      unfold Channel.tick
      split
      · exact Monitor.honestRecord h ch.setup.mode ch.setup.crc4 (sampleShort i r) positive
      · exact h
    exact ticked

end Shares

structure Board.Honest (b : Board c n size) : Prop where
  state : b.Dormant ∨ b.Sound ∧ b.thresholds.Positive
  lines : ∀ i : Fin c, (b.channel i).line.Honest

theorem honestNoise {b : Board c n size} (h : b.Honest) (w : Noise c n size) :
    (w.change b).Honest where
  state := by
    have thresholds : (w.change b).thresholds = b.thresholds := by rw [(w.tampers b).rest]
    rcases h.state with dormant | ⟨sound, positive⟩
    · exact .inl (dormantNoise dormant w)
    · exact .inr ⟨sound.noise w, thresholds ▸ positive⟩
  lines i := by
    have line : ((w.change b).channel i).line = (b.channel i).line := by
      rw [((w.tampers b).channels i).rest]
    exact line ▸ h.lines i

theorem honestInit {b : Board c n size} {setup : BoardSetup c}
    {place : Nat → Direction → Placement} (up : (Board.init setup place b).answer = .ok ()) :
    (Board.init setup place b).state.Honest := by
  have sound := initSound up
  have positive := ((initAccepts b setup place).mp up).2.2
  have split (i : Fin c) := splitBringUp (i := i) (b := { b with thresholds := setup.thresholds })
    sound.few setup place rfl
  have thresholds : (Board.init setup place b).state.thresholds = setup.thresholds := by
    rw [initState up]
    exact (split ⟨0, sound.some⟩).thresholds
  refine ⟨.inr ⟨sound, thresholds ▸ positive⟩, fun i => ?_⟩
  have line : ((Board.init setup place b).state.channel i).line =
      ((b.channel i).init i (setup.channels.get i) (place i) setup.thresholds
        b.registers).answer.line := by
    rw [initState up]
    exact congrArg Channel.line (split i).channel
  exact line ▸ initLine (setup.channels.get i) (place i)

theorem honestCall {b : Board c n size} (h : b.Honest) (k : Call c) :
    (k.perform b).state.Honest := by
  rcases h.state with dormant | ⟨sound, positive⟩
  · by_cases raised : k.Raises b
    · obtain ⟨setup, place, rfl, up⟩ := raised
      exact honestInit up
    · rw [dormantIdle dormant raised]
      exact h
  · have split (i : Fin c) := callSplit sound.few sound.up k i
    have thresholds := (split ⟨0, sound.some⟩).thresholds
    refine ⟨.inr ⟨sound.call k, thresholds ▸ positive⟩, fun i => ?_⟩
    rw [(split i).channel]
    exact honestShare (Nat.lt_of_lt_of_le i.isLt sound.few) positive (h.lines i) _

theorem honestRun (registers : Registers) (strikes : List (Strike c n size)) :
    (run Board.suffer ({ registers := registers } : Board c n size) strikes).Honest := by
  have fresh (i : Fin c) : (Board.channel { registers := registers } i : Channel n size) = {} := by
    simp [Board.channel]
  refine runKeeps (P := fun _ b => b.Honest) Board.suffer ⟨.inl ⟨rfl, fun i => ?_⟩, fun i => ?_⟩
    (fun _ b x kept => ?_) strikes
  · rw [fresh]
  · rw [fresh]
    exact Monitor.honestFresh 0
  · cases x with
    | call k => exact honestCall kept k
    | noise w => exact honestNoise kept w

/-- Every interval that a board shows is consistent: the open one with the seconds counted in it, a
closed one with nine hundred. No counter of either has reached the largest word. -/
theorem intervalsConsistent (registers : Registers) (strikes : List (Strike c n size))
    (i : Fin c) :
    let line := ((run Board.suffer ({ registers := registers } : Board c n size)
      strikes).channel i).line
    line.current.Sound line.seconds.toNat ∧ ∀ a ∈ line.history, a.Sound 900 :=
  Monitor.honestIntervals ((honestRun registers strikes).lines i)

end SerialAdapter
