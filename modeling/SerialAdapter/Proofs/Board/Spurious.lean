import SerialAdapter.Proofs.Board.Chains
import SerialAdapter.Proofs.Board.Reply
import SerialAdapter.Proofs.Channel.Spurious
import SerialAdapter.Proofs.Shared.Reentry

/-! Interrupts that come twice. A service takes all there is, so the same interrupt raised again
without progress of the controller tells nothing and is only counted, and a second run of the
handler does no more than look at the summary. -/
namespace SerialAdapter

open Register Registers

variable {c n size : Nat}

theorem raisedAlone (d : Direction) (e : UInt8) : (InterruptStatus.ofByte e).any = false →
    InterruptStatus.ofByte (e ||| (InterruptStatus.only d).toByte) = .only d ∧
      (e ||| (InterruptStatus.only d).toByte) &&& ~~~(InterruptStatus.only d).toByte = e := by
  revert e
  cases d with
  | receive => exact everyByte (by decide +kernel)
  | transmit => exact everyByte (by decide +kernel)

section Channel

variable {i : Nat} {d : Direction} {ch : Channel n size} {r : Registers}
  (few : i < Limits.maxChannels)
include few

omit few in
theorem summaryOutside : ¬ Block i d boardInterrupts := by
  have zero : boardInterrupts.toNat = 0 := rfl
  unfold Block
  omega

theorem interruptsNotSummary : interrupts i ≠ boardInterrupts := by
  intro same
  have place : (interrupts i).toNat = 256 * (i + 1) + 0 := offsetNat few (k := 0) (by decide)
  rw [same] at place
  change 0 = _ at place
  omega

theorem serviceAgain (acknowledged : r.wiring.Acknowledged i) (plain : r.wiring.Plain i d)
    (h : ch.Settled i d r) :
    let raised := Controller.interrupt i (InterruptStatus.only d).toByte r
    (ch.service i raised).answer = { ch with traffic := ch.traffic.countInterrupt d } ∧
      (ch.service i raised).state = r.poke8 boardInterrupts (raised.peek8 boardInterrupts) ∧
      events (ch.service i raised).seen = [] := by
  intro raised
  obtain ⟨alone, back⟩ := raisedAlone d (r.peek8 (interrupts i)) h.quiet
  have apart := interruptsNotSummary few
  have byte : raised.peek8 (interrupts i) =
      r.peek8 (interrupts i) ||| (InterruptStatus.only d).toByte := by
    simp only [raised, Controller.interrupt, peekPoke8, if_neg apart, ↓reduceIte]
  have wiring : raised.wiring = r.wiring := rfl
  have written : (write8 (interrupts i) (InterruptStatus.only d).toByte raised).state =
      r.poke8 boardInterrupts (raised.peek8 boardInterrupts) := by
    rw [writeClears (wiring ▸ acknowledged.interrupts), byte, back]
    refine Registers.ext rfl fun o => ?_
    simp only [peekPoke8, raised, Controller.interrupt]
    by_cases own : o = interrupts i
    · simp [own, apart]
    · by_cases summary : o = boardInterrupts
      · simp [summary, apart.symm]
      · simp [own, summary]
  have same : Alike (Block i d) r (r.poke8 boardInterrupts (raised.peek8 boardInterrupts)) := by
    refine (outsidePoke8 (t := (· = boardInterrupts)) rfl r _).mono fun o inside there => ?_
    exact summaryOutside (there ▸ inside)
  obtain ⟨answer, state, told⟩ := Channel.serviceAlone (byte ▸ alone) h.on
  rw [written] at answer state told
  have settled := same.bytes _ (statusInBlock few d) ▸ h.status
  have finished := controlCongr few same ▸ h.finished
  obtain ⟨counted, kept, silent⟩ := servedAgain
    (same.wiring ▸ acknowledged.status d) (same.wiring ▸ plain) settled finished
  exact ⟨answer.trans counted, state.trans kept, told.trans silent⟩

end Channel

section Handler

variable {b : Board c n size}

theorem evenServices (few : c ≤ Limits.maxChannels) (l : List (Fin c)) :
    Even b (List.forM l Board.servicePending b).state := by
  induction l generalizing b with
  | nil => exact .refl _
  | cons i l ih =>
    have first : Even b (Board.servicePending i b).state := evenOnChannel few
      (fun low ch r => (confinedService low ch).frame r) i.isLt
    exact first.trans ih

theorem handledCalm (h : b.Sound)
    (clears : b.registers.wiring.clearsOnWrite boardInterrupts = true) :
    (Board.handleInterrupt b).state.Calm := by
  have taken := takenCalm h clears
  have even := evenServices (b := (Board.takePending b).state) h.few
    (Board.pendingChannels c (Board.takePending b).answer)
  have summary := even.bytes boardInterrupts (by decide)
  refine ⟨h.call .handleInterrupt, ?_⟩
  rw [← taken.idle]
  exact congrArg (· &&& Board.channelMask c) summary

theorem handleInterruptIdle (h : b.Calm) :
    Board.handleInterrupt b = ⟨(), b, Stage.summaryRead b⟩ := by
  simp only [Board.handleInterrupt, Operation.bindApply]
  rw [takePendingCalm h, pendingNone]
  exact congrArg (Outcome.mk () b) (List.append_nil _)

end Handler

/-- For every board that is up, whatever the hardware did to it: after a service has answered a
controller, its interrupt raised once more is told to nobody and moves nothing but its count, and
after the handler has run, another run reads the summary and does nothing. -/
theorem spuriousInterruptsSilent (registers : Registers) (strikes : List (Strike c n size)) :
    let now := run Board.suffer ({ registers := registers } : Board c n size) strikes
    now.initialized = true → now.registers.wiring = Wiring.board c →
      (∀ (i : Fin c) (d : Direction), (now.channel i).isEnabled d = true →
        (InterruptStatus.ofByte (now.registers.peek8 (interrupts i))).asks d = true →
        let once := (Board.serviceChannel i now).state
        let raised := Controller.interrupt i (InterruptStatus.only d).toByte once.registers
        let twice := Board.serviceChannel i { once with registers := raised }
        let ch := once.channel i
        twice.answer = .ok () ∧ events twice.seen = [] ∧
          twice.state = { once with
            registers := once.registers.poke8 boardInterrupts (raised.peek8 boardInterrupts)
            channels := once.channels.set i
              { ch with traffic := ch.traffic.countInterrupt d } i.isLt }) ∧
      let handled := (Board.handleInterrupt now).state
      Board.handleInterrupt handled = ⟨(), handled, Stage.summaryRead handled⟩ := by
  intro now up wired
  have sound : now.Sound := sufferUp registers strikes up
  refine ⟨fun i d on asked => ?_, ?_⟩
  · intro once raised twice ch
    have low := Nat.lt_of_lt_of_le i.isLt sound.few
    have acknowledged : now.registers.wiring.Acknowledged i := wired ▸ boardAcknowledged i.isLt
    have plain : now.registers.wiring.Plain i d := wired ▸ boardPlain sound.few i.isLt d
    have settled := serviceSettles low acknowledged plain (sound.channels i) on asked
    have wiring := ((confinedService low (now.channel i)).frame now.registers).wiring
    have first : Board.serviceChannel i now = _ := Call.changeDone i.isLt up _
    have after : once.registers = ((now.channel i).service i now.registers).state :=
      congrArg (·.state.registers) first
    have channel : ch = ((now.channel i).service i now.registers).answer := by
      simp only [ch, once, first, Board.channel, Vector.getElem_set_self]
    have still : once.initialized = true := (congrArg (·.state.initialized) first).trans up
    rw [← after] at settled wiring
    rw [← channel] at settled
    obtain ⟨answer, state, told⟩ :=
      serviceAgain low (wiring ▸ acknowledged) (wiring ▸ plain) settled
    have second : twice = _ := Call.changeDone i.isLt (b := { once with registers := raised }) still _
    rw [second]
    refine ⟨rfl, told, ?_⟩
    rw [state, answer]
  · have clears : now.registers.wiring.clearsOnWrite boardInterrupts = true := by
      rw [wired]
      simp [Wiring.board]
    exact handleInterruptIdle (handledCalm sound clears)

theorem twoFramesToldOnce :
    let place := Placement.regular 0 64 4
    let strikes : List (Strike 1 4 4) :=
      [.call (.init {} fun _ => place 0), .call (.enable 0 .receive true),
        .noise (.complete (by decide) 0 .receive 0 [1, 2] 2 0x80),
        .noise (.complete (by decide) 0 .receive 1 [3] 1 0x80),
        .noise (.poke (current 0 .receive) 32), .noise (.poke (status 0 .receive) 0x40),
        .noise (.poke (interrupts 0) 1), .noise (.poke boardInterrupts 1)]
    let now := run Board.suffer ({ registers := .blank (Wiring.board 1) } : Board 1 4 4) strikes
    let once := (Board.serviceChannel 0 now).state
    let raised := Controller.interrupt 0 (InterruptStatus.only .receive).toByte once.registers
    let twice := Board.serviceChannel 0 { once with registers := raised }
    let handled := (Board.handleInterrupt now).state
    events (Board.serviceChannel 0 now).seen = [.received 0 [1, 2], .received 0 [3]] ∧
      events twice.seen = [] ∧ (twice.state.channel 0).traffic.receive.interrupts = 2 ∧
      events (Board.handleInterrupt now).seen = [.received 0 [1, 2], .received 0 [3]] ∧
      Board.handleInterrupt handled = ⟨(), handled, Stage.summaryRead handled⟩ := by
  intro place strikes now once raised twice handled
  have up : now.initialized = true := rfl
  have wired : now.registers.wiring = Wiring.board 1 := rfl
  have on : (now.channel 0).isEnabled .receive = true := rfl
  have asked : (InterruptStatus.ofByte (now.registers.peek8 (interrupts 0))).asks .receive =
    true := by decide +kernel
  have told : events (Board.serviceChannel 0 now).seen =
    [.received 0 [1, 2], .received 0 [3]] := by decide +kernel
  have heard : events (Board.handleInterrupt now).seen =
    [.received 0 [1, 2], .received 0 [3]] := by decide +kernel
  have counted : (twice.state.channel 0).traffic.receive.interrupts = 2 := by decide +kernel
  obtain ⟨service, handler⟩ :=
    spuriousInterruptsSilent (.blank (Wiring.board 1)) strikes up wired
  exact ⟨told, (service 0 .receive on asked).2.1, counted, heard, handler⟩

end SerialAdapter
