import SerialAdapter.Proofs.Channel.Share
import SerialAdapter.Proofs.Receive.Ledger

/-! The ledger of a channel's receiver through each share of a call: starting and stopping open new
books, and so does a ring fault; any other service reports all that was written. The driver restarts
the ring, and says so, exactly when a service finds the receiver on, its interrupt up and a fault of
the ring in its status register. -/
namespace SerialAdapter

def Action.outcome? (i : Nat) : Action → Option (Except ChannelError Bytes)
  | .event (.received j payload) => if j = i then some (.ok payload) else none
  | .event (.failed j error) =>
    if j = i ∧ error ≠ .underrun then some (.error error) else none
  | _ => none

def outcomesIn (i : Nat) (seen : List Action) : List (Except ChannelError Bytes) :=
  seen.filterMap (Action.outcome? i)

def restartsIn (i : Nat) (seen : List Action) : Bool :=
  seen.any fun
    | .notice (.ringFault j _) => j = i
    | _ => false

theorem outcomesAppend (i : Nat) (first second : List Action) :
    outcomesIn i (first ++ second) = outcomesIn i first ++ outcomesIn i second :=
  List.filterMap_append

theorem restartsAppend (i : Nat) (first second : List Action) :
    restartsIn i (first ++ second) = (restartsIn i first || restartsIn i second) :=
  List.any_append

theorem outcomeChannel {i : Nat} {a : Action} {outcome : Except ChannelError Bytes}
    (told : a.outcome? i = some outcome) : a.channel? = some i := by
  unfold Action.outcome? at told
  split at told
  · split at told
    · rename_i own
      exact congrArg some own
    · contradiction
  · split at told
    · rename_i own
      exact congrArg some own.1
    · contradiction
  · contradiction

theorem outcomesAbout (i : Nat) (seen : List Action) :
    outcomesIn i (about i seen) = outcomesIn i seen := readAbout (fun _ _ => outcomeChannel) seen

theorem restartsAbout (i : Nat) (seen : List Action) :
    restartsIn i (about i seen) = restartsIn i seen := by
  induction seen with
  | nil => rfl
  | cons a seen ih =>
    have whole : restartsIn i (a :: seen) = (restartsIn i [a] || restartsIn i seen) :=
      restartsAppend i [a] seen
    have part : about i (a :: seen) = about i [a] ++ about i seen := aboutAppend i [a] seen
    rw [whole, part, restartsAppend, ih]
    congr 1
    by_cases own : a.channel? = some i
    · simp [about, own]
    · have none : about i [a] = [] := by simp [about, own]
      rw [none]
      cases a with
      | notice m =>
        cases m with
        | ringFault j status =>
          have apart : j ≠ i := fun same => own (congrArg some same)
          simp [restartsIn, apart]
        | _ => rfl
      | _ => rfl

theorem outcomeSound {size : Nat} (s : Slot size) : s.outcome ≠ .error .underrun := by
  unfold Slot.outcome
  dsimp only
  repeat' split
  all_goals
    intro same
    cases same

theorem slotsTold {size : Nat} (i : Nat) (slots : List (Slot size)) :
    outcomesIn i ((slots.map Slot.reception).flatMap (Reception.actions i)) =
      slots.map Slot.outcome := by
  induction slots with
  | nil => rfl
  | cons first slots ih =>
    have sound := outcomeSound first
    rw [List.map_cons, List.flatMap_cons, outcomesAppend, ih, List.map_cons]
    rw [← receptionResult] at sound ⊢
    unfold Reception.actions
    cases result : first.reception.result with
    | ok payload => simp [outcomesIn, Action.outcome?]
    | error error =>
      have apart : error ≠ .underrun := fun same => sound (by rw [result, same])
      have noted : Action.outcome? i (.notice (.receiveError i error first.reception.status)) =
        none := rfl
      have told : Action.outcome? i (.event (.failed i error)) = some (.error error) :=
        if_pos ⟨rfl, apart⟩
      simp only [outcomesIn]
      rw [List.filterMap_cons_none noted, List.filterMap_cons_some told]
      rfl

theorem receptionsQuiet (i : Nat) (receptions : List Reception) :
    restartsIn i (receptions.flatMap (Reception.actions i)) = false := by
  induction receptions with
  | nil => rfl
  | cons first receptions ih =>
    rw [List.flatMap_cons, restartsAppend, ih]
    unfold Reception.actions
    split <;> rfl

theorem receiveNewsRestarts {n size : Nat} (i : Nat) (ring : SlotRing n size) (s : DmaStatus)
    (a : UInt32) : restartsIn i (Duplex.receiveNews i ring s a) = s.ringFault := by
  unfold Duplex.receiveNews
  cases s.ringFault with
  | true => simp [restartNews, restartsIn]
  | false => exact receptionsQuiet i _

theorem transmitToldOutcomes {n size : Nat} (i : Nat) (g : Channel.Readings)
    (ch : Channel n size) : outcomesIn i (Channel.transmitTold i g ch) = [] ∧
      restartsIn i (Channel.transmitTold i g ch) = false := by
  have sent (sent : List Transmission) :
      outcomesIn i (sent.flatMap (Transmission.actions i)) = [] ∧
        restartsIn i (sent.flatMap (Transmission.actions i)) = false := by
    induction sent with
    | nil => exact ⟨rfl, rfl⟩
    | cons first sent ih =>
      rw [List.flatMap_cons, outcomesAppend, restartsAppend, ih.1, ih.2]
      unfold Transmission.actions
      split <;> exact ⟨rfl, rfl⟩
  have underrun (s : DmaStatus) :
      outcomesIn i (underrunNews i s) = [] ∧ restartsIn i (underrunNews i s) = false := by
    unfold underrunNews
    split
    · refine ⟨?_, rfl⟩
      simp [outcomesIn, Action.outcome?]
    · exact ⟨rfl, rfl⟩
  unfold Channel.transmitTold
  split
  · rw [transmitNews]
    simp only [outcomesAppend, restartsAppend, underrun, sent]
    split <;> exact ⟨rfl, rfl⟩
  · exact ⟨rfl, rfl⟩

theorem modemToldOutcomes (i : Nat) (g : Channel.Readings) :
    outcomesIn i (Channel.modemTold i g) = [] ∧ restartsIn i (Channel.modemTold i g) = false := by
  unfold Channel.modemTold
  split <;> exact ⟨rfl, rfl⟩

theorem servicedOutcomes {n size i : Nat} {ch : Channel n size} {r : Registers}
    {g : Channel.Readings} {done : Outcome Registers (Channel n size)}
    (served : Channel.Serviced i ch r g done) :
    outcomesIn i done.seen = outcomesIn i (Channel.receiveTold i g ch) ∧
      restartsIn i done.seen = restartsIn i (Channel.receiveTold i g ch) := by
  have transmit := transmitToldOutcomes i g ch
  have modem := modemToldOutcomes i g
  constructor
  · rw [← outcomesAbout, served.news, outcomesAppend, outcomesAppend, transmit.1, modem.1]
    simp
  · rw [← restartsAbout, served.news, restartsAppend, restartsAppend, transmit.2, modem.2]
    simp

theorem outcomesQuiet {i : Nat} {seen : List Action}
    (quiet : ∀ a ∈ about i seen, ∃ d on, a = .notice (.enabled i d on)) :
    outcomesIn i seen = [] ∧ restartsIn i seen = false := by
  rw [← outcomesAbout, ← restartsAbout]
  constructor
  · refine List.filterMap_eq_nil_iff.mpr fun a shown => ?_
    obtain ⟨d, on, rfl⟩ := quiet a shown
    rfl
  · refine List.any_eq_false.mpr fun a shown => ?_
    obtain ⟨d, on, rfl⟩ := quiet a shown
    exact Bool.false_ne_true

variable {n size i : Nat} {ch : Channel n size} {r : Registers} {written : List (Slot size)}
  {reported : List (Except ChannelError Bytes)}

def Channel.faulted (i : Nat) (ch : Channel n size) (r : Registers) : Bool :=
  (InterruptStatus.ofByte (r.peek8 (Register.interrupts i))).receive && ch.receiving &&
    (DmaStatus.ofByte (r.peek8 (Register.status i .receive))).ringFault

def Share.faulted (i : Nat) (ch : Channel n size) (r : Registers) : Share → Bool
  | .service => ch.faulted i r
  | _ => false

theorem serviceRestarts (few : i < Limits.maxChannels) :
    restartsIn i (ch.service i r).seen = ch.faulted i r := by
  obtain ⟨g, asked, served⟩ := Channel.serviced few ch r
  rw [(servicedOutcomes served).2, Channel.faulted, ← asked, ← served.receiveStatus,
    Channel.receiveTold]
  cases g.asked.receive && ch.receiving with
  | true => exact receiveNewsRestarts i _ _ _
  | false => rfl

theorem shareRestarts (few : i < Limits.maxChannels) (t : Thresholds) {share : Share}
    (started : ∀ setup place, share ≠ .init setup place) :
    restartsIn i (share.perform i t ch r).seen = share.faulted i ch r := by
  obtain rfl | ⟨on, rfl⟩ | aside := Share.receiveCases started
  · exact serviceRestarts few
  · have told := (drivesEnable few .receive on ch).news r
    change restartsIn i (ch.enable i .receive on r).seen = false
    rw [← restartsAbout, told]
    rfl
  · rw [(outcomesQuiet (asideKeeps few aside t ch r).quiet).2]
    cases share with
    | service => exact aside.elim
    | _ => rfl

def ReceiveBooks (i : Nat) (ch : Channel n size) (r : Registers) (written : List (Slot size))
    (reported : List (Except ChannelError Bytes)) : Prop :=
  ReceiveLedger ch.rings.receive (Control.of i .receive r) ch.receiving written reported

namespace ReceiveBooks

theorem fresh (filled : 0 < n) (plain : r.wiring.Plain i .receive)
    (start : Fresh i .receive ch r) : ReceiveBooks i ch r [] [] := by
  obtain ⟨old, linked, ring⟩ := start.ring
  have off : ch.receiving = false := start.enabled
  have ring : ch.rings.receive = old.reset := ring
  unfold ReceiveBooks
  rw [ring, off]
  refine ReceiveLedger.stopped filled linked ?_
  rw [start.command plain]
  decide

theorem kept (h : ReceiveBooks i ch r written reported)
    {done : Outcome Registers (Channel n size)} (same : Kept i .receive ch r done) :
    ReceiveBooks i done.answer done.state written reported := by
  have ring : done.answer.rings.receive = ch.rings.receive := same.ring
  have on : done.answer.receiving = ch.receiving := same.enabled
  unfold ReceiveBooks
  rw [ring, on, same.control]
  exact h

variable (few : i < Limits.maxChannels) (plain : r.wiring.Plain i .receive)
  (h : ReceiveBooks i ch r written reported)
include few plain h

theorem enabled (on : Bool) :
    ReceiveBooks i (ch.enable i .receive on r).answer (ch.enable i .receive on r).state [] [] := by
  have control := (drivesEnable few .receive on ch).control r plain
  rw [enableAnswer]
  unfold ReceiveBooks
  rw [control]
  cases on with
  | false =>
    refine ReceiveLedger.stopped h.indexed.filled h.linked ?_
    change Register.abortCommand ≠ Register.startCommand
    decide
  | true => exact ReceiveLedger.started h.indexed.filled h.linked

theorem serviced (fits : 16 * n ≤ 2 ^ 32) :
    (restartsIn i (ch.service i r).seen = true →
      ReceiveBooks i (ch.service i r).answer (ch.service i r).state [] []) ∧
    (restartsIn i (ch.service i r).seen = false →
      ReceiveBooks i (ch.service i r).answer (ch.service i r).state written
        (reported ++ outcomesIn i (ch.service i r).seen) ∧
      ((InterruptStatus.ofByte (r.peek8 (Register.interrupts i))).receive = true →
        reported ++ outcomesIn i (ch.service i r).seen = written.map Slot.outcome)) := by
  obtain ⟨g, asked, served⟩ := Channel.serviced few ch r
  obtain ⟨outcomes, restarts⟩ := servicedOutcomes served
  unfold ReceiveBooks at h ⊢
  rw [outcomes, restarts, served.receive, served.receiving, served.receiveControl plain, ← asked]
  unfold Channel.receiveAfter Channel.receiveTold Channel.receiveControlAfter
  cases on : g.asked.receive && ch.receiving with
  | true =>
    have receiving : ch.receiving = true := (Bool.and_eq_true_iff.mp on).2
    rw [receiving] at h ⊢
    rw [served.receiveReading plain]
    simp only [↓reduceIte]
    rw [receiveNewsRestarts]
    cases fault : g.receiveStatus.ringFault with
    | true =>
      unfold Duplex.receiveNews Duplex.receiveRing Duplex.receiveControl
      rw [fault]
      exact ⟨fun _ => ReceiveLedger.started h.indexed.filled h.linked, fun none => by contradiction⟩
    | false =>
      obtain ⟨slots, collected, all, after⟩ := h.reports fits fault
      have news : Duplex.receiveNews i ch.rings.receive g.receiveStatus
          (Control.of i .receive r).current =
          (slots.map Slot.reception).flatMap (Reception.actions i) := by
        unfold Duplex.receiveNews
        rw [fault, collected]
        rfl
      rw [news, slotsTold]
      exact ⟨fun restarted => by contradiction, fun _ => ⟨after, fun _ => all⟩⟩
  | false =>
    simp only [Bool.false_eq_true, ↓reduceIte]
    refine ⟨fun restarted => by contradiction, fun _ => ?_⟩
    have none : outcomesIn i [] = [] := rfl
    rw [none, List.append_nil]
    refine ⟨h, fun asked => ?_⟩
    have off : ch.receiving = false := by simpa [asked] using on
    obtain ⟨empty, silent, -⟩ := h.idle off
    rw [empty, silent]
    rfl

end ReceiveBooks

structure ReceiveShare (i : Nat) (share : Share) (ch : Channel n size) (r : Registers)
    (done : Outcome Registers (Channel n size)) (written : List (Slot size))
    (reported : List (Except ChannelError Bytes)) : Prop where
  cut : (share.switches .receive || restartsIn i done.seen) = true →
    ReceiveBooks i done.answer done.state [] []
  books : (share.switches .receive || restartsIn i done.seen) = false →
    ReceiveBooks i done.answer done.state written (reported ++ outcomesIn i done.seen)
  settled : restartsIn i done.seen = false → share = .service →
    (InterruptStatus.ofByte (r.peek8 (Register.interrupts i))).receive = true →
    reported ++ outcomesIn i done.seen = written.map Slot.outcome

section Any

variable (few : i < Limits.maxChannels) (plain : r.wiring.Plain i .receive)
  (fits : 16 * n ≤ 2 ^ 32) (h : ReceiveBooks i ch r written reported)
include few h

theorem receiveAside {share : Share} (aside : share.Aside .receive) (t : Thresholds) :
    ReceiveShare i share ch r (share.perform i t ch r) written reported := by
  have kept := asideKeeps few aside t ch r
  obtain ⟨outcomes, restarts⟩ := outcomesQuiet kept.quiet
  have stays := Share.asideStays aside
  refine ⟨fun on => ?_, fun _ => ?_, fun _ serve => ?_⟩
  · rw [stays, restarts] at on
    contradiction
  · rw [outcomes, List.append_nil]
    exact h.kept kept
  · rw [serve] at aside
    exact aside.elim

include plain fits

theorem receiveShare (t : Thresholds) (share : Share)
    (started : ∀ setup place, share ≠ .init setup place) :
    ReceiveShare i share ch r (share.perform i t ch r) written reported := by
  obtain rfl | ⟨on, rfl⟩ | aside := Share.receiveCases started
  · obtain ⟨restarted, served⟩ := h.serviced few plain fits
    exact ⟨restarted, fun quiet => (served quiet).1, fun quiet _ => (served quiet).2⟩
  · exact ⟨fun _ => h.enabled few plain on, fun off => by contradiction,
      fun _ serve => by contradiction⟩
  · exact receiveAside few h aside t

end Any

end SerialAdapter
