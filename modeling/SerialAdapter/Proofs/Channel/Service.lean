import SerialAdapter.Channel
import SerialAdapter.Proofs.Register.Control
import SerialAdapter.Proofs.Ring.Queue

/-! The operations of the data path, each with what it leaves in the registers of its own controller,
and a service told as what it reads, what it says and what it leaves behind. The readings are taken
as they come, so all of this holds of a controller that answers anything; that a reading is the
value of its register is said apart, for plain wiring. -/
namespace SerialAdapter.Duplex

variable {n size i : Nat} {d : Direction} (few : i < Limits.maxChannels)
include few

theorem drivesStartReceive (x : Duplex n size) :
    Drives i .receive (startReceive i x) fun _ =>
      { current := x.receive.reset.fill.address 0
        stop := x.receive.reset.fill.address x.receive.reset.fill.next
        bufferLength := UInt16.ofNat size
        command := Register.startCommand
        interruptEnable := Register.interruptsOn } := by
  have steps := drivesBind (drivesCommand few Register.abortCommand) fun _ =>
    drivesBind (drivesSetBufferLength few (UInt16.ofNat size)) fun _ =>
    drivesBind (drivesSetCurrent few (x.receive.reset.fill.address 0)) fun _ =>
    drivesBind (drivesSetStop few (x.receive.reset.fill.address x.receive.reset.fill.next)) fun _ =>
    drivesBind (drivesAcknowledge few .all) fun _ =>
    drivesBind (drivesSetInterrupts few true) fun _ =>
    drivesBind (drivesCommand few Register.startCommand) fun _ =>
    drivesPure (d := Direction.receive) (i := i) (x.withRing .receive x.receive.reset.fill)
  exact steps

theorem drivesStartTransmit (x : Duplex n size) :
    Drives i .transmit (startTransmit i x) fun control =>
      { current := x.transmit.reset.address 0
        stop := x.transmit.reset.address 0
        bufferLength := control.bufferLength
        command := Register.startCommand
        interruptEnable := Register.interruptsOn } := by
  have steps := drivesBind (drivesCommand few Register.abortCommand) fun _ =>
    drivesBind (drivesSetCurrent few (x.transmit.reset.address 0)) fun _ =>
    drivesBind (drivesSetStop few (x.transmit.reset.address 0)) fun _ =>
    drivesBind (drivesAcknowledge few .all) fun _ =>
    drivesBind (drivesSetInterrupts few true) fun _ =>
    drivesBind (drivesCommand few Register.startCommand) fun _ =>
    drivesPure (d := Direction.transmit) (i := i) (x.withRing .transmit x.transmit.reset)
  exact steps

theorem drivesStop (x : Duplex n size) :
    Drives i d (stop i d x) ({ · with command := Register.abortCommand, interruptEnable := 0 }) := by
  have steps := drivesBind (drivesCommand few Register.abortCommand) fun _ =>
    drivesBind (drivesSetInterrupts few false) fun _ =>
    drivesBind (drivesAcknowledge few .all) fun _ =>
    drivesPure (d := d) (i := i) (x.withRing d (x.ring d).reset)
  exact steps

theorem drivesHandOver {α : Type} (a : UInt32) (answer : α) :
    Drives i d (do Dma.setStop i d a; Dma.start i d; return answer)
      ({ · with stop := a, command := Register.startCommand }) := by
  have steps := drivesBind (drivesSetStop few a) fun _ =>
    drivesBind (drivesCommand few Register.startCommand) fun _ =>
    drivesPure (d := d) (i := i) answer
  exact steps

end SerialAdapter.Duplex

namespace SerialAdapter

namespace Operation

variable {σ α : Type}

theorem emitAppend (first second : List Action) (next : Unit → Operation σ α) :
    (emit first >>= fun _ => emit second >>= next) = (emit (first ++ second) >>= next) := by
  funext s
  simp [emit, bindApply, List.append_assoc]

theorem emitApply {actions : List Action} (next : Unit → Operation σ α) (s : σ) :
    (emit actions >>= next) s =
      ⟨(next () s).answer, (next () s).state, actions ++ (next () s).seen⟩ := rfl

theorem bindIf {β : Type} {p : Prop} [Decidable p] (yes no : Operation σ α)
    (next : α → Operation σ β) :
    ((if p then yes else no) >>= next) = if p then yes >>= next else no >>= next := by
  split <;> rfl

end Operation

def underrunNews (i : Nat) (s : DmaStatus) : List Action :=
  if s.chainOverflow then [.notice (.underrun i), .event (.failed i .underrun)] else []

def transmitNews (i count : Nat) (sent : List Transmission) : List Action :=
  sent.flatMap (Transmission.actions i) ++
    if 0 < count then [.notice (.framesSent i count)] else []

def restartNews (i : Nat) (s : DmaStatus) : List Action :=
  [.notice (.ringFault i s), .event (.failed i .overflow)]

theorem transmissionActionsOwn (i : Nat) (sent : List Transmission) :
    ∀ a ∈ sent.flatMap (Transmission.actions i), a.channel? = some i := by
  intro a shown
  obtain ⟨s, -, told⟩ := List.mem_flatMap.mp shown
  unfold Transmission.actions at told
  split at told
  · cases List.mem_singleton.mp told
    rfl
  · contradiction

theorem receptionActionsOwn (i : Nat) (receptions : List Reception) :
    ∀ a ∈ receptions.flatMap (Reception.actions i), a.channel? = some i := by
  intro a shown
  obtain ⟨s, -, told⟩ := List.mem_flatMap.mp shown
  unfold Reception.actions at told
  split at told
  · cases List.mem_singleton.mp told
    rfl
  · simp only [List.mem_cons, List.not_mem_nil, or_false] at told
    rcases told with rfl | rfl <;> rfl

theorem underrunNewsOwn (i : Nat) (s : DmaStatus) :
    ∀ a ∈ underrunNews i s, a.channel? = some i := by
  intro a shown
  unfold underrunNews at shown
  split at shown
  · simp only [List.mem_cons, List.not_mem_nil, or_false] at shown
    rcases shown with rfl | rfl <;> rfl
  · contradiction

theorem transmitNewsOwn (i count : Nat) (sent : List Transmission) :
    ∀ a ∈ transmitNews i count sent, a.channel? = some i := by
  intro a shown
  rcases List.mem_append.mp shown with told | counted
  · exact transmissionActionsOwn i sent a told
  · split at counted
    · cases List.mem_singleton.mp counted
      rfl
    · contradiction

theorem restartNewsOwn (i : Nat) (s : DmaStatus) : ∀ a ∈ restartNews i s, a.channel? = some i := by
  intro a shown
  simp only [restartNews, List.mem_cons, List.not_mem_nil, or_false] at shown
  rcases shown with rfl | rfl <;> rfl

structure Reads {α β : Type} (i : Nat) (d : Direction) (op : Operation Registers α)
    (next : α → Operation Registers β) (r : Registers) (a : α) (r' : Registers) : Prop where
  value : a = (op r).answer
  answer : ((op >>= next) r).answer = (next a r').answer
  state : ((op >>= next) r).state = (next a r').state
  news : about i ((op >>= next) r).seen = about i (next a r').seen
  plain : r.wiring.Plain i d → r'.wiring.Plain i d
  control : r.wiring.Plain i d → Control.of i d r' = Control.of i d r

theorem readsFirst {α β : Type} {i : Nat} {d : Direction} {op : Operation Registers α}
    (h : Drives i d op id) (next : α → Operation Registers β) (r : Registers) :
    ∃ a r', Reads i d op next r a r' := by
  refine ⟨(op r).answer, (op r).state, rfl, rfl, rfl, ?_, fun plain => ?_, h.control r⟩
  · rw [Operation.bindApply, aboutAppend, h.news]
    rfl
  · exact (h.confined.frame r).wiring ▸ plain

namespace Duplex

variable {n size i : Nat}

def reportTransmit (i : Nat) (x : Duplex n size) (t : Traffic) (current : UInt32) :
    Operation Registers (Duplex n size × Traffic) := do
  let done := x.transmit.completed current
  let drained := SlotRing.drain done x.transmit
  Operation.emit (transmitNews i done drained.1)
  return (x.withRing .transmit drained.2, drained.1.foldl Transmission.count t)

theorem reportTransmitEq (x : Duplex n size) (t : Traffic) (current : UInt32) :
    reportTransmit i x t current = (do
      let done := x.transmit.completed current
      let drained := SlotRing.drain done x.transmit
      Operation.emit (drained.1.flatMap (Transmission.actions i))
      if 0 < done then do
        Operation.notify (.framesSent i done)
        return (x.withRing .transmit drained.2, drained.1.foldl Transmission.count t)
      else return (x.withRing .transmit drained.2, drained.1.foldl Transmission.count t)) := by
  simp only [reportTransmit, transmitNews]
  split
  · exact (Operation.emitAppend _ _ _).symm
  · rw [List.append_nil]

def answerTransmit (i : Nat) (x : Duplex n size) (t : Traffic) (s : DmaStatus) :
    Operation Registers (Duplex n size × Traffic) := do
  Operation.emit (underrunNews i s)
  let current ← Dma.currentAddress i .transmit
  reportTransmit i x (if s.chainOverflow then t.countError .underrun else t) current

theorem serviceTransmitEq (x : Duplex n size) (t : Traffic) :
    serviceTransmit i x t = (do
      let status ← Dma.readStatus i .transmit
      Dma.acknowledge i .transmit status
      answerTransmit i x (t.countInterrupt .transmit) status) := by
  unfold serviceTransmit
  congr 1
  funext status
  congr 1
  funext _
  simp only [answerTransmit, underrunNews]
  split
  · simp only [reportTransmitEq]
    exact Operation.emitAppend _ _ _
  · simp only [reportTransmitEq]
    rfl

def transmitCount (ring : SlotRing n size) (t : Traffic) (s : DmaStatus) (a : UInt32) : Traffic :=
  (SlotRing.drain (ring.completed a) ring).1.foldl Transmission.count
    (if s.chainOverflow then (t.countInterrupt .transmit).countError .underrun
    else t.countInterrupt .transmit)

structure TransmitService (i : Nat) (x : Duplex n size) (t : Traffic) (r : Registers)
    (s : DmaStatus) (a : UInt32) : Prop where
  rings : (serviceTransmit i x t r).answer.1 =
    x.withRing .transmit (SlotRing.drain (x.transmit.completed a) x.transmit).2
  traffic : (serviceTransmit i x t r).answer.2 = transmitCount x.transmit t s a
  news : about i (serviceTransmit i x t r).seen = underrunNews i s ++
    transmitNews i (x.transmit.completed a) (SlotRing.drain (x.transmit.completed a) x.transmit).1
  control : r.wiring.Plain i .transmit → a = (Control.of i .transmit r).current ∧
    Control.of i .transmit (serviceTransmit i x t r).state = Control.of i .transmit r

theorem drivesReportTransmit (x : Duplex n size) (t : Traffic) (a : UInt32) :
    Drives i .transmit (reportTransmit i x t a) id
      (transmitNews i (x.transmit.completed a)
        (SlotRing.drain (x.transmit.completed a) x.transmit).1) := by
  let done := x.transmit.completed a
  let drained := SlotRing.drain done x.transmit
  have told : Drives i .transmit (Operation.emit (transmitNews i done drained.1)) id _ :=
    drivesEmit (transmitNewsOwn i done drained.1)
  have steps := drivesBind told fun _ =>
    drivesPure (x.withRing .transmit drained.2, drained.1.foldl Transmission.count t)
  rw [List.append_nil] at steps
  exact steps

variable (few : i < Limits.maxChannels)
include few

theorem confinedAnswerTransmit (x : Duplex n size) (t : Traffic) (s : DmaStatus) :
    Confined i (Register.Block i .transmit) (answerTransmit i x t s) :=
  confinedBind (drivesEmit (underrunNewsOwn i s)).confined fun _ =>
    confinedBind (drivesCurrentAddress few).confined fun a =>
    (drivesReportTransmit x _ a).confined

theorem confinedServiceTransmit (x : Duplex n size) (t : Traffic) :
    Confined i (Register.Block i .transmit) (serviceTransmit i x t) := by
  rw [serviceTransmitEq]
  exact confinedBind (drivesReadStatus few).confined fun s =>
    confinedBind (drivesAcknowledge few s).confined fun _ =>
    confinedAnswerTransmit few x _ s

theorem transmitServiced (x : Duplex n size) (t : Traffic) (r : Registers) :
    ∃ s a, TransmitService i x t r s a := by
  obtain ⟨s, r₁, status⟩ := readsFirst (drivesReadStatus few (d := .transmit)) (fun s => do
    Dma.acknowledge i .transmit s
    answerTransmit i x (t.countInterrupt .transmit) s) r
  obtain ⟨_, r₂, acknowledged⟩ := readsFirst (drivesAcknowledge few (d := .transmit) s)
    (fun _ => answerTransmit i x (t.countInterrupt .transmit) s) r₁
  obtain ⟨a, r₃, current⟩ := readsFirst (drivesCurrentAddress few (d := .transmit))
    (reportTransmit i x (if s.chainOverflow then (t.countInterrupt .transmit).countError .underrun
      else t.countInterrupt .transmit)) r₂
  have report := drivesReportTransmit (i := i) x (if s.chainOverflow then
    (t.countInterrupt .transmit).countError .underrun else t.countInterrupt .transmit) a
  have underrun : about i (underrunNews i s) = underrunNews i s :=
    List.filter_eq_self.mpr fun a shown => by simp [underrunNewsOwn i s a shown]
  refine ⟨s, a, ?_, ?_, ?_, fun plain => ?_⟩
  · rw [serviceTransmitEq, status.answer, acknowledged.answer]
    exact congrArg Prod.fst current.answer
  · rw [serviceTransmitEq, status.answer, acknowledged.answer]
    exact congrArg Prod.snd current.answer
  · rw [serviceTransmitEq, status.news, acknowledged.news, ← underrun, ← report.news r₃,
      ← current.news]
    exact aboutAppend i _ _
  · have kept := acknowledged.plain (status.plain plain)
    have same := (acknowledged.control (status.plain plain)).trans (status.control plain)
    constructor
    · rw [← same, current.value]
      exact currentAddressAnswer kept
    · rw [serviceTransmitEq, status.state, acknowledged.state, answerTransmit,
        Operation.emitApply, current.state, ← same, ← current.control kept]
      exact report.control r₃ (current.plain kept)

omit few

def reportReceive (i : Nat) (x : Duplex n size) (t : Traffic) (current : UInt32) :
    Operation Registers (Duplex n size × Traffic) := do
  let done := x.receive.completed current
  let collected := SlotRing.collect done x.receive
  let answer := (x.withRing .receive collected.2, collected.1.foldl Reception.count t)
  Operation.emit (collected.1.flatMap (Reception.actions i))
  if 0 < done then do
    Dma.setStop i .receive (collected.2.address collected.2.next)
    Dma.start i .receive
    return answer
  else return answer

def restartReceive (i : Nat) (x : Duplex n size) (t : Traffic) (s : DmaStatus) :
    Operation Registers (Duplex n size × Traffic) := do
  Operation.emit (restartNews i s)
  let x ← startReceive i x
  return (x, t.countError .overflow)

def answerReceive (i : Nat) (x : Duplex n size) (t : Traffic) (s : DmaStatus) :
    Operation Registers (Duplex n size × Traffic) :=
  if s.ringFault then restartReceive i x t s
  else Dma.currentAddress i .receive >>= reportReceive i x t

theorem serviceReceiveEq (x : Duplex n size) (t : Traffic) :
    serviceReceive i x t = (do
      let status ← Dma.readStatus i .receive
      Dma.acknowledge i .receive status
      answerReceive i x (t.countInterrupt .receive) status) := by
  refine congrArg (Dma.readStatus i .receive >>= ·) (funext fun s => ?_)
  refine congrArg (Dma.acknowledge i .receive s >>= ·) (funext fun _ => ?_)
  unfold answerReceive
  split
  · exact Operation.emitAppend _ _ _
  · rfl

def receiveRing (ring : SlotRing n size) (s : DmaStatus) (a : UInt32) : SlotRing n size :=
  if s.ringFault then ring.reset.fill else (SlotRing.collect (ring.completed a) ring).2

def receiveNews (i : Nat) (ring : SlotRing n size) (s : DmaStatus) (a : UInt32) : List Action :=
  if s.ringFault then restartNews i s
  else (SlotRing.collect (ring.completed a) ring).1.flatMap (Reception.actions i)

def receiveStarted (ring : SlotRing n size) : Control where
  current := ring.reset.fill.address 0
  stop := ring.reset.fill.address ring.reset.fill.next
  bufferLength := UInt16.ofNat size
  command := Register.startCommand
  interruptEnable := Register.interruptsOn

def receiveControl (ring : SlotRing n size) (s : DmaStatus) (control : Control) : Control :=
  let after := receiveRing ring s control.current
  if s.ringFault then receiveStarted ring
  else if 0 < ring.completed control.current then
    { control with stop := after.address after.next, command := Register.startCommand }
  else control

def receiveCount (ring : SlotRing n size) (t : Traffic) (s : DmaStatus) (a : UInt32) : Traffic :=
  if s.ringFault then (t.countInterrupt .receive).countError .overflow
  else (SlotRing.collect (ring.completed a) ring).1.foldl Reception.count (t.countInterrupt .receive)

structure ReceiveService (i : Nat) (x : Duplex n size) (t : Traffic) (r : Registers)
    (s : DmaStatus) (a : UInt32) : Prop where
  status : s = .ofByte (r.peek8 (Register.status i .receive))
  rings : (serviceReceive i x t r).answer.1 = x.withRing .receive (receiveRing x.receive s a)
  traffic : (serviceReceive i x t r).answer.2 = receiveCount x.receive t s a
  news : about i (serviceReceive i x t r).seen = receiveNews i x.receive s a
  control : r.wiring.Plain i .receive → a = (Control.of i .receive r).current ∧
    Control.of i .receive (serviceReceive i x t r).state =
      receiveControl x.receive s (Control.of i .receive r)

include few

theorem drivesReportReceive (x : Duplex n size) (t : Traffic) (a : UInt32) :
    Drives i .receive (reportReceive i x t a)
      (fun control =>
        let after := (SlotRing.collect (x.receive.completed a) x.receive).2
        if 0 < x.receive.completed a then
          { control with stop := after.address after.next, command := Register.startCommand }
        else control)
      ((SlotRing.collect (x.receive.completed a) x.receive).1.flatMap (Reception.actions i)) := by
  let done := x.receive.completed a
  let collected := SlotRing.collect done x.receive
  let answer := (x.withRing .receive collected.2, collected.1.foldl Reception.count t)
  have told : Drives i .receive (Operation.emit (collected.1.flatMap (Reception.actions i))) id _ :=
    drivesEmit (receptionActionsOwn i collected.1)
  have handed := drivesIf (p := 0 < done)
    (drivesHandOver few (d := .receive) (collected.2.address collected.2.next) answer)
    (drivesPure (i := i) (d := .receive) answer)
  have steps := drivesBind told fun _ => handed
  simp only [ite_self, List.append_nil] at steps
  refine ⟨steps.confined, fun r plain => (steps.control r plain).trans ?_, steps.news⟩
  change (if 0 < done then _ else id) (Control.of i .receive r) = _
  split <;> rfl

theorem drivesRestartReceive (x : Duplex n size) (t : Traffic) (s : DmaStatus) :
    Drives i .receive (restartReceive i x t s) (fun _ => receiveStarted x.receive)
      (restartNews i s) := by
  have told : Drives i .receive (Operation.emit (restartNews i s)) id _ :=
    drivesEmit (restartNewsOwn i s)
  have steps := drivesBind told fun _ =>
    drivesBind (drivesStartReceive few x) fun x => drivesPure (x, t.countError .overflow)
  simp only [List.append_nil] at steps
  exact steps

theorem confinedAnswerReceive (x : Duplex n size) (t : Traffic) (s : DmaStatus) :
    Confined i (Register.Block i .receive) (answerReceive i x t s) :=
  confinedIf (drivesRestartReceive few x t s).confined
    (confinedBind (drivesCurrentAddress few).confined fun a =>
      (drivesReportReceive few x t a).confined)

theorem confinedServiceReceive (x : Duplex n size) (t : Traffic) :
    Confined i (Register.Block i .receive) (serviceReceive i x t) := by
  rw [serviceReceiveEq]
  exact confinedBind (drivesReadStatus few).confined fun s =>
    confinedBind (drivesAcknowledge few s).confined fun _ =>
    confinedAnswerReceive few x _ s

theorem receiveServiced (x : Duplex n size) (t : Traffic) (r : Registers) :
    ∃ s a, ReceiveService i x t r s a := by
  obtain ⟨s, r₁, status⟩ := readsFirst (drivesReadStatus few (d := .receive)) (fun s => do
    Dma.acknowledge i .receive s
    answerReceive i x (t.countInterrupt .receive) s) r
  obtain ⟨_, r₂, acknowledged⟩ := readsFirst (drivesAcknowledge few (d := .receive) s)
    (fun _ => answerReceive i x (t.countInterrupt .receive) s) r₁
  obtain ⟨a, r₃, current⟩ := readsFirst (drivesCurrentAddress few (d := .receive))
    (reportReceive i x (t.countInterrupt .receive)) r₂
  have report := drivesReportReceive few x (t.countInterrupt .receive) a
  have restart := drivesRestartReceive few x (t.countInterrupt .receive) s
  refine ⟨s, a, status.value, ?_, ?_, ?_, fun plain => ?_⟩
  · rw [serviceReceiveEq, status.answer, acknowledged.answer, answerReceive, receiveRing]
    split
    · rfl
    · rw [current.answer, reportReceive]
      simp only [Operation.bindApply]
      split <;> rfl
  · rw [serviceReceiveEq, status.answer, acknowledged.answer, answerReceive, receiveCount]
    split
    · rfl
    · rw [current.answer, reportReceive]
      simp only [Operation.bindApply]
      split <;> rfl
  · rw [serviceReceiveEq, status.news, acknowledged.news, answerReceive, receiveNews]
    split
    · exact restart.news r₂
    · exact current.news.trans (report.news r₃)
  · have kept := acknowledged.plain (status.plain plain)
    have same := (acknowledged.control (status.plain plain)).trans (status.control plain)
    have reading : a = (Control.of i .receive r₂).current := by
      rw [current.value]
      exact currentAddressAnswer kept
    refine ⟨by rw [reading, same], ?_⟩
    rw [serviceReceiveEq, status.state, acknowledged.state, ← same, answerReceive, receiveControl,
      receiveRing]
    split
    · exact restart.control r₂ kept
    · rw [current.state, report.control r₃ (current.plain kept), current.control kept, reading]

end Duplex

end SerialAdapter
