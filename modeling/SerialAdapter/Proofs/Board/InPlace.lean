import SerialAdapter.Proofs.Board.Draft
import SerialAdapter.Proofs.Board.Refusal

/-! Sending in place and sending by copy. A frame may be written into the next buffer long before it
is queued: whatever happens in between, as long as it leaves the channel's sending alone, it comes to
the same as copying the frame at the end. What the wire sees is not looked at here, only the driver,
its memory and the registers. -/
namespace SerialAdapter

open Operation Registers

variable {c n size : Nat}

namespace Board

def inPlace (i : Nat) (data : Bytes) (tag : UInt64) (between : List (Meanwhile c)) :
    Operation (Board c n size) (List Reply × Except SendError Unit) := do
  let _ ← prepare i data
  let replies ← meanwhile between
  let result ← sendPrepared i data.length tag
  return (replies, result)

def copying (i : Nat) (data : Bytes) (tag : UInt64) (between : List (Meanwhile c)) :
    Operation (Board c n size) (List Reply × Except SendError Unit) := do
  let replies ← meanwhile between
  let result ← send i data tag
  return (replies, result)

end Board

structure Board.Open (i : Fin c) (b : Board c n size) : Prop where
  up : b.initialized = true
  on : (b.channel i).transmitting = true
  indexed : (b.channel i).rings.transmit.Indexed
  free : (b.channel i).rings.transmit.free ≠ 0

section Open

variable (few : c ≤ Limits.maxChannels) {i : Fin c} {b : Board c n size}

theorem openAfter {b' : Board c n size} (h : b.Open i) (up : b'.initialized = true)
    (on : (b'.channel i).transmitting = (b.channel i).transmitting)
    (indexed : (b'.channel i).rings.transmit.Indexed)
    (fewer : (b'.channel i).rings.transmit.inFlight ≤ (b.channel i).rings.transmit.inFlight) :
    b'.Open i where
  up := up
  on := on.trans h.on
  indexed := indexed
  free := by
    have before := SlotRing.freeAddInFlight h.indexed
    have after := SlotRing.freeAddInFlight indexed
    have free := h.free
    omega

theorem openStill {b' : Board c n size} (h : b.Open i) (up : b'.initialized = true)
    (still : Still i .transmit b b') : b'.Open i := by
  have ring : (b'.channel i).rings.transmit = (b.channel i).rings.transmit := still.ring
  exact openAfter h up still.enabled (ring ▸ h.indexed) (by rw [ring])

theorem leavesShare {k : Call c} (leaves : k.Leaves i) :
    k.share b i = .service ∨ (k.share b i).Aside .transmit := by
  unfold Call.share
  split
  · rename_i concerned
    cases k with
    | enable j d on =>
      cases d with
      | receive => exact .inr (by simp [Call.own, Share.Aside])
      | transmit => exact (leaves (of_decide_eq_true concerned)).elim
    | send j data tag | sendPrepared j length tag =>
      simp only [Call.concerns, Bool.and_eq_true, decide_eq_true_eq] at concerned
      exact (leaves concerned.1.1).elim
    | prepare j data =>
      simp only [Call.concerns, Bool.and_eq_true, decide_eq_true_eq] at concerned
      exact (leaves concerned.1).elim
    | serviceChannel j | handleInterrupt => exact .inl rfl
    | _ => exact .inr trivial
  · exact .inr trivial

theorem servedRoom {ch : Channel n size} (h : ch.rings.transmit.Indexed) (g : Channel.Readings) :
    (Channel.transmitAfter g ch).Indexed ∧
      (Channel.transmitAfter g ch).inFlight ≤ ch.rings.transmit.inFlight := by
  unfold Channel.transmitAfter
  split
  · have drained := SlotRing.drained h (SlotRing.completedLe _ g.transmitAt)
    exact ⟨drained.indexed, by rw [drained.inFlight]; omega⟩
  · exact ⟨h, Nat.le_refl _⟩

include few

theorem openCall {k : Call c} (leaves : k.Leaves i) (h : b.Open i) : (k.ask b).state.Open i := by
  have low := Nat.lt_of_lt_of_le i.isLt few
  have split := callSplit few h.up k i
  have asked : (k.ask b).state = (k.perform b).state := by rw [← Call.askSilent]; rfl
  have up := split.initialized.trans h.up
  have channel := split.channel
  rw [asked]
  rcases leavesShare leaves with service | aside
  · obtain ⟨g, -, served⟩ := Channel.serviced low (b.channel i) b.registers
    rw [service] at channel
    obtain ⟨indexed, fewer⟩ := servedRoom h.indexed g
    have ring : ((k.perform b).state.channel i).rings.transmit = _ :=
      (congrArg (·.rings.transmit) channel).trans served.transmit
    have on : ((k.perform b).state.channel i).transmitting = _ :=
      (congrArg (·.transmitting) channel).trans served.transmitting
    exact openAfter h up on (ring ▸ indexed) (ring ▸ fewer)
  · have kept := asideKeeps low aside b.thresholds (b.channel i) b.registers
    have ring : ((k.perform b).state.channel i).rings.transmit = (b.channel i).rings.transmit :=
      (congrArg (·.rings.transmit) channel).trans kept.ring
    have on : ((k.perform b).state.channel i).transmitting = (b.channel i).transmitting :=
      (congrArg (·.transmitting) channel).trans kept.enabled
    exact openAfter h up on (ring ▸ h.indexed) (by rw [ring])

theorem openAsk {m : Meanwhile c} (leaves : m.Leaves i) (h : b.Open i) :
    (m.ask b).state.Open i := by
  cases m with
  | call k => exact openCall few leaves h
  | look j d => exact h
  | transmit j =>
    change (b.move (.transmit j)).Open i
    simp only [Board.move]
    split
    · exact ⟨h.up, h.on, h.indexed, h.free⟩
    · exact h
  | receive j frame length status =>
    have up := (moveWiring few h.up i (.receive j frame length status)).2
    exact openStill h up (receiveStill few (by simp))
  | registers change => exact ⟨h.up, h.on, h.indexed, h.free⟩

theorem openMeanwhile {between : List (Meanwhile c)} (leaves : ∀ m ∈ between, m.Leaves i)
    (h : b.Open i) : (Board.meanwhile between b).state.Open i := by
  induction between generalizing b with
  | nil => exact h
  | cons m rest ih =>
    obtain ⟨first, later⟩ := List.forall_mem_cons.mp leaves
    exact ih later (openAsk few first h)

end Open

theorem fittingAccepted (b : Board c n size) (i : Nat) {length : Nat} (some : 0 < length)
    (fits : length ≤ size) :
    SendError.verdict b i length = .ok () ↔ (b.nextBuffer? i).isSome = true := by
  have filled : length ≠ 0 := by omega
  have short : ¬ size < length := by omega
  by_cases low : i < c
  · have inside : ¬ c ≤ i := by omega
    cases on : b.channels[i].transmitting <;>
      by_cases full : b.channels[i].rings.transmit.free = 0 <;>
      simp [SendError.verdict, SendError.first?, SendError.order, SendError.applies,
        Board.nextBuffer?, SlotRing.nextBuffer?, Channel.free, Duplex.ring, filled, short, low,
        inside, on, full]
  · have outside : c ≤ i := by omega
    simp [SendError.verdict, SendError.first?, SendError.order, SendError.applies,
      Board.nextBuffer?, low, outside]

theorem bufferInside {b : Board c n size} {i : Nat} {buffer : Buffer size}
    (found : b.nextBuffer? i = some buffer) : i < c := by
  by_contra high
  simp [Board.nextBuffer?, high] at found

section Open

variable {i : Fin c} {b : Board c n size} {data : Bytes}

theorem openBuffer (h : b.Open i) : b.nextBuffer? i =
    some ((b.channel i).rings.transmit.slot (b.channel i).rings.transmit.next).buffer := by
  simp only [Board.nextBuffer?, Vector.getElem?_eq_getElem i.isLt, SlotRing.nextBuffer?]
  rw [if_pos h.on, if_neg h.free]

theorem bufferOpen (up : b.initialized = true) (indexed : (b.channel i).rings.transmit.Indexed)
    {buffer : Buffer size} (found : b.nextBuffer? i = some buffer) : b.Open i := by
  simp only [Board.nextBuffer?, Vector.getElem?_eq_getElem i.isLt, SlotRing.nextBuffer?] at found
  split at found
  · rename_i on
    split at found
    · contradiction
    · rename_i free
      exact ⟨up, on, indexed, free⟩
  · contradiction

theorem openPrepared (h : b.Open i) (data : Bytes) :
    Board.prepare i data b = ⟨some (min data.length size), b.draft i data, []⟩ := by
  have on : b.channels[i.val].transmitting = true := h.on
  have drafted : b.channels[i.val].prepare data =
      (some (min data.length size), b.channels[i.val].draft data) := by
    simp only [Channel.prepare, SlotRing.prepareFree h.free data]
    rfl
  simp only [Board.prepare, i.isLt, ↓reduceDIte, on, ↓reduceIte, Board.onChannel, drafted]
  rfl

theorem draftBuffer (h : b.Open i) (data : Bytes) :
    (b.draft i data).nextBuffer? i = (b.nextBuffer? i).map (·.overwrite data) := by
  have channel : (b.draft i data).channel i = (b.channel i).draft data := by
    simp [Board.draft, Board.channel]
  have still : (b.draft i data).Open i := by
    refine ⟨h.up, ?_, ?_, ?_⟩ <;> rw [channel]
    · exact h.on
    · exact SlotRing.indexedModify h.indexed _ _
    · exact h.free
  have slot : ((b.channel i).rings.transmit.draft data).slot (b.channel i).rings.transmit.next =
      ((b.channel i).rings.transmit.slot (b.channel i).rings.transmit.next).draft data := by
    rw [SlotRing.draft, SlotRing.slotModify h.indexed.filled, if_pos rfl]
  rw [openBuffer h, openBuffer still, channel, Option.map_some]
  exact congrArg (some ·.buffer) slot

theorem draftSent (h : b.Open i) (filled : 0 < data.length) (fits : data.length ≤ size)
    (tag : UInt64) :
    Board.sendPrepared i data.length tag (b.draft i data) = Board.send i data tag b := by
  have on : b.channels[i.val].transmitting = true := h.on
  have on' : (b.channels[i.val].draft data).transmitting = true := h.on
  have queued : ∃ taken,
      b.channels[i.val].rings.transmit.enqueue (some data) data.length tag = .ok taken :=
    ⟨_, by rw [SlotRing.enqueue, if_neg (by omega), if_neg h.free]⟩
  obtain ⟨taken, queued⟩ := queued
  have queued' : (b.channels[i.val].draft data).rings.transmit.enqueue none data.length tag =
      .ok taken := (SlotRing.enqueueDraft data tag _).trans queued
  have sent : (b.channels[i.val].draft data).send i none data.length tag =
      b.channels[i.val].send i (some data) data.length tag := by
    rw [sendAccepted _ queued, sendAccepted _ queued']
    rfl
  have whole : data.length ≠ 0 := by omega
  simp only [Board.send, Board.sendPrepared, Board.sendFrame, Board.sendable, Board.draft,
    Board.channel, i.isLt, ↓reduceDIte, Vector.getElem_set_self, on, on', ↓reduceIte,
    Board.onChannel, whole, sent, Vector.set_set]

end Open

/-- On every board that is up: there is a next buffer exactly if a frame would be taken, and writing
the frame there, whatever happens then, and queueing it comes to the same as sending it at the end:
the same answers, actions, registers and memory. -/
theorem preparedAsCopied {c n size : Nat} (registers : Registers)
    (strikes : List (Strike c n size)) (i : Nat) (data : Bytes) (tag : UInt64)
    (filled : 0 < data.length) (fits : data.length ≤ size) :
    let now := run Board.suffer ({ registers := registers } : Board c n size) strikes
    now.initialized = true →
    ((now.nextBuffer? i).isSome = true ↔ (Board.send i data tag now).answer = .ok ()) ∧
    ∀ buffer, now.nextBuffer? i = some buffer →
      (Board.prepare i data now).answer = some data.length ∧
      (Board.prepare i data now).seen = [] ∧
      (Board.prepare i data now).state.nextBuffer? i = some (buffer.overwrite data) ∧
      ∀ between : List (Meanwhile c), (∀ m ∈ between, m.Leaves i) →
        Board.inPlace i data tag between now = Board.copying i data tag between now ∧
        (Board.inPlace i data tag between now).answer.2 = .ok () := by
  intro now up
  have sound := sufferUp registers strikes up
  have accepted (b : Board c n size) :
      (b.nextBuffer? i).isSome = true ↔ (Board.send i data tag b).answer = .ok () := by
    rw [Board.send, frameAnswer]
    exact (fittingAccepted b i filled fits).symm
  refine ⟨accepted now, fun buffer found => ?_⟩
  obtain ⟨i, rfl⟩ : ∃ j : Fin c, j.val = i := ⟨⟨i, bufferInside found⟩, rfl⟩
  have opened := bufferOpen up (sound.channels i).tagged.indexed found
  have prepared := openPrepared opened data
  rw [Nat.min_eq_left fits] at prepared
  have stored := draftBuffer opened data
  rw [found] at stored
  rw [prepared]
  refine ⟨rfl, rfl, stored, fun between leaves => ?_⟩
  have passed := (meanwhileDraft leaves data).same up
  have opened' := openMeanwhile sound.few leaves opened
  have same : Board.inPlace i data tag between now = Board.copying i data tag between now := by
    simp only [Board.inPlace, Board.copying, bindApply, prepared, passed,
      draftSent opened' filled fits]
    rfl
  refine ⟨same, ?_⟩
  rw [same]
  exact (accepted _).mp (by rw [openBuffer opened']; rfl)

theorem preparedBehindTwo :
    let strikes : List (Strike 2 4 4) := [.call (.init {} (Placement.regular 0 64 4)),
      .call (.enable 0 .transmit true), .call (.enable 1 .transmit true),
      .call (.send 0 [1, 2] 7), .call (.send 0 [3] 8)]
    let between : List (Meanwhile 2) := [.transmit 0, .call (.send 1 [9, 9] 1), .transmit 0,
      .call (.setMode 0 .e1), .registers (Controller.interrupt 0 2), .call .handleInterrupt,
      .call .tick, .look 0 .transmit]
    let now := run Board.suffer ({ registers := .blank (Wiring.board 2) } : Board 2 4 4) strikes
    let sent := Board.inPlace 0 [4, 5, 6] 10 between now
    sent.answer.2 = .ok () ∧ events sent.seen = [.sent 0 7 2, .sent 0 8 1] ∧
      sent = Board.copying 0 [4, 5, 6] 10 between now := by
  intro strikes between now sent
  have up : now.initialized = true := by decide +kernel
  obtain ⟨buffer, found⟩ : ∃ buffer, now.nextBuffer? 0 = some buffer := ⟨.blank, by decide +kernel⟩
  obtain ⟨-, prepared⟩ := preparedAsCopied (.blank (Wiring.board 2)) strikes 0 [4, 5, 6] 10
    (by decide) (by decide) up
  obtain ⟨-, -, -, same⟩ := prepared buffer found
  obtain ⟨same, taken⟩ := same between (by simp [between, Meanwhile.Leaves, Call.Leaves])
  refine ⟨taken, ?_, same⟩
  decide +kernel

end SerialAdapter
