import SerialAdapter.Proofs.Board.Stimulus
import SerialAdapter.Proofs.Channel.Draft

/-! A draft on a board: a frame that lies in the next transmit buffer of a channel and is not queued
yet. What does not send or write on the channel and does not switch its transmitter passes the draft
by; of the hardware's steps, all do. The rules for putting operations together come first, then the
calls, then runs of calls and steps. -/
namespace SerialAdapter

open Operation Registers

variable {c n size : Nat}

namespace Board

def draft (i : Fin c) (data : Bytes) (b : Board c n size) : Board c n size :=
  { b with channels := b.channels.set i ((b.channel i).draft data) i.isLt }

structure Passes {α : Type} (i : Fin c) (data : Bytes) (op : Operation (Board c n size) α) :
    Prop where
  same : ∀ {b}, b.initialized = true →
    op (b.draft i data) = ⟨(op b).answer, (op b).state.draft i data, (op b).seen⟩
  up : ∀ {b}, b.initialized = true → (op b).state.initialized = true

end Board

section Rules

variable {α β : Type} {i : Fin c} {data : Bytes}

theorem passesPure (a : α) : Board.Passes i data (pure a : Operation (Board c n size) α) :=
  ⟨fun _ => rfl, id⟩

theorem passesBind {op : Operation (Board c n size) α} {next : α → Operation (Board c n size) β}
    (first : Board.Passes i data op) (second : ∀ a, Board.Passes i data (next a)) :
    Board.Passes i data (op >>= next) where
  same {b} up := by
    rw [bindApply, first.same up, (second _).same (first.up up)]
    rfl
  up up := (second _).up (first.up up)

theorem passesForM {ι : Type} {step : ι → Operation (Board c n size) Unit}
    (each : ∀ x, Board.Passes i data (step x)) (l : List ι) :
    Board.Passes i data (List.forM l step) := by
  induction l with
  | nil => exact passesPure ()
  | cons x l ih => exact passesBind (each x) fun _ => ih

theorem passesRecast {op : Operation (Board c n size) α} (f : α → β)
    (passes : Board.Passes i data op) : Board.Passes i data (op.recast f) where
  same up := by simp only [recastApply, passes.same up]
  up := passes.up

theorem passesOnRegisters (op : Operation Registers α) :
    Board.Passes i data (Board.onRegisters op : Operation (Board c n size) α) :=
  ⟨fun _ => rfl, id⟩

theorem passesOnChannel {j : Nat} (low : j < c) {work : Thresholds → Channel.Work n size α}
    (passes : ∀ t, j = i → Channel.Passes data (work t)) :
    Board.Passes i data fun b : Board c n size =>
      Board.onChannel j low (work b.thresholds) b where
  same {b} up := by
    by_cases own : j = i
    · subst own
      have whole := passes b.thresholds rfl b.channels[i.val]
      simp only [Board.onChannel, Board.draft, Board.channel, Vector.getElem_set_self, whole,
        recastApply, Prod.map, id_eq, Vector.set_set]
    · have other : (i : Nat) ≠ j := fun same => own same.symm
      simp only [Board.onChannel, Board.draft, Board.channel, Vector.getElem_set_ne _ _ other,
        Vector.getElem_set_ne _ _ own, Vector.set_comm _ _ own]
  up := id

theorem passesUp {op op' : Operation (Board c n size) α}
    (agree : ∀ {b}, b.initialized = true → op b = op' b) (passes : Board.Passes i data op') :
    Board.Passes i data op where
  same {b} up := by
    have drafted : op (b.draft i data) = op' (b.draft i data) := agree up
    rw [drafted, agree up, passes.same up]
  up {b} up := by
    rw [agree up]
    exact passes.up up

end Rules

namespace Call

def Leaves (i : Nat) : Call c → Prop
  | .send j .. | .sendPrepared j .. | .prepare j _ | .enable j .transmit _ => j ≠ i
  | _ => True

theorem withinDraft {i : Nat} {k : Call c} (named : k.channel? = some i) (leaves : k.Leaves i)
    (t : Thresholds) (data : Bytes) :
    Channel.Passes data (k.within i t : Channel.Work n size Reply) := by
  intro ch
  cases k with
  | enable j d on =>
    cases named
    cases d with
    | receive =>
      simp only [within, Channel.enableDraft]
      rfl
    | transmit => exact (leaves rfl).elim
  | setMode j mode =>
    have programmed : (ch.draft data).setMode i mode t = (ch.setMode i mode t).recast _ :=
      Channel.programModeDraft t { ch with setup := { ch.setup with mode := mode } }
    simp only [within, programmed]
    rfl
  | resyncLine j => rfl
  | clearStatistics scope =>
    cases scope <;> rfl
  | serviceChannel j => exact Channel.servicePasses _ ch
  | tickChannel j => exact Channel.tickPasses (Reply.second <| .ok ·) t ch
  | send j | sendPrepared j | prepare j => cases named; exact (leaves rfl).elim
  | init setup place | takePending | handleInterrupt | tick => contradiction

theorem namedDraft {i : Fin c} {j : Nat} {k : Call c} (named : k.channel? = some j)
    (leaves : k.Leaves i) (data : Bytes) :
    Board.Passes i data (k.ask : Operation (Board c n size) Reply) := by
  by_cases low : j < c
  · have within : Board.Passes i data fun b : Board c n size =>
        Board.onChannel j low (k.within j b.thresholds) b :=
      passesOnChannel low fun t own => withinDraft named (own.symm ▸ leaves) t data
    exact passesUp (fun up => askWithin low up named) within
  · exact passesUp (fun up => askAway (by omega) up named) (passesPure k.away)

theorem takePendingDraft {i : Fin c} (data : Bytes) :
    Board.Passes i data (Board.takePending : Operation (Board c n size) UInt8) :=
  passesUp (fun up => if_pos up) (passesOnRegisters _)

theorem servicePendingDraft {i : Fin c} (data : Bytes) (j : Fin c) :
    Board.Passes i data (Board.servicePending j : Operation (Board c n size) Unit) := by
  have served : Board.Passes i data fun b : Board c n size =>
      Board.onChannel j j.isLt (fun ch => (ch.service j).recast ((), ·)) b :=
    passesOnChannel j.isLt fun _ _ => Channel.servicePasses ()
  refine passesUp (fun _ => ?_) served
  simp [Board.servicePending, Board.onChannel]

theorem tickEachDraft {i : Fin c} (data : Bytes) (j : Fin c) :
    Board.Passes i data (Board.tickEach j : Operation (Board c n size) Unit) := by
  have ticked : Board.Passes i data fun b : Board c n size => Board.onChannel j j.isLt
      (fun ch => (ch.tick j b.thresholds).recast fun done => ((), done.2)) b :=
    passesOnChannel j.isLt fun t _ => Channel.tickPasses (fun _ => ()) t
  exact passesUp (fun _ => rfl) ticked

theorem clearBoardDraft {i : Fin c} (data : Bytes) :
    Board.Passes i data
      (Board.clearBoard : Operation (Board c n size) (Except ConfigError Unit)) where
  same {b} up := by
    simp only [Board.clearBoard, up, ↓reduceIte, Board.draft, Board.channel, Vector.map_set,
      Vector.getElem_map]
    rfl
  up {b} up := by
    simp only [Board.clearBoard, up, ↓reduceIte]

theorem askDraft {i : Fin c} {k : Call c} (leaves : k.Leaves i) (data : Bytes) :
    Board.Passes i data (k.ask : Operation (Board c n size) Reply) := by
  cases k with
  | init setup place =>
    refine passesUp (fun {b} up => ?_) (passesPure (.config (.error .alreadyInitialized)))
    simp [ask, Board.init, Board.initError?, up, Board.refuse]
  | takePending => exact passesRecast _ (takePendingDraft data)
  | handleInterrupt =>
    have handled : Board.Passes i data
        (Board.handleInterrupt : Operation (Board c n size) Unit) :=
      passesBind (takePendingDraft data) fun pending => passesForM (servicePendingDraft data) _
    exact passesRecast (fun _ => Reply.none) handled
  | tick =>
    have ticked : Board.Passes i data
        (List.forM (List.finRange c) Board.tickEach : Operation (Board c n size) Unit) :=
      passesForM (tickEachDraft data) _
    exact passesRecast (fun _ => Reply.none) (passesUp (fun up => if_pos up) ticked)
  | clearStatistics scope =>
    cases scope with
    | channel j | line j => exact namedDraft rfl leaves data
    | board => exact passesRecast _ (clearBoardDraft data)
  | _ => exact namedDraft rfl leaves data

end Call

inductive Meanwhile (c : Nat) where
  | call (call : Call c)
  | look (channel : Nat) (direction : Direction)
  | transmit (channel : Fin c)
  | receive (channel : Fin c) (frame : Bytes) (length : UInt16) (status : UInt8)
  | registers (change : Registers → Registers)

namespace Meanwhile

def ask : Meanwhile c → Operation (Board c n size) Reply
  | .call k => k.ask
  | .look i d => fun b => ⟨.free (b.freeSlots i d), b, []⟩
  | .transmit i => (unseen (Board.move (.transmit i))).recast fun _ => .none
  | .receive i frame length status =>
    (unseen (Board.move (.receive i frame length status))).recast fun _ => .none
  | .registers change => (Board.onRegisters (unseen change)).recast fun _ => .none

def Leaves (i : Nat) : Meanwhile c → Prop
  | .call k => k.Leaves i
  | _ => True

end Meanwhile

def Controller.within (i : Nat) (d : Direction) (can : Control → Bool)
    (work : Nat → SlotRing n size → SlotRing n size) : Channel.Work n size Unit := fun ch r =>
  let control := Control.of i d r
  match if can control then (ch.rings.ring d).slotAt? control.current else none with
  | some k =>
    let ring := work k (ch.rings.ring d)
    ⟨((), { ch with rings := ch.rings.withRing d ring }),
      (Dma.setCurrent i d (ring.slot k).descriptor.chain r).state, []⟩
  | none => ⟨((), ch), r, []⟩

theorem withRingSet (b : Board c n size) (i : Fin c) (d : Direction) (ring : SlotRing n size) :
    Controller.withRing b i d ring =
      let changed := { b.channel i with rings := (b.channel i).rings.withRing d ring }
      { b with channels := b.channels.set i changed i.isLt } := by
  simp only [Controller.withRing, Board.mk.injEq, true_and, and_true]
  ext j hj : 1
  simp only [Vector.getElem_mk, Array.getElem_modify, Vector.getElem_set]
  split
  · rename_i own
    subst own
    rfl
  · rfl

theorem stepWithin (i : Fin c) (d : Direction) (can : Control → Bool)
    (work : Nat → SlotRing n size → SlotRing n size) :
    unseen (Controller.step i d can work) =
      Board.onChannel i i.isLt (Controller.within i d can work) := by
  funext b
  simp only [unseen, Controller.step, Board.onChannel, Controller.within]
  split
  · rename_i taken
    simp only [taken, withRingSet]
  · rename_i taken
    simp [taken]

theorem withinPasses (i : Nat) (d : Direction) (can : Control → Bool)
    {work : Nat → SlotRing n size → SlotRing n size}
    (passes : d = .transmit → ∀ k ring, work k ring = ring) (data : Bytes) :
    Channel.Passes data (Controller.within i d can work) := by
  intro ch
  funext r
  cases d with
  | receive =>
    have same : (ch.draft data).rings.ring .receive = ch.rings.ring .receive := rfl
    simp only [recastApply, Controller.within, same]
    split <;> rfl
  | transmit =>
    have chain (k : Nat) : (((ch.draft data).rings.ring .transmit).slot k).descriptor =
        ((ch.rings.ring .transmit).slot k).descriptor :=
      (SlotRing.draftSlot data ch.rings.transmit k).1
    have stands (a : UInt32) : ((ch.draft data).rings.ring .transmit).slotAt? a =
        (ch.rings.ring .transmit).slotAt? a := rfl
    simp only [recastApply, Controller.within, passes rfl, chain, stands]
    split <;> rfl

theorem stepDraft {i : Fin c} {data : Bytes} (j : Fin c) (d : Direction) (can : Control → Bool)
    {work : Nat → SlotRing n size → SlotRing n size}
    (passes : d = .transmit → ∀ k ring, work k ring = ring) :
    Board.Passes i data (unseen (Controller.step j d can work)) := by
  rw [stepWithin]
  exact passesOnChannel j.isLt fun _ _ => withinPasses j d can passes data

namespace Meanwhile

theorem lookDraft {i : Fin c} {data : Bytes} (j : Nat) (d : Direction) :
    Board.Passes i data (ask (.look j d) : Operation (Board c n size) Reply) where
  same {b} _ := by
    have count (ch : Channel n size) : (ch.draft data).free d = ch.free d := by cases d <;> rfl
    have free : (b.draft i data).freeSlots j d = b.freeSlots j d := by
      simp only [Board.freeSlots, Board.draft, Vector.getElem?_set]
      by_cases own : i.val = j
      · subst own
        simp only [↓reduceIte, Vector.getElem?_eq_getElem i.isLt, count]
      · rw [if_neg own]
    simp only [ask, free]
  up := id

theorem askDraft {i : Fin c} {m : Meanwhile c} (leaves : m.Leaves i) (data : Bytes) :
    Board.Passes i data (m.ask : Operation (Board c n size) Reply) := by
  cases m with
  | call k => exact Call.askDraft leaves data
  | look j d => exact lookDraft j d
  | transmit j =>
    simp only [ask, transmitStep]
    exact passesRecast (fun _ => Reply.none) (stepDraft j .transmit _ fun _ _ _ => rfl)
  | receive j frame length status =>
    simp only [ask, receiveStep]
    exact passesRecast (fun _ => Reply.none) (stepDraft j .receive _ fun no => by contradiction)
  | registers change => exact passesRecast (fun _ => Reply.none) (passesOnRegisters _)

end Meanwhile

namespace Board

def meanwhile : List (Meanwhile c) → Operation (Board c n size) (List Reply)
  | [] => pure []
  | m :: rest => do
    let reply ← m.ask
    let replies ← meanwhile rest
    return reply :: replies

end Board

theorem meanwhileDraft {i : Fin c} {between : List (Meanwhile c)}
    (leaves : ∀ m ∈ between, m.Leaves i) (data : Bytes) :
    Board.Passes i data (Board.meanwhile between : Operation (Board c n size) (List Reply)) := by
  induction between with
  | nil => exact passesPure []
  | cons m rest ih =>
    obtain ⟨first, later⟩ := List.forall_mem_cons.mp leaves
    exact passesBind (m.askDraft first data) fun reply =>
      passesBind (ih later) fun replies => passesPure (reply :: replies)

end SerialAdapter
