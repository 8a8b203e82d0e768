import SerialAdapter.Proofs.Channel.Halves

/-! A frame that is written into the next transmit buffer before it is queued. Until then it is a
draft: nothing but queueing looks at that buffer, so a service does the same with or without it.
Switching the transmitter on or off also leaves the buffers alone but chooses another one to be the
next; nothing is said about that here. -/
namespace SerialAdapter

open Operation Registers

def Slot.draft {size : Nat} (data : Bytes) (s : Slot size) : Slot size :=
  { s with buffer := s.buffer.overwrite data }

namespace SlotRing

variable {n size : Nat} {r : SlotRing n size} {data : Bytes}

def draft (data : Bytes) (r : SlotRing n size) : SlotRing n size :=
  r.modifySlot r.next (Slot.draft data)

theorem prepareFree (free : r.free ≠ 0) (data : Bytes) :
    r.prepare data = (some (min data.length size), r.draft data) := if_neg free

theorem modifyComm (r : SlotRing n size) (i j : Nat) {f g : Slot size → Slot size}
    (apart : ∀ s, f (g s) = g (f s)) :
    (r.modifySlot j g).modifySlot i f = (r.modifySlot i f).modifySlot j g := by
  simp only [modifySlot, mk.injEq, and_true]
  ext k hk
  simp only [Vector.getElem_mk, Array.getElem_modify]
  split <;> split <;> simp [apart]

theorem modifyTwice (r : SlotRing n size) (i : Nat) (f g : Slot size → Slot size) :
    (r.modifySlot i g).modifySlot i f = r.modifySlot i fun s => f (g s) := by
  simp only [modifySlot, mk.injEq, and_true]
  ext k hk
  simp only [Vector.getElem_mk, Array.getElem_modify]
  split <;> rfl

theorem draftSlot (data : Bytes) (r : SlotRing n size) (i : Nat) :
    ((r.draft data).slot i).descriptor = (r.slot i).descriptor ∧
      ((r.draft data).slot i).tag = (r.slot i).tag := by
  simp only [slot, draft, modifySlot, Vector.getElem_mk, Array.getElem_modify]
  split
  · split <;> exact ⟨rfl, rfl⟩
  · exact ⟨rfl, rfl⟩

theorem reclaimDraft (data : Bytes) (r : SlotRing n size) :
    (r.draft data).reclaim = (r.reclaim.1, r.reclaim.2.draft data) := by
  obtain ⟨descriptor, tag⟩ := draftSlot data r r.oldest
  have moved : (r.draft data).modifySlot r.oldest Slot.release =
      (r.modifySlot r.oldest Slot.release).draft data := modifyComm r _ _ fun _ => rfl
  have report : (r.draft data).reclaim.1 = r.reclaim.1 := by
    change Transmission.mk ((r.draft data).slot r.oldest).tag _ = _
    rw [tag]
    change Transmission.mk _ ((r.draft data).slot r.oldest).descriptor.length.toNat = _
    rw [descriptor]
    rfl
  exact Prod.ext report (congrArg advance moved)

theorem drainDraft (data : Bytes) (count : Nat) (r : SlotRing n size) :
    drain count (r.draft data) = ((drain count r).1, (drain count r).2.draft data) := by
  induction count generalizing r with
  | zero => rfl
  | succ count ih => rw [drainSucc, reclaimDraft, ih, drainSucc]

theorem loadDraft (data : Bytes) (tag : UInt64) (s : Slot size) :
    (s.draft data).load none data.length tag = s.load (some data) data.length tag := by
  simp only [Slot.load, Slot.draft, List.take_length]

theorem enqueueDraft (data : Bytes) (tag : UInt64) (r : SlotRing n size) :
    (r.draft data).enqueue none data.length tag = r.enqueue (some data) data.length tag := by
  have loaded : (r.draft data).modifySlot r.next (·.load none data.length tag) =
      r.modifySlot r.next (·.load (some data) data.length tag) := by
    rw [draft, modifyTwice]
    exact congrArg (r.modifySlot r.next) (funext (loadDraft data tag))
  have count : (r.draft data).free = r.free := rfl
  have place : (r.draft data).next = r.next := rfl
  simp only [enqueue, count, place, loaded]

end SlotRing

namespace Operation

variable {σ α β γ δ : Type}

theorem bindRecast (op : Operation σ α) (f : α → γ) (next : α → Operation σ β)
    (next' : γ → Operation σ δ) {g : β → δ} (rest : ∀ a, next' (f a) = (next a).recast g) :
    op.recast f >>= next' = (op >>= next).recast g := by
  funext s
  simp only [bindApply, recastApply, rest]

theorem bindSame (op : Operation σ α) {next : α → Operation σ β} {next' : α → Operation σ δ}
    {g : β → δ} (rest : ∀ a, next' a = (next a).recast g) :
    op >>= next' = (op >>= next).recast g := bindRecast op id next next' rest

end Operation

variable {n size i : Nat} {data : Bytes}

namespace Duplex

def draft (data : Bytes) (x : Duplex n size) : Duplex n size :=
  { x with transmit := x.transmit.draft data }

theorem startDraft (x : Duplex n size) :
    startReceive i (x.draft data) = (startReceive i x).recast (draft data) :=
  bindSame _ fun _ => bindSame _ fun _ => bindSame _ fun _ => bindSame _ fun _ =>
    bindSame _ fun _ => bindSame _ fun _ => bindSame _ fun _ => rfl

theorem stopDraft (x : Duplex n size) :
    stop i .receive (x.draft data) = (stop i .receive x).recast (draft data) :=
  bindSame _ fun _ => bindSame _ fun _ => bindSame _ fun _ => rfl

theorem receiveDraft (x : Duplex n size) (t : Traffic) :
    serviceReceive i (x.draft data) t =
      (serviceReceive i x t).recast (Prod.map (draft data) id) := by
  simp only [serviceReceiveEq]
  refine bindSame _ fun s => bindSame _ fun _ => ?_
  unfold answerReceive
  split
  · unfold restartReceive
    rw [startDraft]
    exact bindSame _ fun _ => bindRecast _ _ _ _ fun _ => rfl
  · refine bindSame _ fun a => bindSame _ fun _ => ?_
    rw [recastIf]
    rfl

theorem transmitDraft (x : Duplex n size) (t : Traffic) :
    serviceTransmit i (x.draft data) t =
      (serviceTransmit i x t).recast (Prod.map (draft data) id) := by
  simp only [serviceTransmitEq]
  refine bindSame _ fun s => bindSame _ fun _ => bindSame _ fun _ => bindSame _ fun a => ?_
  have drained : SlotRing.drain ((x.draft data).transmit.completed a) (x.draft data).transmit = _ :=
    SlotRing.drainDraft data (x.transmit.completed a) x.transmit
  simp only [reportTransmit, drained]
  rfl

end Duplex

namespace Channel

def draft (data : Bytes) (ch : Channel n size) : Channel n size :=
  { ch with rings := ch.rings.draft data }

def Passes {α : Type} (data : Bytes) (work : Channel.Work n size α) : Prop :=
  ∀ ch, work (ch.draft data) = (work ch).recast (Prod.map id (draft data))

theorem receivePartDraft (asked : Bool) (ch : Channel n size) :
    receivePart i asked (ch.draft data) = (receivePart i asked ch).recast (draft data) := by
  have whole : serviceReceive i (ch.draft data) = (serviceReceive i ch).recast (draft data) := by
    unfold serviceReceive
    change Duplex.serviceReceive i (ch.rings.draft data) ch.traffic >>= _ = _
    rw [Duplex.receiveDraft]
    exact bindRecast _ _ _ _ fun _ => rfl
  unfold receivePart
  rw [whole, recastIf]
  rfl

theorem transmitPartDraft (asked : Bool) (ch : Channel n size) :
    transmitPart i asked (ch.draft data) = (transmitPart i asked ch).recast (draft data) := by
  have whole : serviceTransmit i (ch.draft data) = (serviceTransmit i ch).recast (draft data) := by
    unfold serviceTransmit
    change Duplex.serviceTransmit i (ch.rings.draft data) ch.traffic >>= _ = _
    rw [Duplex.transmitDraft]
    exact bindRecast _ _ _ _ fun _ => rfl
  unfold transmitPart
  rw [whole, recastIf]
  rfl

theorem serviceDraft (ch : Channel n size) :
    (ch.draft data).service i = (ch.service i).recast (draft data) := by
  simp only [serviceEq]
  refine bindSame _ fun byte => ?_
  rw [recastIf]
  split
  · refine bindSame _ fun _ => ?_
    unfold answerInterrupts
    rw [receivePartDraft]
    refine bindRecast _ _ _ _ fun one => ?_
    rw [transmitPartDraft]
    exact bindRecast _ _ _ _ fun _ => rfl
  · rfl

theorem enableDraft (on : Bool) (ch : Channel n size) :
    (ch.draft data).enable i .receive on = (ch.enable i .receive on).recast (draft data) := by
  cases on with
  | true =>
    change Duplex.startReceive i (ch.rings.draft data) >>= _ = _
    rw [Duplex.startDraft]
    exact bindRecast _ _ _ _ fun _ => bindSame _ fun _ => rfl
  | false =>
    change Duplex.stop i .receive (ch.rings.draft data) >>= _ = _
    rw [Duplex.stopDraft]
    exact bindRecast _ _ _ _ fun _ => bindSame _ fun _ => rfl

theorem programModeDraft (t : Thresholds) (ch : Channel n size) :
    programMode i t (ch.draft data) = (programMode i t ch).recast (draft data) := by
  refine bindSame _ fun _ => ?_
  change pure (if ch.setup.mode.isLine then _ else _) = recast _ (pure (if _ then _ else _))
  split <;> rfl

theorem servicePasses {α : Type} (a : α) :
    Passes data fun ch : Channel n size => (ch.service i).recast (a, ·) := by
  intro ch
  simp only [serviceDraft]
  rfl

theorem tickPasses {α : Type} (f : Option Telemetry.Verdict → α) (t : Thresholds) :
    Passes data fun ch : Channel n size => (ch.tick i t).recast fun done => (f done.1, done.2) := by
  intro ch
  have ticked : (ch.draft data).tick i t = (ch.tick i t).recast (Prod.map id (draft data)) := by
    unfold tick
    change (if ch.setup.mode.isLine then _ else _) = _
    rw [recastIf]
    split
    · exact bindSame _ fun s => bindSame _ fun _ => rfl
    · rfl
  simp only [ticked]
  rfl

end Channel

end SerialAdapter
