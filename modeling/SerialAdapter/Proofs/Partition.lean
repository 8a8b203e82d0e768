import SerialAdapter.Batch
import SerialAdapter.Proofs.Batch
import SerialAdapter.Proofs.Run

/-! What a batch delivers of what it heard, whatever it heard and in whatever order: a part of it,
sorted by kind and otherwise in the order of the calls. A record and a buffer share one counter with
the errors; each frame is shown to keep its own bytes, also beside errors and when there is no more
room. Nothing is assumed here about who makes the calls. -/
namespace SerialAdapter

namespace Event

def reception? (size : Nat) : Event → Option ReceiveRecord
  | .received _ data => some (.frame (data.take size))
  | .failed _ .underrun => none
  | .failed _ error => some (.error error)
  | _ => none

def completion? : Event → Option (UInt64 × Nat)
  | .sent _ tag length => some (tag, length)
  | _ => none

def signals? : Event → Option ModemSignals
  | .modemChanged _ signals => some signals
  | _ => none

def isUnderrun : Event → Bool
  | .failed _ .underrun => true
  | _ => false

end Event

namespace Batch

variable {n size : Nat}

theorem pushTake {α : Type} (n : Nat) (l : List α) (a : α) :
    push n (l.take n) a = (l ++ [a]).take n := by
  unfold push
  by_cases room : l.length < n
  · have short : l.take n = l := List.take_of_length_le (by omega)
    rw [short, if_pos room, List.take_of_length_le (by simp; omega)]
  · have full : ¬ (l.take n).length < n := by
      rw [List.length_take]
      omega
    rw [if_neg full, List.take_append_of_le_length (by omega)]

def kept (n size : Nat) (channel : Nat) (heard : List Event) : Batch n size where
  channel := channel
  received := (heard.filterMap (·.reception? size)).take n
  underrun := heard.any (·.isUnderrun)
  sent := (heard.filterMap (·.completion?)).take n
  modem := (heard.filterMap (·.signals?)).getLast?

theorem recordKept (channel : Nat) (heard : List Event) (e : Event) :
    (kept n size channel heard).record e = kept n size channel (heard ++ [e]) := by
  cases e with
  | failed j error =>
    cases error <;>
      simp [kept, record, Event.reception?, Event.isUnderrun, Event.completion?, Event.signals?,
        pushTake]
  | _ =>
    simp [kept, record, Event.reception?, Event.isUnderrun, Event.completion?, Event.signals?,
      pushTake]

theorem recordedKept (channel : Nat) (heard : List Event) :
    recordAll { channel := channel } heard = kept n size channel heard := by
  induction heard using List.reverseRecOn with
  | nil => simp [recordAll, kept]
  | append_singleton heard e ih =>
    have before : heard.foldl record { channel := channel } = kept n size channel heard := ih
    rw [recordAll, List.foldl_append, before]
    exact recordKept channel heard e

end Batch

def StoredRecord.read {size : Nat} : StoredRecord × Buffer size → ReceiveRecord
  | (.frame length, payload) => .frame (payload.toList.take length)
  | (.error cause, _) => .error cause

namespace BatchStore

variable {n size : Nat}

def contents (s : BatchStore n size) : Batch n size where
  channel := s.channel
  received := s.receiveInUse.map StoredRecord.read
  underrun := s.underrun
  sent := s.sentInUse
  modem := s.modem

structure Held (s : BatchStore n size) : Prop where
  receives : s.receiveCount ≤ n
  sends : s.sentCount ≤ n
  fits : ∀ length, .frame length ∈ s.records.toList → length ≤ size

theorem takeSet {α : Type} {k : Nat} (xs : Vector α n) (h : k < n) (a : α) :
    (xs.set k a).toList.take (k + 1) = xs.toList.take k ++ [a] := by
  rw [Vector.toList_set, List.take_add_one, List.take_set_of_le (Nat.le_refl k)]
  simp [h]

theorem receiveLength {s : BatchStore n size} (h : s.Held) :
    s.receiveInUse.length = s.receiveCount := by
  have := h.receives
  simp [receiveInUse]
  omega

theorem sentLength {s : BatchStore n size} (h : s.Held) : s.sentInUse.length = s.sentCount := by
  have := h.sends
  simp [sentInUse]
  omega

def grown (r : StoredRecord) (payload : Buffer size) (s : BatchStore n size)
    (room : s.receiveCount < n) : BatchStore n size :=
  { s with
    records := s.records.set s.receiveCount r
    payloads := s.payloads.set s.receiveCount payload
    receiveCount := s.receiveCount + 1 }

theorem grownInUse {s : BatchStore n size} (room : s.receiveCount < n) (r : StoredRecord)
    (payload : Buffer size) :
    (s.grown r payload room).receiveInUse = s.receiveInUse ++ [(r, payload)] := by
  simp only [receiveInUse, grown, takeSet]
  rw [List.zip_append (by simp)]
  rfl

theorem grownHeld {s : BatchStore n size} (h : s.Held) (room : s.receiveCount < n)
    {r : StoredRecord} (fits : ∀ length, r = .frame length → length ≤ size)
    (payload : Buffer size) : (s.grown r payload room).Held where
  receives := room
  sends := h.sends
  fits length shown := by
    have stored : .frame length ∈ s.records.toList.set s.receiveCount r := by
      simpa only [grown, Vector.toList_set] using shown
    rcases List.mem_or_eq_of_mem_set stored with old | new
    · exact h.fits length old
    · exact fits length new.symm

theorem grownContents {s : BatchStore n size} (h : s.Held) (room : s.receiveCount < n)
    (r : StoredRecord) (payload : Buffer size) :
    (s.grown r payload room).contents = { s.contents with
      received := Batch.push n s.contents.received (StoredRecord.read (r, payload)) } := by
  have left : s.contents.received.length < n := by
    simpa only [contents, List.length_map, receiveLength h] using room
  rw [Batch.push, if_pos left]
  simp only [contents, grownInUse, List.map_append]
  rfl

theorem fullContents {s : BatchStore n size} (h : s.Held) (full : ¬ s.receiveCount < n)
    (r : ReceiveRecord) :
    s.contents = { s.contents with received := Batch.push n s.contents.received r } := by
  have none : ¬ s.contents.received.length < n := by
    simpa only [contents, List.length_map, receiveLength h] using full
  rw [Batch.push, if_neg none]

theorem frameRead (payload : Buffer size) (data : Bytes) :
    StoredRecord.read (.frame (min data.length size),
      payload.overwrite (data.take (min data.length size))) = .frame (data.take size) := by
  have short : (data.take (min data.length size)).length = min data.length size := by
    rw [List.length_take]
    omega
  simp only [StoredRecord.read, Buffer.toListOverwrite, List.take_take]
  rw [Nat.min_eq_left (Nat.min_le_right _ _),
    List.take_append_of_le_length (Nat.le_of_eq short.symm), List.take_take, Nat.min_self,
    Nat.min_comm, ← List.take_eq_take_min]

theorem recordFrame {s : BatchStore n size} (channel : Nat) (data : Bytes) :
    s.record (.received channel data) =
      if room : s.receiveCount < n then
        s.grown (.frame (min data.length size))
          (s.payloads[s.receiveCount].overwrite (data.take (min data.length size))) room
      else s := by
  by_cases room : s.receiveCount < n
  · simp only [record, pushReceive, room, copyPayload, grown, ↓reduceDIte]
    rfl
  · simp only [record, pushReceive, room, ↓reduceDIte]

theorem pushError {s : BatchStore n size} (r : StoredRecord) :
    (s.pushReceive r).2 =
      if room : s.receiveCount < n then s.grown r s.payloads[s.receiveCount] room else s := by
  by_cases room : s.receiveCount < n <;>
    simp [pushReceive, room, grown]

theorem errorHeld {s : BatchStore n size} (h : s.Held) (cause : ChannelError) :
    (s.pushReceive (.error cause)).2.Held := by
  rw [pushError]
  split
  · exact grownHeld h _ (fun length same => by contradiction) _
  · exact h

theorem errorContents {s : BatchStore n size} (h : s.Held) (cause : ChannelError) :
    (s.pushReceive (.error cause)).2.contents =
      { s.contents with received := Batch.push n s.contents.received (.error cause) } := by
  rw [pushError]
  split
  · exact grownContents h _ _ _
  · rename_i full
    exact fullContents h full _

theorem recordHeld {s : BatchStore n size} (h : s.Held) (e : Event) : (s.record e).Held := by
  cases e with
  | received j data =>
    rw [recordFrame]
    split
    · refine grownHeld h _ (fun length same => ?_) _
      cases same
      exact Nat.min_le_right _ _
    · exact h
  | sent j tag length =>
    simp only [record]
    split
    · rename_i room
      exact ⟨h.receives, room, h.fits⟩
    · exact h
  | failed j cause =>
    cases cause with
    | underrun => exact ⟨h.receives, h.sends, h.fits⟩
    | _ => exact errorHeld h _
  | modemChanged j signals => exact ⟨h.receives, h.sends, h.fits⟩

theorem recordContents {s : BatchStore n size} (h : s.Held) (e : Event) :
    (s.record e).contents = s.contents.record e := by
  cases e with
  | received j data =>
    rw [recordFrame, Batch.record]
    split
    · rename_i room
      rw [grownContents h room, frameRead]
    · rename_i full
      exact fullContents h full _
  | sent j tag length =>
    have count : s.contents.sent.length = s.sentCount := sentLength h
    simp only [record, Batch.record, Batch.push, count]
    split
    · simp only [contents, sentInUse, takeSet]
      rfl
    · rfl
  | failed j cause =>
    cases cause with
    | underrun => rfl
    | _ => exact errorContents h _
  | modemChanged j signals => rfl

theorem newHeld (channel : Nat) : ({ channel := channel } : BatchStore n size).Held where
  receives := Nat.zero_le n
  sends := Nat.zero_le n
  fits length shown := by
    have blank : StoredRecord.frame length ∈ List.replicate n (.frame 0) := by simpa using shown
    cases List.eq_of_mem_replicate blank
    exact Nat.zero_le size

theorem newContents (channel : Nat) :
    ({ channel := channel } : BatchStore n size).contents = { channel := channel } := by
  simp [contents, receiveInUse, sentInUse]

theorem dispatchContents (s : BatchStore n size) : s.dispatch = s.contents.events := by
  have read (x : StoredRecord × Buffer size) :
      StoredRecord.event s.channel x = (StoredRecord.read x).event s.channel := by
    rcases x with ⟨_ | _, _⟩ <;> rfl
  simp only [dispatch, Batch.events, contents, List.map_map]
  congr 4
  funext x
  exact read x

theorem emptyContents {s : BatchStore n size} (h : s.Held) :
    s.isEmpty = s.contents.isEmpty := by
  have receives : s.contents.received.length = s.receiveCount := by
    simp only [contents, List.length_map, receiveLength h]
  have sends : s.contents.sent.length = s.sentCount := sentLength h
  have none {α : Type} {l : List α} {k : Nat} (length : l.length = k) :
      (k == 0) = l.isEmpty := by
    subst length
    cases l <;> rfl
  simp only [isEmpty, Batch.isEmpty, none receives, none sends]
  rfl

end BatchStore

inductive BatchCall where
  | hear (event : Event)
  | isEmpty
  | dispatch

def BatchCall.heard? : BatchCall → Option Event
  | .hear e => some e
  | .isEmpty | .dispatch => none

namespace BatchStore

variable {n size : Nat}

def meet : BatchCall → BatchStore n size → BatchStore n size
  | .hear e, s => s.record e
  | .isEmpty, s | .dispatch, s => s

def told (s : BatchStore n size) (calls : List BatchCall) : List (List Event) :=
  (history meet s calls).filterMap fun e =>
    match e.move with
    | .dispatch => some e.before.dispatch
    | .hear _ | .isEmpty => none

theorem meetContents (channel : Nat) (calls : List BatchCall) :
    let now := run meet ({ channel := channel } : BatchStore n size) calls
    now.Held ∧ now.contents =
      Batch.recordAll { channel := channel } (calls.filterMap (·.heard?)) := by
  induction calls using List.reverseRecOn with
  | nil => exact ⟨newHeld channel, newContents channel⟩
  | append_singleton calls x ih =>
    obtain ⟨held, contents⟩ := ih
    simp only [runSnoc, List.filterMap_append]
    cases x with
    | hear e =>
      refine ⟨recordHeld held e, (recordContents held e).trans ?_⟩
      rw [contents, Batch.recordAll, Batch.recordAll, List.foldl_append]
      rfl
    | isEmpty | dispatch => exact ⟨held, contents.trans (congrArg _ (List.append_nil _).symm)⟩

end BatchStore

/-- A new batch of any size, after any calls: its sink hears the first `n` receptions, an underrun
if there was one, the first `n` finished frames and the last modem change, and hears them again
when asked again. -/
theorem batchPartitions (n size channel : Nat) (calls : List BatchCall) :
    let heard := calls.filterMap (·.heard?)
    let batch : Batch n size := Batch.recordAll { channel := channel } heard
    let now := run BatchStore.meet ({ channel := channel } : BatchStore n size) calls
    now.dispatch =
      ((heard.filterMap (·.reception? size)).take n).map (ReceiveRecord.event channel) ++
        (if heard.any (·.isUnderrun) then [.failed channel .underrun] else []) ++
        ((heard.filterMap (·.completion?)).take n).map (fun f => .sent channel f.1 f.2) ++
        ((heard.filterMap (·.signals?)).getLast?.map (Event.modemChanged channel)).toList ∧
    (now.isEmpty = true ↔ now.dispatch = []) ∧
    now.told [.dispatch, .isEmpty, .dispatch] = [now.dispatch, now.dispatch] ∧
    batch.events = now.dispatch ∧ batch.isEmpty = now.isEmpty ∧ now.Held := by
  intro heard batch now
  obtain ⟨held, contents⟩ : now.Held ∧ now.contents = batch :=
    BatchStore.meetContents channel calls
  have dispatch : now.dispatch = batch.events := by rw [BatchStore.dispatchContents, contents]
  have empty : now.isEmpty = batch.isEmpty := by rw [BatchStore.emptyContents held, contents]
  refine ⟨?_, ?_, rfl, dispatch.symm, empty.symm, held⟩
  · rw [dispatch, show batch = _ from Batch.recordedKept channel heard]
    rfl
  · rw [empty, dispatch]
    exact batch.emptyEvents

end SerialAdapter
