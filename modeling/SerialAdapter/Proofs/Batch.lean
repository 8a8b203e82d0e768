import SerialAdapter.Batch

/-! A batch that never drops anything. An asserting batch stops where the other one would drop; a
batch within its bounds is what recording its own events gives, in both. -/
namespace SerialAdapter

def ReceiveRecord.Sound (size : Nat) : ReceiveRecord → Prop
  | .frame payload => payload.length ≤ size
  | .error cause => cause ≠ .underrun

namespace Batch

variable {n size : Nat}

def admits (b : Batch n size) : Event → Bool
  | .received .. => b.received.length < n
  | .sent .. => b.sent.length < n
  | .failed _ .underrun => true
  | .failed .. => b.received.length < n
  | .modemChanged .. => true

def record? (b : Batch n size) (e : Event) : Option (Batch n size) :=
  if b.admits e then some (b.record e) else none

def recordAll? (b : Batch n size) (es : List Event) : Option (Batch n size) := es.foldlM record? b

theorem recordAllSome {b b' : Batch n size} {es : List Event} (kept : b.recordAll? es = some b') :
    b.recordAll es = b' := by
  induction es generalizing b with
  | nil => exact Option.some.inj kept
  | cons e es ih =>
    obtain ⟨next, one, rest⟩ := Option.bind_eq_some_iff.mp (List.foldlM_cons.symm.trans kept)
    unfold record? at one
    split at one
    · cases Option.some.inj one
      exact ih rest
    · contradiction

structure Fits (b : Batch n size) : Prop where
  received : b.received.length ≤ n
  sent : b.sent.length ≤ n
  sound : ∀ r ∈ b.received, r.Sound size

theorem emptyEvents (b : Batch n size) : b.isEmpty = true ↔ b.events = [] := by
  obtain ⟨channel, received, underrun, sent, modem⟩ := b
  cases underrun <;> cases modem <;> simp [isEmpty, events]

theorem recordReceived {rs : List ReceiveRecord} (sound : ∀ r ∈ rs, r.Sound size) (channel : Nat)
    (b : Batch n size) (room : b.received.length + rs.length ≤ n) :
    b.recordAll? (rs.map (ReceiveRecord.event channel)) =
      some { b with received := b.received ++ rs } := by
  induction rs generalizing b with
  | nil => rw [List.append_nil]; rfl
  | cons r rs ih =>
    rw [List.length_cons] at room
    have first : b.record? (r.event channel) =
        some { b with received := b.received ++ [r] } := by
      have low : b.received.length < n := by omega
      have own := sound r List.mem_cons_self
      cases r with
      | frame payload =>
        have whole : payload.take size = payload := List.take_of_length_le own
        simp [record?, admits, record, push, ReceiveRecord.event, low, whole]
      | error cause =>
        have apart : cause ≠ .underrun := own
        cases cause <;>
          simp_all [record?, admits, record, push, ReceiveRecord.event]
    have rest := ih (fun r' shown => sound r' (List.mem_cons_of_mem r shown))
      { b with received := b.received ++ [r] } (by
        rw [List.length_append, List.length_singleton]
        omega)
    unfold recordAll? at rest ⊢
    rw [List.map_cons, List.foldlM_cons, first]
    refine rest.trans ?_
    rw [List.append_assoc]
    rfl

theorem recordSent (sent : List (UInt64 × Nat)) (channel : Nat) (b : Batch n size)
    (room : b.sent.length + sent.length ≤ n) :
    b.recordAll? (sent.map fun s => .sent channel s.1 s.2) =
      some { b with sent := b.sent ++ sent } := by
  induction sent generalizing b with
  | nil => rw [List.append_nil]; rfl
  | cons s sent ih =>
    rw [List.length_cons] at room
    have low : b.sent.length < n := by omega
    have first : b.record? (.sent channel s.1 s.2) = some { b with sent := b.sent ++ [s] } := by
      simp [record?, admits, record, push, low]
    have rest := ih { b with sent := b.sent ++ [s] } (by
      rw [List.length_append, List.length_singleton]
      omega)
    unfold recordAll? at rest ⊢
    rw [List.map_cons, List.foldlM_cons, first]
    refine rest.trans ?_
    rw [List.append_assoc]
    rfl

theorem recordJoin {b b' b'' : Batch n size} {first second : List Event}
    (one : b.recordAll? first = some b') (two : b'.recordAll? second = some b'') :
    b.recordAll? (first ++ second) = some b'' := by
  unfold recordAll? at *
  rw [List.foldlM_append, one]
  exact two

theorem replayed {b : Batch n size} (h : b.Fits) :
    recordAll? { channel := b.channel } b.events = some b := by
  obtain ⟨channel, received, underrun, sent, modem⟩ := b
  have receives := recordReceived h.sound channel (⟨channel, [], false, [], none⟩ : Batch n size)
    (by
      rw [List.length_nil, Nat.zero_add]
      exact h.received)
  have underruns : (⟨channel, received, false, [], none⟩ : Batch n size).recordAll?
      (if underrun then [.failed channel .underrun] else []) =
      some ⟨channel, received, underrun, [], none⟩ := by
    cases underrun <;> rfl
  have sends := recordSent sent channel (⟨channel, received, underrun, [], none⟩ : Batch n size) (by
    rw [List.length_nil, Nat.zero_add]
    exact h.sent)
  have changes : (⟨channel, received, underrun, sent, none⟩ : Batch n size).recordAll?
      (modem.map (Event.modemChanged channel)).toList =
      some ⟨channel, received, underrun, sent, modem⟩ := by
    cases modem <;> rfl
  exact recordJoin (recordJoin (recordJoin receives underruns) sends) changes

end Batch

end SerialAdapter
