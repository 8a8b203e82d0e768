import Mathlib.Data.List.Forall2
import SerialAdapter.Proofs.Receive.Delivery

/-! Frames on the line and the buffers they arrive in. The controller splits a frame that is longer
than one buffer: every buffer but the last is full and not marked as an end. Each buffer is judged
by itself: the full ones are errors, told as `none`, and what is reported of a sound frame is what its
last buffer holds, the frame if it fits and no more than its tail if it does not. -/
namespace SerialAdapter

variable {c n size : Nat}

structure Piece where
  data : Bytes
  length : UInt16
  status : UInt8
  deriving DecidableEq, Repr

structure LineFrame where
  data : Bytes
  status : UInt8
  deriving DecidableEq, Repr

namespace LineFrame

def intact (f : LineFrame) : Bool :=
  let status := DescriptorStatus.ofByte f.status
  !(status.overrun || status.badFraming || status.crcError)

def full (size : Nat) (f : LineFrame) : Nat := (f.data.length - 1) / size

def tail (size : Nat) (f : LineFrame) : Bytes := f.data.drop (f.full size * size)

def report? (size : Nat) (f : LineFrame) : Option Bytes :=
  if f.intact then some (f.tail size) else none

def told (size : Nat) (f : LineFrame) : List (Option Bytes) :=
  List.replicate (f.full size) none ++ [f.report? size]

theorem fullNone {f : LineFrame} (room : 0 < size) (fits : f.data.length ≤ size) :
    f.full size = 0 := Nat.div_eq_of_lt (by omega)

theorem fullDrop {f : LineFrame} (room : 0 < size) (long : size < f.data.length) :
    f.full size = full size ⟨f.data.drop size, f.status⟩ + 1 := by
  have before : f.data.length - 1 = f.data.length - size - 1 + size := by omega
  rw [full, full, List.length_drop, before, Nat.add_div_right _ room]

theorem tailWhole {f : LineFrame} (room : 0 < size) (fits : f.data.length ≤ size) :
    f.tail size = f.data := by
  rw [tail, fullNone room fits, Nat.zero_mul, List.drop_zero]

theorem tailDrop {f : LineFrame} (room : 0 < size) (long : size < f.data.length) :
    f.tail size = tail size ⟨f.data.drop size, f.status⟩ := by
  rw [tail, tail, fullDrop room long, List.drop_drop, Nat.add_mul, Nat.one_mul, Nat.add_comm]

theorem tailShorter {f : LineFrame} (room : 0 < size) (long : size < f.data.length) :
    (f.tail size).length < f.data.length := by
  have cut : 0 < f.full size * size := by
    rw [fullDrop room long]
    exact Nat.mul_pos (Nat.succ_pos _) room
  rw [tail, List.length_drop]
  omega

theorem toldDrop {f : LineFrame} (room : 0 < size) (long : size < f.data.length) :
    f.told size = none :: told size ⟨f.data.drop size, f.status⟩ := by
  rw [told, told, fullDrop room long, List.replicate_succ, report?, report?, tailDrop room long]
  rfl

theorem toldReports (frames : List LineFrame) :
    (frames.flatMap (told size)).filterMap id = frames.filterMap (report? size) := by
  rw [List.filterMap_flatMap, List.filterMap_eq_flatMap_toList]
  refine List.flatMap_congr fun f _ => ?_
  rw [told, List.filterMap_append, List.filterMap_replicate_of_none rfl]
  cases f.report? size <;> rfl

end LineFrame

/-- How a frame arrives: full buffers without an end mark, then one with it and the line's status. -/
inductive Arrives (size : Nat) : LineFrame → List Piece → Prop
  | last {f : LineFrame} {length : UInt16} (fits : f.data.length ≤ size)
      (counted : length.toNat = f.data.length)
      (ends : (DescriptorStatus.ofByte f.status).endOfFrame = true) :
      Arrives size f [⟨f.data, length, f.status⟩]
  | part {f : LineFrame} {length : UInt16} {status : UInt8} {pieces : List Piece}
      (long : size < f.data.length) (counted : length.toNat = size)
      (goesOn : (DescriptorStatus.ofByte status).endOfFrame = false)
      (rest : Arrives size ⟨f.data.drop size, f.status⟩ pieces) :
      Arrives size f (⟨f.data.take size, length, status⟩ :: pieces)

inductive Arrivals (size : Nat) : List LineFrame → List Piece → Prop
  | nil : Arrivals size [] []
  | frame {f : LineFrame} {frames : List LineFrame} {first pieces : List Piece}
      (head : Arrives size f first) (rest : Arrivals size frames pieces) :
      Arrivals size (f :: frames) (first ++ pieces)

abbrev Slot.Took (s : Slot size) (p : Piece) : Prop :=
  ∃ old : Slot size, s = old.complete p.data p.length p.status

theorem partSilent {s : Slot size} {p : Piece} (took : s.Took p)
    (goesOn : (DescriptorStatus.ofByte p.status).endOfFrame = false) :
    s.outcome.toOption = none := by
  obtain ⟨old, rfl⟩ := took
  simp only [Slot.outcome, Slot.complete, Descriptor.complete, goesOn]
  repeat' split
  all_goals first | rfl | contradiction

theorem lastReported {s : Slot size} {f : LineFrame} {length : UInt16}
    (took : s.Took ⟨f.data, length, f.status⟩) (room : 0 < size) (fits : f.data.length ≤ size)
    (counted : length.toNat = f.data.length)
    (ends : (DescriptorStatus.ofByte f.status).endOfFrame = true) :
    s.outcome.toOption = f.report? size := by
  obtain ⟨old, rfl⟩ := took
  have payload : (old.buffer.overwrite f.data).toList.take (min length.toNat size) = f.data := by
    rw [Buffer.toListOverwrite, counted, List.take_take, Nat.min_eq_left fits,
      Nat.min_eq_left fits, List.take_left]
  simp only [LineFrame.report?, LineFrame.intact, LineFrame.tailWhole room fits,
    DescriptorStatus.badFraming, Slot.outcome, Slot.complete, Descriptor.complete, ends, payload]
  generalize DescriptorStatus.ofByte f.status = status
  obtain ⟨-, short, abort, residual, overrun, crc, -⟩ := status
  cases short <;> cases abort <;> cases residual <;> cases overrun <;> cases crc <;> rfl

theorem arrivesTold {f : LineFrame} {pieces : List Piece} {slots : List (Slot size)}
    (room : 0 < size) (arrives : Arrives size f pieces)
    (took : List.Forall₂ Slot.Took slots pieces) :
    (slots.map Slot.outcome).map Except.toOption = f.told size := by
  induction arrives generalizing slots with
  | last fits counted ends =>
    obtain ⟨s, rest, own, none, rfl⟩ := List.forall₂_cons_right_iff.mp took
    cases List.forall₂_nil_right_iff.mp none
    rw [LineFrame.told, LineFrame.fullNone room fits, ← lastReported own room fits counted ends]
    rfl
  | part long counted goesOn rest ih =>
    obtain ⟨s, slots, own, others, rfl⟩ := List.forall₂_cons_right_iff.mp took
    rw [List.map_cons, List.map_cons, partSilent own goesOn, ih others,
      LineFrame.toldDrop room long]

theorem arrivalsTold {frames : List LineFrame} {pieces : List Piece} {slots : List (Slot size)}
    (room : 0 < size) (arrivals : Arrivals size frames pieces)
    (took : List.Forall₂ Slot.Took slots pieces) :
    (slots.map Slot.outcome).map Except.toOption = frames.flatMap (LineFrame.told size) := by
  induction arrivals generalizing slots with
  | nil =>
    rw [List.forall₂_nil_right_iff.mp took]
    rfl
  | @frame f frames first pieces head rest ih =>
    have own := List.forall₂_take_append slots first pieces took
    have others := List.forall₂_drop_append slots first pieces took
    rw [← List.take_append_drop first.length slots, List.map_append, List.map_append,
      arrivesTold room head own, ih others, List.flatMap_cons]

def Entry.pieces (i : Fin c) (e : Entry (Board c n size) (Move c)) : List Piece :=
  match e.move with
  | .receive j frame length status =>
    if j = i ∧ (e.before.fills? j frame length status).isSome then [⟨frame, length, status⟩] else []
  | _ => []

theorem writtenTook (filled : 0 < n) (i : Fin c) (e : Entry (Board c n size) (Move c)) :
    List.Forall₂ Slot.Took (e.written i) (e.pieces i) := by
  obtain ⟨b, m⟩ := e
  cases m with
  | receive j frame length status =>
    simp only [Entry.written, Entry.pieces]
    cases step : b.fills? j frame length status with
    | none => simp
    | some taken =>
      obtain ⟨k, ring, r⟩ := taken
      obtain ⟨-, -, rfl, -⟩ := fillsStep step
      by_cases own : j = i
      · simp only [own, Option.isSome_some, and_self, ↓reduceIte]
        refine .cons ⟨(b.channel i).rings.receive.slot k, ?_⟩ .nil
        rw [SlotRing.slotModify filled, if_pos rfl]
      · simp [own]
  | _ => exact .nil

section Runs

variable (i : Fin c) {b : Board c n size} {setup : BoardSetup c}
  {place : Nat → Direction → Placement}

/-- For any frames on the line and any moves between their pieces: each full buffer before the last
of a frame is an error, and what is delivered is, in order, the tail of each sound frame. If every
frame fits one buffer these are the sound frames; a sound frame that does not fit is delivered cut. -/
theorem tailsDelivered (fits : 16 * n ≤ 2 ^ 32) (plain : b.registers.wiring.Plain i .receive)
    (up : (Board.init setup place b).answer = .ok ()) (moves : List (Move c))
    (frames : List LineFrame) (coming : List Piece) :
    let recent := receiveEpoch i (history Board.move (Board.init setup place b).state moves)
    let told := (recent.flatMap (·.outcomes i)).map Except.toOption
    let delivered := (recent.flatMap (·.outcomes i)).filterMap Except.toOption
    Arrivals size frames (recent.flatMap (·.pieces i) ++ coming) →
      told <+: frames.flatMap (LineFrame.told size) ∧
      delivered <+: frames.filterMap (LineFrame.report? size) ∧
      ((∀ f ∈ frames, f.data.length ≤ size) →
        delivered <+: (frames.filter LineFrame.intact).map LineFrame.data) ∧
      (coming = [] → recent.getLast?.any (·.serves i .receive) = true →
        told = frames.flatMap (LineFrame.told size) ∧
        delivered = frames.filterMap (LineFrame.report? size) ∧
        ∀ f ∈ frames, f.intact = true → size < f.data.length →
          ∃ payload ∈ delivered, payload <:+ f.data ∧ payload.length < f.data.length) := by
  intro recent told delivered arrivals
  obtain ⟨-, -, -, filled, room, -⟩ := initAccepted up
  obtain ⟨reported, -, -, -, settled⟩ := deliveriesInOrder i fits plain up moves
  have took : List.Forall₂ Slot.Took (recent.flatMap (·.written i))
      (recent.flatMap (·.pieces i)) := by
    refine List.rel_flatMap (List.forall₂_same.mpr fun e _ => Eq.refl e) ?_
    rintro e - rfl
    exact writtenTook (by omega) i e
  have later : List.Forall₂ Slot.Took
      (coming.map fun p => Slot.complete ({} : Slot size) p.data p.length p.status) coming := by
    rw [List.forall₂_map_left_iff, List.forall₂_same]
    exact fun p _ => ⟨{}, rfl⟩
  have all := arrivalsTold room arrivals (List.rel_append took later)
  have kept : delivered = told.filterMap id := by
    rw [List.filterMap_map]
    rfl
  have ahead : told <+: frames.flatMap (LineFrame.told size) := by
    rw [← all, List.map_append]
    exact (reported.trans (List.prefix_append _ _)).map Except.toOption
  have first : delivered <+: frames.filterMap (LineFrame.report? size) := by
    rw [kept, ← LineFrame.toldReports]
    exact ahead.filterMap id
  refine ⟨ahead, first, fun short => ?_, fun last served => ?_⟩
  · have whole : frames.filterMap (LineFrame.report? size) =
        (frames.filter LineFrame.intact).map LineFrame.data := by
      rw [← List.filterMap_eq_map, List.filterMap_filter]
      refine List.filterMap_congr fun f shown => ?_
      rw [LineFrame.report?, LineFrame.tailWhole room (short f shown)]
      rfl
    exact whole ▸ first
  · obtain ⟨e, newest, serve⟩ := (Option.any_eq_true _ _).mp served
    have both : recent.flatMap (·.outcomes i) = (recent.flatMap (·.written i)).map Slot.outcome :=
      settled e newest serve
    simp only [last, List.map_nil, List.append_nil] at all
    have exact : told = frames.flatMap (LineFrame.told size) := by
      rw [← all, ← both]
    have every : delivered = frames.filterMap (LineFrame.report? size) := by
      rw [kept, exact, LineFrame.toldReports]
    refine ⟨exact, every, fun f shown sound long => ⟨f.tail size, ?_, ?_, ?_⟩⟩
    · rw [every]
      exact List.mem_filterMap.mpr ⟨f, shown, if_pos sound⟩
    · exact List.drop_suffix _ _
    · exact LineFrame.tailShorter room long

end Runs

theorem tailDeliveredBesideWhole :
    let b : Board 1 4 4 := { registers := .blank (Wiring.board 1) }
    let place := Placement.regular 0 64 4
    let moves : List (Move 1) :=
      [.call (.enable 0 .receive true), .receive 0 [1, 2, 3, 4] 4 0,
        .poke (Register.interrupts 0) 1, .call (.serviceChannel 0), .receive 0 [5, 6] 2 0x80,
        .receive 0 [7, 8] 2 0x80, .poke (Register.interrupts 0) 1, .call (.serviceChannel 0)]
    let recent := receiveEpoch 0 (history Board.move (Board.init {} place b).state moves)
    let told := (recent.flatMap (·.outcomes 0)).map Except.toOption
    let delivered := (recent.flatMap (·.outcomes 0)).filterMap Except.toOption
    Arrivals 4 [⟨[1, 2, 3, 4, 5, 6], 0x80⟩, ⟨[7, 8], 0x80⟩] (recent.flatMap (·.pieces 0) ++ []) ∧
      recent.getLast?.any (·.serves 0 .receive) = true ∧
      told = [none, some [5, 6], some [7, 8]] ∧ delivered = [[5, 6], [7, 8]] := by
  intro b place moves recent told delivered
  have up : (Board.init {} place b).answer = .ok () := rfl
  have plain : b.registers.wiring.Plain 0 .receive := boardPlain (by decide) (by decide) .receive
  have pieces : recent.flatMap (·.pieces 0) ++ [] =
      [⟨[1, 2, 3, 4], 4, 0⟩, ⟨[5, 6], 2, 0x80⟩] ++ ([⟨[7, 8], 2, 0x80⟩] ++ []) := by decide +kernel
  have long : Arrives 4 ⟨[1, 2, 3, 4, 5, 6], 0x80⟩ [⟨[1, 2, 3, 4], 4, 0⟩, ⟨[5, 6], 2, 0x80⟩] :=
    .part (by decide) rfl rfl (.last (by decide) rfl rfl)
  have short : Arrives 4 ⟨[7, 8], 0x80⟩ [⟨[7, 8], 2, 0x80⟩] := .last (by decide) rfl rfl
  have arrivals : Arrivals 4 [⟨[1, 2, 3, 4, 5, 6], 0x80⟩, ⟨[7, 8], 0x80⟩]
      (recent.flatMap (·.pieces 0) ++ []) := by
    rw [pieces]
    exact .frame long (.frame short .nil)
  have served : recent.getLast?.any (·.serves 0 .receive) = true := by decide +kernel
  have all := tailsDelivered 0 (by decide) plain up moves _ [] arrivals
  have tails := all.2.2.2 rfl served
  exact ⟨arrivals, served, tails.1, tails.2.1⟩

/-- Not every payload is a frame: here the one payload is the tail of the one frame on the line. -/
theorem longFrameDeliveredCut :
    let b : Board 1 4 4 := { registers := .blank (Wiring.board 1) }
    let place := Placement.regular 0 64 4
    let moves : List (Move 1) :=
      [.call (.enable 0 .receive true), .receive 0 [1, 2, 3, 4] 4 0, .receive 0 [5, 6] 2 0x80,
        .poke (Register.interrupts 0) 1, .call (.serviceChannel 0)]
    let recent := receiveEpoch 0 (history Board.move (Board.init {} place b).state moves)
    let delivered := (recent.flatMap (·.outcomes 0)).filterMap Except.toOption
    let frames : List LineFrame := [⟨[1, 2, 3, 4, 5, 6], 0x80⟩]
    (Board.init {} place b).answer = .ok () ∧ recent.length = 4 ∧
      Arrivals 4 frames (recent.flatMap (·.pieces 0)) ∧ [5, 6] ∈ delivered ∧
      ¬ ∀ payload ∈ delivered, ∃ f ∈ frames, f.data = payload ∧ f.data.length ≤ 4 := by
  intro b place moves recent delivered frames
  have pieces : recent.flatMap (·.pieces 0) =
      [⟨[1, 2, 3, 4], 4, 0⟩, ⟨[5, 6], 2, 0x80⟩] ++ [] := by decide +kernel
  have arrivals : Arrivals 4 frames (recent.flatMap (·.pieces 0)) := by
    rw [pieces]
    exact .frame (.part (by decide) rfl rfl (.last (by decide) rfl rfl)) .nil
  have tail : [5, 6] ∈ delivered := by decide +kernel
  have length : recent.length = 4 := by decide +kernel
  have up : (Board.init {} place b).answer = .ok () := rfl
  have cut : ¬ ∃ f ∈ frames, f.data = [5, 6] ∧ f.data.length ≤ 4 := by decide
  exact ⟨up, length, arrivals, tail, fun whole => cut (whole [5, 6] tail)⟩

end SerialAdapter
