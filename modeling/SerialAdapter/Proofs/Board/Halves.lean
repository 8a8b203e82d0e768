import SerialAdapter.Proofs.Board.Chains
import SerialAdapter.Proofs.Channel.Halves

/-! The two halves of a board do not interfere. Two boards that agree on a half go on agreeing on it
whatever is called, and calls and hardware steps of the other half may be left out. The hardware of
the data half is anything that keeps to that half; that of the line loads status and counters. -/
namespace SerialAdapter

open Operation Registers

structure Board.Same {c n size : Nat} (h : Half) (b b' : Board c n size) : Prop where
  up : b.initialized = true
  up' : b'.initialized = true
  thresholds : b'.thresholds = b.thresholds
  registers : Alike (h.Owns c) b.registers b'.registers
  channels : ∀ i : Fin c, h.view (b'.channel i) = h.view (b.channel i)

theorem Board.Same.refl {c n size : Nat} {h : Half} {b : Board c n size}
    (up : b.initialized = true) : Board.Same h b b :=
  ⟨up, up, rfl, .refl _, fun _ => rfl⟩

theorem Board.Same.symm {c n size : Nat} {h : Half} {b b' : Board c n size}
    (same : Board.Same h b b') : Board.Same h b' b :=
  ⟨same.up', same.up, same.thresholds.symm,
    ⟨same.registers.wiring.symm, fun o own => (same.registers.bytes o own).symm⟩,
    fun i => (same.channels i).symm⟩

theorem Board.Same.trans {c n size : Nat} {h : Half} {b b' b'' : Board c n size}
    (first : Board.Same h b b') (second : Board.Same h b' b'') : Board.Same h b b'' :=
  ⟨first.up, second.up', second.thresholds.trans first.thresholds,
    first.registers.trans second.registers,
    fun i => (second.channels i).trans (first.channels i)⟩

structure Holds {c n size : Nat} {α : Type} (h : Half) (op : Operation (Board c n size) α) :
    Prop where
  answer : ∀ {b b'}, Board.Same h b b' → (op b').answer = (op b).answer
  seen : ∀ {b b'}, Board.Same h b b' → (op b').seen = (op b).seen
  follows : ∀ {b b'}, Board.Same h b b' → Board.Same h (op b).state (op b').state
  spares : ∀ {b}, b.initialized = true → Board.Same h.other b (op b).state
  mute : h = .line → ∀ {b}, b.initialized = true → events (op b).seen = []

section Rules

variable {c n size : Nat} {α β : Type} {h : Half}

theorem holdsPure (a : α) : Holds h (pure a : Operation (Board c n size) α) :=
  ⟨fun _ => rfl, fun _ => rfl, fun same => same, fun up => .refl up, fun _ _ _ => rfl⟩

theorem holdsBind {op : Operation (Board c n size) α} {next : α → Operation (Board c n size) β}
    (first : Holds h op) (second : ∀ a, Holds h (next a)) : Holds h (op >>= next) where
  answer {b b'} same := by
    rw [bindApply, first.answer same]
    exact (second _).answer (first.follows same)
  seen {b b'} same := by
    rw [bindApply, first.answer same, first.seen same, (second _).seen (first.follows same)]
    rfl
  follows {b b'} same := by
    rw [bindApply, bindApply, first.answer same]
    exact (second _).follows (first.follows same)
  spares {b} up := (first.spares up).trans ((second _).spares (first.spares up).up')
  mute line b up := by
    rw [bindApply, eventsAppend, first.mute line up, (second _).mute line (first.spares up).up']
    rfl

theorem holdsForM {ι : Type} {step : ι → Operation (Board c n size) Unit}
    (each : ∀ x, Holds h (step x)) (l : List ι) : Holds h (List.forM l step) := by
  induction l with
  | nil => exact holdsPure ()
  | cons x l ih => exact holdsBind (each x) fun _ => ih

theorem holdsRecast {op : Operation (Board c n size) α} (f : α → β) (held : Holds h op) :
    Holds h (op.recast f) :=
  ⟨fun same => congrArg f (held.answer same), held.seen, held.follows, held.spares, held.mute⟩

theorem holdsUp {op op' : Operation (Board c n size) α}
    (same : ∀ {b}, b.initialized = true → op b = op' b) (held : Holds h op') : Holds h op where
  answer alike := by
    rw [same alike.up, same alike.up']
    exact held.answer alike
  seen alike := by
    rw [same alike.up, same alike.up']
    exact held.seen alike
  follows alike := by
    rw [same alike.up, same alike.up']
    exact held.follows alike
  spares up := by
    rw [same up]
    exact held.spares up
  mute line b up := by
    rw [same up]
    exact held.mute line up

theorem holdsRefused (a : α) : Holds h fun b : Board c n size => ⟨a, b, []⟩ := holdsPure a

theorem holdsOnRegisters {op : Operation Registers α} {i : Nat}
    (confined : Confined i (h.Owns c) op) (mute : h = .line → ∀ r, events (op r).seen = []) :
    Holds h (Board.onRegisters op : Operation (Board c n size) α) where
  answer same := confined.answer same.registers
  seen same := confined.seen same.registers
  follows same := ⟨same.up, same.up', same.thresholds, confined.state same.registers, same.channels⟩
  spares {b} up :=
    ⟨up, up, rfl, (confined.frame b.registers).mono fun _ => Half.ownsApart, fun _ => rfl⟩
  mute line b _ := mute line b.registers

theorem ridesTwice {i : Nat} {work : Channel.Work n size α} (rides : Rides h c i work)
    {ch ch' : Channel n size} {r r' : Registers} (view : h.view ch' = h.view ch)
    (alike : Alike (h.Owns c) r r') :
    (work ch' r').answer.1 = (work ch r).answer.1 ∧
      h.view (work ch' r').answer.2 = h.view (work ch r).answer.2 ∧
      (work ch' r').seen = (work ch r).seen ∧
      Alike (h.Owns c) (work ch r).state (work ch' r').state := by
  have blind := congrFun (rides.blind view) r
  simp only [recastApply, Outcome.mk.injEq, Prod.map, Prod.mk.injEq, id_eq] at blind
  obtain ⟨⟨reply, kept⟩, state, seen⟩ := blind
  have confined := rides.confined ch'
  rw [confined.answer alike, confined.seen alike]
  exact ⟨reply, kept, seen, state ▸ confined.state alike⟩

theorem holdsOnChannel {i : Nat} (low : i < c) {work : Thresholds → Channel.Work n size α}
    (rides : ∀ t, Rides h c i (work t)) :
    Holds h fun b : Board c n size => Board.onChannel i low (work b.thresholds) b := by
  have twice {b b' : Board c n size} (same : Board.Same h b b') :=
    ridesTwice (rides b.thresholds) (same.channels ⟨i, low⟩) same.registers
  refine ⟨fun {b b'} same => ?_, fun {b b'} same => ?_, fun {b b'} same => ?_, fun {b} up => ?_,
    fun line b up => (rides b.thresholds).mute line _ _⟩
  · simp only [Board.onChannel, same.thresholds]
    exact (twice same).1
  · simp only [Board.onChannel, same.thresholds]
    exact (twice same).2.2.1
  · simp only [Board.onChannel, same.thresholds]
    refine ⟨same.up, same.up', rfl, (twice same).2.2.2, fun j => ?_⟩
    simp only [Board.channel, Vector.getElem_set]
    split
    · exact (twice same).2.1
    · exact same.channels j
  · refine ⟨up, up, rfl, ?_, fun j => ?_⟩
    · exact (((rides b.thresholds).confined _).frame b.registers).mono fun _ => Half.ownsApart
    · simp only [Board.onChannel, Board.channel, Vector.getElem_set]
      split
      · rename_i own
        subst own
        exact (rides b.thresholds).spares _ _
      · rfl

end Rules

namespace Call

def away {c : Nat} : Call c → Reply
  | .send .. | .sendPrepared .. => .send (.error .invalidChannel)
  | .prepare .. => .copied Option.none
  | .tickChannel _ => .second (.error .invalidChannel)
  | _ => .config (.error .invalidChannel)

theorem askAway {c n size : Nat} {b : Board c n size} {i : Nat} (high : c ≤ i)
    (up : b.initialized = true) {k : Call c} (named : k.channel? = some i) :
    k.ask b = ⟨k.away, b, []⟩ := by
  have checked {α : Type} (op : Thresholds → Channel.Work n size α) :
      Board.checked i op b = Board.refuse .invalidChannel b := by
    simp [Board.checked, Board.obstacle?, up, high]
  have outside : ¬ i < c := by omega
  cases k with
  | clearStatistics scope =>
    cases scope <;> cases named <;>
      simp [ask, away, Board.clearStatistics, Board.clearChannel, Board.change, checked,
        Board.refuse]
  | send j data tag | sendPrepared j length tag =>
    cases named
    simp [ask, away, Board.send, Board.sendPrepared, Board.sendFrame, Board.sendable, outside,
      Board.refuse]
  | prepare j data =>
    cases named
    simp [ask, away, Board.prepare, outside]
  | init setup place | takePending | handleInterrupt | tick => contradiction
  | _ =>
    cases named
    simp [ask, away, Board.enable, Board.setMode, Board.resyncLine, Board.serviceChannel,
      Board.tickChannel, Board.change, checked, Board.refuse]

end Call

section Calls

variable {c n size : Nat} (few : c ≤ Limits.maxChannels)
include few

theorem namedHolds {k : Call c} {i : Nat} (named : k.channel? = some i) :
    Holds k.half (k.ask : Operation (Board c n size) Reply) := by
  by_cases low : i < c
  · exact holdsUp (fun up => Call.askWithin low up named)
      (holdsOnChannel low fun t => withinRides few low named t)
  · exact holdsUp (fun up => Call.askAway (by omega) up named) (holdsRefused k.away)

theorem takePendingHolds : Holds .data (Board.takePending : Operation (Board c n size) UInt8) := by
  have confined := confinedMono (confinedPending c 0) fun o => Half.boardData (o := o) few
  exact holdsUp (fun up => if_pos up) (holdsOnRegisters confined fun line => by contradiction)

theorem handleInterruptHolds :
    Holds .data (Board.handleInterrupt : Operation (Board c n size) Unit) := by
  refine holdsBind (takePendingHolds few) fun pending => holdsForM (fun i => ?_) _
  have served : Holds .data fun b : Board c n size =>
      Board.onChannel i i.isLt (fun ch => (ch.service i).recast ((), ·)) b :=
    holdsOnChannel i.isLt fun _ => serviceRides few i.isLt ()
  refine holdsUp (fun _ => ?_) served
  simp [Board.servicePending, Board.onChannel]

theorem tickHolds : Holds .line (Board.tick : Operation (Board c n size) Unit) := by
  refine holdsUp (fun up => if_pos up) (holdsForM (fun i => ?_) _)
  have ticked : Holds .line fun b : Board c n size => Board.onChannel i i.isLt
      (fun ch => (ch.tick i b.thresholds).recast fun done => ((), done.2)) b :=
    holdsOnChannel i.isLt fun t => tickRides i.isLt few (fun _ => ()) t
  exact holdsUp (fun _ => rfl) ticked

omit few in
theorem clearBoardHolds :
    Holds .line (Board.clearBoard : Operation (Board c n size) (Except ConfigError Unit)) where
  answer same := by simp [Board.clearBoard, same.up, same.up']
  seen same := by simp [Board.clearBoard, same.up, same.up']
  follows {b b'} same := by
    simp only [Board.clearBoard, same.up, same.up', ↓reduceIte]
    refine ⟨rfl, rfl, same.thresholds, same.registers, fun i => ?_⟩
    have before := same.channels i
    simp only [Half.view, Channel.mk.injEq] at before
    simp [Board.channel, Half.view, Channel.clear, before]
  spares {b} up := by
    simp only [Board.clearBoard, up, ↓reduceIte]
    exact ⟨up, rfl, rfl, .refl _, fun i => by
      simp [Board.channel, Half.other, Half.view, Channel.clear]⟩
  mute _ b up := by
    simp only [Board.clearBoard, up, ↓reduceIte]
    rfl

theorem callHolds (k : Call c) : Holds k.half (k.ask : Operation (Board c n size) Reply) := by
  cases k with
  | init setup place =>
    refine holdsUp (fun {b} up => ?_) (holdsRefused (.config (.error .alreadyInitialized)))
    simp [Call.ask, Board.init, Board.initError?, up, Board.refuse]
  | takePending => exact holdsRecast _ (takePendingHolds few)
  | handleInterrupt => exact holdsRecast (fun _ => Reply.none) (handleInterruptHolds few)
  | tick => exact holdsRecast (fun _ => Reply.none) (tickHolds few)
  | clearStatistics scope =>
    cases scope with
    | channel i | line i => exact namedHolds few rfl
    | board => exact holdsRecast _ clearBoardHolds
  | _ => exact namedHolds few rfl

end Calls

end SerialAdapter
