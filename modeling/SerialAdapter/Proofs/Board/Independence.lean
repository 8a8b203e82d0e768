import Mathlib.Data.List.Basic
import SerialAdapter.Proofs.Board.Reply
import SerialAdapter.Proofs.Register.Footprint

/-! The order of calls on different channels, and on the two directions of one. A call touches its
own channel and the low part of that channel's registers, so two such calls may change places, and
the tick of the board is the ticks of its channels in any order. Calls on the whole board but the
tick are not considered. -/
namespace SerialAdapter

open Operation

def Register.Reach (i : Nat) (o : UInt16) : Prop :=
  256 * (i + 1) ≤ o.toNat ∧ o.toNat < 256 * (i + 1) + 76

def Access.bytes : Access → List UInt16
  | .read8 o _ | .write8 o _ => [o]
  | .read16 o _ | .write16 o _ => [o, o + 1]

namespace Register

theorem reachWindow {i : Nat} {o : UInt16} (inside : Reach i o) : Window i o := by
  unfold Reach at inside
  unfold Window
  omega

theorem blockReach {i : Nat} {d : Direction} {o : UInt16} (inside : Block i d o) : Reach i o := by
  have start := blockStartLt d
  unfold Block at inside
  unfold Reach
  omega

theorem lineReach {i : Nat} {o : UInt16} (inside : LineBlock i o) : Reach i o := by
  unfold LineBlock at inside
  unfold Reach
  omega

theorem headReach {i k : Nat} (few : i < Limits.maxChannels) (low : k < 76) :
    Reach i (channelBlock i + UInt16.ofNat k) := by
  rw [Reach, offsetNat few (by omega)]
  omega

theorem reachBytes {i : Nat} (few : i < Limits.maxChannels) {a : Access}
    (inside : Reach i a.offset) {o : UInt16} (near : o ∈ a.bytes) : Window i o := by
  have here := reachWindow inside
  have next : Window i (a.offset + 1) := by
    have small : i < 8 := few
    unfold Reach at inside
    have wide : (a.offset + 1).toNat = a.offset.toNat + 1 := by
      rw [UInt16.toNat_add]
      exact Nat.mod_eq_of_lt (by change a.offset.toNat + 1 < 65536; omega)
    rw [Window, wide]
    omega
  cases a with
  | read8 p value | write8 p value =>
    cases List.mem_singleton.mp near
    exact here
  | read16 p value | write16 p value =>
    rcases List.mem_cons.mp near with rfl | near
    · exact here
    · cases List.mem_singleton.mp near
      exact next

end Register

theorem confinedRecast {α β : Type} {i : Nat} {t : UInt16 → Prop} {op : Operation Registers α}
    (h : Confined i t op) (f : α → β) : Confined i t (op.recast f) :=
  ⟨h.frame, fun same => congrArg f (h.answer same), h.seen, h.state, h.tells⟩

section Within

variable {c n size i : Nat} (few : i < Limits.maxChannels)
include few

theorem confinedSendWithin (data : Option Bytes) (length : Nat) (tag : UInt64)
    (ch : Channel n size) :
    Confined i (Register.Block i .transmit) (Call.sendWithin i data length tag ch) :=
  confinedIf (confinedIf (confinedPure _)
    (confinedRecast (confinedSend few data length tag ch) _)) (confinedPure _)

theorem confinedWithin (k : Call c) (t : Thresholds) (ch : Channel n size) :
    Confined i (Register.Reach i) (k.within i t ch) := by
  have sent (data : Option Bytes) (length : Nat) (tag : UInt64) :=
    confinedMono (confinedSendWithin few data length tag ch) fun _ => Register.blockReach
  cases k with
  | enable j d on =>
    refine confinedRecast ?_ _
    exact confinedMono (drivesEnable few d on ch).confined fun _ => Register.blockReach
  | setMode j mode =>
    refine confinedRecast (confinedMono (confinedProgramMode t _) fun o there => ?_) _
    exact there ▸ Register.headReach few (k := 1) (by decide)
  | clearStatistics scope =>
    refine confinedRecast (confinedBind (confinedEmit fun a shown => ?_) fun _ => confinedPure _) _
    cases List.mem_singleton.mp shown
    intro j named
    contradiction
  | send j data tag => exact sent _ _ _
  | sendPrepared j length tag => exact sent _ _ _
  | prepare j data => exact confinedIf (confinedPure _) (confinedPure _)
  | serviceChannel j =>
    refine confinedRecast (confinedMono (confinedServed few ch) fun o served => ?_) _
    rcases served with rfl | rfl | ⟨d, inside⟩
    · exact Register.headReach few (k := 0) (by decide)
    · exact Register.headReach few (k := 2) (by decide)
    · exact Register.blockReach inside
  | tickChannel j =>
    simp only [Call.within]
    exact confinedRecast (confinedMono (confinedTick few t ch) fun _ => Register.lineReach) _
  | _ => exact confinedPure _

end Within

section Apart

variable {c n size : Nat} {α β : Type} {i j : Nat}

theorem swapChannels (hi : i < c) (hj : j < c) (other : i ≠ j) {t t' : UInt16 → Prop}
    {f : Channel.Work n size α} {g : Channel.Work n size β}
    (left : ∀ ch, Confined i t (f ch)) (right : ∀ ch, Confined j t' (g ch))
    (apart : ∀ o, t o → ¬ t' o) (b : Board c n size) :
    Swap (Board.onChannel i hi f) (Board.onChannel j hj g) b := by
  have swap := confinedSwap (left b.channels[i]) (right b.channels[j]) apart b.registers
  -- neither call sees what the other did to its own channel
  have keepsLeft : (b.channels.set j (g b.channels[j] b.registers).answer.2)[i] = b.channels[i] :=
    Vector.getElem_set_ne hj hi (Ne.symm other)
  have keepsRight : (b.channels.set i (f b.channels[i] b.registers).answer.2)[j] = b.channels[j] :=
    Vector.getElem_set_ne hi hj other
  constructor
  · simp only [Board.onChannel, keepsLeft, swap.left]
  · simp only [Board.onChannel, keepsRight, swap.right]
  · simp only [Board.onChannel, keepsLeft, swap.leftSeen]
  · simp only [Board.onChannel, keepsRight, swap.rightSeen]
  · simp only [Board.onChannel, keepsLeft, keepsRight, swap.left, swap.right, swap.state,
      Vector.set_comm _ _ other]

end Apart

section Sides

variable {n size : Nat}

def Channel.side (ch : Channel n size) (d : Direction) : SlotRing n size × Bool :=
  (ch.rings.ring d, ch.isEnabled d)

def Channel.withSide (ch : Channel n size) (d : Direction) (x : SlotRing n size × Bool) :
    Channel n size := { ch with rings := ch.rings.withRing d x.1 }.withEnabled d x.2

structure Sided {α : Type} (i : Nat) (d : Direction) (op : Channel.Work n size α) : Prop where
  confined : ∀ ch, Confined i (Register.Block i d) (op ch)
  reads : ∀ {ch ch' : Channel n size}, ch'.side d = ch.side d → ∀ r, op ch' r =
    ⟨((op ch r).answer.1, ch'.withSide d ((op ch r).answer.2.side d)), (op ch r).state,
      (op ch r).seen⟩

theorem sideOther (ch : Channel n size) {d d' : Direction} (other : d ≠ d')
    (x : SlotRing n size × Bool) : (ch.withSide d x).side d' = ch.side d' := by
  cases d <;> cases d' <;> first | contradiction | rfl

theorem withSideComm (ch : Channel n size) {d d' : Direction} (other : d ≠ d')
    (x y : SlotRing n size × Bool) :
    (ch.withSide d x).withSide d' y = (ch.withSide d' y).withSide d x := by
  cases d <;> cases d' <;> first | contradiction | rfl

section Swap

variable {c : Nat} {α β : Type} {i : Nat} (hi : i < c) {d d' : Direction} (other : d ≠ d')
  {f : Channel.Work n size α} {g : Channel.Work n size β}
  (left : Sided i d f) (right : Sided i d' g)
include other left right

theorem sidedAfter (b : Board c n size) :
    let ch := b.channels[i]
    Board.onChannel i hi f (Board.onChannel i hi g b).state =
      ⟨(f ch b.registers).answer.1,
        { b with
          registers := (f ch (g ch b.registers).state).state
          channels := b.channels.set i
            ((ch.withSide d' ((g ch b.registers).answer.2.side d')).withSide d
              ((f ch b.registers).answer.2.side d)) },
        (f ch b.registers).seen⟩ := by
  intro ch
  have swap := confinedSwap (left.confined ch) (right.confined ch) (Register.blocksApart i other)
    b.registers
  have first : (g ch b.registers).answer.2 = ch.withSide d' ((g ch b.registers).answer.2.side d') :=
    congrArg (·.answer.2) (right.reads rfl b.registers)
  have apart := sideOther ch (Ne.symm other) ((g ch b.registers).answer.2.side d')
  rw [← first] at apart
  have second := left.reads apart (g ch b.registers).state
  rw [swap.left, swap.leftSeen] at second
  simp only [Board.onChannel, Vector.getElem_set_self, Vector.set_set]
  rw [second, ← first]

theorem swapSides (b : Board c n size) :
    Swap (Board.onChannel i hi f) (Board.onChannel i hi g) b := by
  have one := sidedAfter hi other left right b
  have two := sidedAfter hi (Ne.symm other) right left b
  have swap := confinedSwap (left.confined b.channels[i]) (right.confined b.channels[i])
    (Register.blocksApart i other) b.registers
  constructor
  · rw [one]
    rfl
  · rw [two]
    rfl
  · rw [one]
    rfl
  · rw [two]
    rfl
  · rw [one, two]
    simp only [swap.state, withSideComm _ other]

end Swap

end Sides

section Sided

variable {c n size i : Nat} (few : i < Limits.maxChannels)
include few

theorem sidedEnable (t : Thresholds) (j : Nat) (d : Direction) (on : Bool) :
    Sided i d (Call.within i t (.enable j d on : Call c) : Channel.Work n size Reply) := by
  refine ⟨fun ch => confinedRecast (drivesEnable few d on ch).confined _, fun {ch ch'} same r => ?_⟩
  rcases ch with ⟨setup, ⟨receive, transmit⟩, receiving, transmitting, traffic, line, alarms⟩
  cases d <;> cases on <;>
    simp only [Channel.side, Duplex.ring, Prod.mk.injEq] at same <;>
    rcases same with ⟨rfl, -⟩ <;> rfl

theorem sidedSend (data : Option Bytes) (length : Nat) (tag : UInt64) :
    Sided i .transmit (Call.sendWithin i data length tag : Channel.Work n size Reply) := by
  refine ⟨confinedSendWithin few data length tag, fun {ch ch'} same r => ?_⟩
  rcases ch with ⟨setup, ⟨receive, transmit⟩, receiving, transmitting, traffic, line, alarms⟩
  rcases ch' with ⟨setup', ⟨receive', transmit'⟩, receiving', transmitting', traffic', line',
    alarms'⟩
  obtain ⟨rfl, rfl⟩ : transmit' = transmit ∧ transmitting' = transmitting := by
    simpa [Channel.side, Duplex.ring, Channel.isEnabled] using same
  unfold Call.sendWithin
  split
  · split
    · rfl
    · cases queued : transmit'.enqueue data length tag with
      | error cause =>
        simp only [Channel.send, Duplex.send, queued]
        rfl
      | ok taken =>
        simp only [Channel.send, Duplex.send, queued]
        rfl
  · rfl

end Sided

def Call.Transmits (i : Nat) : Call c → Prop
  | .enable j .transmit _ | .send j .. | .sendPrepared j .. => j = i
  | _ => False

section Calls

variable {c n size : Nat} {b : Board c n size} (up : b.initialized = true)
include up

theorem askSwap {i j : Nat} (hi : i < c) (hj : j < c) {k l : Call c} (left : k.channel? = some i)
    (right : l.channel? = some j)
    (swap : Swap (Board.onChannel i hi (k.within i b.thresholds : Channel.Work n size Reply))
      (Board.onChannel j hj (l.within j b.thresholds)) b) : Swap k.ask l.ask b := by
  have first := Call.askWithin hi up left
  have second := Call.askWithin hj up right
  refine swap.congr first second ?_ ?_
  · rw [second]
    exact Call.askWithin hi (b := (Board.onChannel j hj _ b).state) up left
  · rw [first]
    exact Call.askWithin hj (b := (Board.onChannel i hi _ b).state) up right

variable (few : c ≤ Limits.maxChannels)
include few

theorem callsSwap {i j : Fin c} (other : i ≠ j) {k l : Call c} (left : k.channel? = some i.val)
    (right : l.channel? = some j.val) : Swap k.ask l.ask b := by
  have apart : i.val ≠ j.val := fun same => other (Fin.ext same)
  refine askSwap up i.isLt j.isLt left right (swapChannels i.isLt j.isLt apart
    (confinedWithin (Nat.lt_of_lt_of_le i.isLt few) k b.thresholds)
    (confinedWithin (Nat.lt_of_lt_of_le j.isLt few) l b.thresholds) (fun o inside inside' => ?_) b)
  exact Register.windowsApart apart (Register.reachWindow inside) (Register.reachWindow inside')

theorem directionsSwap (i : Fin c) (on : Bool) {k : Call c} (transmits : k.Transmits i) :
    Swap (Call.enable i.val .receive on).ask k.ask b := by
  have low := Nat.lt_of_lt_of_le i.isLt few
  have receive : Sided i .receive
      ((Call.enable i .receive on : Call c).within i b.thresholds : Channel.Work n size Reply) :=
    sidedEnable low b.thresholds i .receive on
  have swap {k : Call c} (named : k.channel? = some i.val)
      (transmit : Sided i .transmit (k.within i.val b.thresholds)) :
      Swap (Call.enable i.val .receive on).ask k.ask b :=
    askSwap up i.isLt i.isLt rfl named (swapSides i.isLt (by decide) receive transmit b)
  cases k with
  | enable j d on' =>
    cases d with
    | receive => exact transmits.elim
    | transmit =>
      cases transmits
      exact swap rfl (sidedEnable low b.thresholds i .transmit on')
  | send j data tag =>
    cases transmits
    exact swap rfl (sidedSend low _ _ _)
  | sendPrepared j length tag =>
    cases transmits
    exact swap rfl (sidedSend low _ _ _)
  | _ => exact transmits.elim

theorem accessesInside {i : Fin c} {k : Call c} (named : k.channel? = some i.val) :
    ∀ a ∈ accesses (k.ask b).seen, ∀ o ∈ a.bytes, Register.Window i o := by
  intro a shown o near
  have low := Nat.lt_of_lt_of_le i.isLt few
  rw [Call.askWithin i.isLt up named] at shown
  obtain ⟨action, there, read⟩ := List.mem_filterMap.mp shown
  have own := (confinedWithin low k b.thresholds (b.channel i)).tells b.registers action there
  cases action with
  | access found =>
    cases read
    exact Register.reachBytes low own near
  | _ => contradiction

end Calls

def Board.tickAll {c n size : Nat} (order : List (Fin c)) : Operation (Board c n size) Unit :=
  List.forM order fun i => (Call.tickChannel i).perform

section Ticks

variable {c n size : Nat} {b : Board c n size}

def Call.tickSeen (b : Board c n size) (i : Fin c) : List Action :=
  ((Call.tickChannel i).ask b).seen

theorem tickAllCons (i : Fin c) (order : List (Fin c)) (b : Board c n size) :
    let first := (Call.tickChannel i).ask b
    Board.tickAll (i :: order) b =
      ⟨(), (Board.tickAll order first.state).state,
        first.seen ++ (Board.tickAll order first.state).seen⟩ := rfl

theorem tickAskUp (up : b.initialized = true) (i : Fin c) :
    ((Call.tickChannel i).ask b).state.initialized = true := by
  rw [Call.askWithin i.isLt up rfl]
  exact up

theorem tickEachAsk (up : b.initialized = true) (i : Fin c) :
    Board.tickEach i b =
      ⟨(), ((Call.tickChannel i).ask b).state, ((Call.tickChannel i).ask b).seen⟩ := by
  rw [Call.askWithin i.isLt up rfl]
  rfl

theorem tickInOrder (up : b.initialized = true) :
    Board.tick b = Board.tickAll (List.finRange c) b := by
  rw [Board.tick, if_pos up]
  generalize List.finRange c = order
  induction order generalizing b with
  | nil => rfl
  | cons i order ih =>
    have rest := ih (tickAskUp up i)
    have split : List.forM (i :: order) Board.tickEach b =
        ⟨(), (List.forM order Board.tickEach (Board.tickEach i b).state).state,
          (Board.tickEach i b).seen ++
            (List.forM order Board.tickEach (Board.tickEach i b).state).seen⟩ := rfl
    rw [split, tickEachAsk up, rest]
    rfl

variable (few : c ≤ Limits.maxChannels)
include few

theorem tickPerm (up : b.initialized = true) {order order' : List (Fin c)}
    (same : order.Perm order') :
    (Board.tickAll order b).state = (Board.tickAll order' b).state := by
  induction same generalizing b with
  | nil => rfl
  | cons i _ ih => exact ih (tickAskUp up i)
  | swap i j rest =>
    by_cases own : j = i
    · rw [own]
    · have swap := callsSwap up few own (k := .tickChannel j) (l := .tickChannel i) rfl rfl
      simp only [tickAllCons, swap.state]
  | trans _ _ first second => exact (first up).trans (second up)

theorem tickAllSeen (up : b.initialized = true) {order : List (Fin c)} (once : order.Nodup) :
    (Board.tickAll order b).seen = order.flatMap (Call.tickSeen b) := by
  induction order generalizing b with
  | nil => rfl
  | cons i order ih =>
    obtain ⟨fresh, once⟩ := List.nodup_cons.mp once
    have rest := ih (tickAskUp up i) once
    have still : order.flatMap (Call.tickSeen ((Call.tickChannel i).ask b).state) =
        order.flatMap (Call.tickSeen b) := by
      refine List.flatMap_congr fun j there => ?_
      have other : i ≠ j := fun same => fresh (same ▸ there)
      exact (callsSwap up few other (k := .tickChannel i) (l := .tickChannel j) rfl rfl).rightSeen
    rw [tickAllCons, rest, still]
    rfl

end Ticks

/-- Calls on different channels may change places, as may switching reception and the calls of the
transmitter on one channel; each keeps to its channel's registers, and a tick of the board is a tick
of each channel in any order. -/
theorem channelsIndependent {c n size : Nat} (few : c ≤ Limits.maxChannels) {b : Board c n size}
    (up : b.initialized = true) :
    (∀ (i j : Fin c) (k l : Call c), i ≠ j → k.channel? = some i.val → l.channel? = some j.val →
      Swap k.ask l.ask b) ∧
    (∀ (i : Fin c) (k : Call c), k.channel? = some i.val →
      ∀ a ∈ accesses (k.ask b).seen, ∀ o ∈ a.bytes,
        0x100 * (i + 1) ≤ o.toNat ∧ o.toNat ≤ 0x100 * (i + 1) + 0xFF) ∧
    (∀ (i : Fin c) (on : Bool) (k : Call c), k.Transmits i →
      Swap (Call.enable i.val .receive on).ask k.ask b) ∧
    Board.tick b = Board.tickAll (List.finRange c) b ∧
    ∀ order : List (Fin c), order.Perm (List.finRange c) →
      (Board.tickAll order b).state = (Board.tick b).state ∧
        (Board.tickAll order b).seen = order.flatMap (Call.tickSeen b) := by
  refine ⟨fun i j k l other left right => callsSwap up few other left right,
    fun i k named a shown o near => ?_,
    fun i on k transmits => directionsSwap up few i on transmits,
    tickInOrder up, fun order same => ⟨?_, ?_⟩⟩
  · have inside := accessesInside up few named a shown o near
    unfold Register.Window at inside
    omega
  · rw [tickInOrder up]
    exact tickPerm few up same
  · exact tickAllSeen few up (same.nodup_iff.mpr (List.nodup_finRange c))

theorem sendAndTickSwap :
    let setup : BoardSetup 2 := { channels := #v[{}, { mode := .e1 }] }
    let fresh : Board 2 3 4 := { registers := .blank (.board 2) }
    let up := (Board.init setup (Placement.regular 0x1000 0x40 3) fresh).state
    let now := ((Call.enable 0 .transmit true).perform up).state
    let send : Call 2 := .send 0 [7, 8] 1
    Swap send.ask (Call.tickChannel 1).ask now ∧
      Swap (Call.enable 0 .receive true).ask send.ask now ∧
      (Board.tickAll [1, 0] now).state = (Board.tick now).state := by
  intro setup fresh up now send
  have on : now.initialized = true := by decide +kernel
  obtain ⟨channels, -, directions, -, ticks⟩ := channelsIndependent (by decide) on
  exact ⟨channels 0 1 send (.tickChannel 1) (by decide) rfl rfl, directions 0 true send rfl,
    (ticks [1, 0] (by decide)).1⟩

end SerialAdapter
