import SerialAdapter.Registers

/-! Bytes of the register window: what is written is read back, and an operation of a channel lives
inside a set of bytes. Such bounds are put together from those of the parts of an operation, and
hold whether or not an access has a side effect. Where two operations live in different bytes,
neither tells which came first. Nothing here says where the registers lie. -/
namespace SerialAdapter

namespace Registers

theorem peekPoke8 (r : Registers) (offset other : UInt16) (value : UInt8) :
    (r.poke8 offset value).peek8 other = if other = offset then value else r.peek8 other := by
  have whole : Memory.size 16 = 65536 := rfl
  simp only [peek8, poke8, Memory.getSet, whole, Nat.mod_eq_of_lt other.toNat_lt,
    Nat.mod_eq_of_lt offset.toNat_lt, UInt16.toNat_inj]

theorem wordToNat (low high : UInt8) : (word low high).toNat = high.toNat * 256 + low.toNat := by
  have hl := low.toNat_lt
  have hh := high.toNat_lt
  have shifted : (high.toUInt16 <<< 8).toNat = high.toNat <<< 8 := by
    have scaled : high.toNat <<< 8 = high.toNat * 256 := Nat.shiftLeft_eq _ _
    rw [UInt16.toNat_shiftLeft, UInt8.toNat_toUInt16]
    change high.toNat <<< 8 % 65536 = _
    omega
  rw [word, UInt16.toNat_or, shifted, UInt8.toNat_toUInt16, Nat.or_comm,
    ← Nat.shiftLeft_add_eq_or_of_lt (by omega : low.toNat < 2 ^ 8), Nat.shiftLeft_eq]

theorem doubleWordToNat (low high : UInt16) :
    (doubleWord low high).toNat = high.toNat * 65536 + low.toNat := by
  have hl := low.toNat_lt
  have hh := high.toNat_lt
  have shifted : (high.toUInt32 <<< 16).toNat = high.toNat <<< 16 := by
    have scaled : high.toNat <<< 16 = high.toNat * 65536 := Nat.shiftLeft_eq _ _
    rw [UInt32.toNat_shiftLeft, UInt16.toNat_toUInt32]
    change high.toNat <<< 16 % 4294967296 = _
    omega
  rw [doubleWord, UInt32.toNat_or, shifted, UInt16.toNat_toUInt32, Nat.or_comm,
    ← Nat.shiftLeft_add_eq_or_of_lt (by omega : low.toNat < 2 ^ 16), Nat.shiftLeft_eq]

theorem wordParts (value : UInt16) : word value.toUInt8 (value >>> 8).toUInt8 = value := by
  have hv := value.toNat_lt
  have high : (value >>> 8).toNat = value.toNat / 256 := by
    rw [UInt16.toNat_shiftRight]
    exact Nat.shiftRight_eq_div_pow _ _
  apply UInt16.toNat_inj.mp
  rw [wordToNat, UInt16.toNat_toUInt8, UInt16.toNat_toUInt8, high]
  omega

theorem doubleWordParts (value : UInt32) :
    doubleWord value.toUInt16 (value >>> 16).toUInt16 = value := by
  have hv := value.toNat_lt
  have high : (value >>> 16).toNat = value.toNat / 65536 := by
    rw [UInt32.toNat_shiftRight]
    exact Nat.shiftRight_eq_div_pow _ _
  apply UInt32.toNat_inj.mp
  rw [doubleWordToNat, UInt32.toNat_toUInt16, UInt32.toNat_toUInt16, high]
  omega

theorem peekPoke16 (r : Registers) (offset value : UInt16) :
    (r.poke16 offset value).peek16 offset = value := by
  simp [peek16, poke16, peekPoke8, wordParts]

theorem peekPoke32 (r : Registers) (offset : UInt16) (value : UInt32) :
    (r.poke32 offset value).peek32 offset = value := by
  have low : (r.poke32 offset value).peek16 offset = value.toUInt16 := by
    have parts := wordParts value.toUInt16
    simpa [peek16, poke32, poke16, peekPoke8, UInt16.add_assoc] using parts
  rw [peek32, low, poke32, peekPoke16, doubleWordParts]

end Registers

open Registers

structure Alike (t : UInt16 → Prop) (r r' : Registers) : Prop where
  wiring : r'.wiring = r.wiring
  bytes : ∀ offset, t offset → r'.peek8 offset = r.peek8 offset

def Access.offset : Access → UInt16
  | .read8 offset _ | .write8 offset _ | .read16 offset _ | .write16 offset _ => offset

def Notice.channel? : Notice → Option Nat
  | .enabled i _ _ | .ringFault i _ | .receiveError i _ _ | .underrun i | .framesSent i _ => some i
  | .boardReady .. | .cleared _ | .intervalClosed _ => none

def Action.channel? : Action → Option Nat
  | .event e => some e.channel
  | .notice n => n.channel?
  | .access _ | .wait _ | .remark _ => none

def about (i : Nat) (seen : List Action) : List Action := seen.filter (·.channel? == some i)

theorem aboutAppend (i : Nat) (first second : List Action) :
    about i (first ++ second) = about i first ++ about i second := List.filter_append _ _

theorem readAbout {β : Type} {i : Nat} {read : Action → Option β}
    (named : ∀ a x, read a = some x → a.channel? = some i) (seen : List Action) :
    (about i seen).filterMap read = seen.filterMap read := by
  induction seen with
  | nil => rfl
  | cons a seen ih =>
    unfold about at ih ⊢
    by_cases own : a.channel? = some i
    · rw [List.filter_cons_of_pos (by simp [own]), List.filterMap_cons, List.filterMap_cons, ih]
    · have none : read a = none := by
        cases told : read a with
        | none => rfl
        | some x => exact (own (named a x told)).elim
      rw [List.filter_cons_of_neg (by simp [own]), ih, List.filterMap_cons_none none]

def Action.Of (i : Nat) (t : UInt16 → Prop) : Action → Prop
  | .access a => t a.offset
  | a => ∀ j ∈ a.channel?, j = i

/-- An operation of channel `i` lives inside a set of bytes: it changes no other, what it answers,
shows and leaves there depends on no other, and it shows nothing of another channel. -/
structure Confined {α : Type} (i : Nat) (t : UInt16 → Prop) (op : Operation Registers α) :
    Prop where
  frame : ∀ r, Alike (fun offset => ¬ t offset) r (op r).state
  answer : ∀ {r r'}, Alike t r r' → (op r').answer = (op r).answer
  seen : ∀ {r r'}, Alike t r r' → (op r').seen = (op r).seen
  state : ∀ {r r'}, Alike t r r' → Alike t (op r).state (op r').state
  tells : ∀ r, ∀ a ∈ (op r).seen, a.Of i t

section Confined

variable {α β : Type} {i : Nat} {t t' : UInt16 → Prop}

theorem Alike.refl (r : Registers) : Alike t r r := ⟨rfl, fun _ _ => rfl⟩

theorem Alike.trans {r r' r'' : Registers} (h : Alike t r r') (h' : Alike t r' r'') :
    Alike t r r'' :=
  ⟨h'.wiring.trans h.wiring, fun o inside => (h'.bytes o inside).trans (h.bytes o inside)⟩

theorem Alike.mono {r r' : Registers} (h : Alike t r r') (fewer : ∀ o, t' o → t o) :
    Alike t' r r' := ⟨h.wiring, fun o inside => h.bytes o (fewer o inside)⟩

theorem Action.Of.mono {a : Action} (h : a.Of i t) (wider : ∀ o, t o → t' o) : a.Of i t' := by
  cases a with
  | access a => exact wider _ h
  | event e => exact h
  | notice n => exact h
  | wait micros => exact h
  | remark text => exact h

theorem confinedMono {op : Operation Registers α} (h : Confined i t op) (wider : ∀ o, t o → t' o) :
    Confined i t' op := by
  have frame (r : Registers) : Alike (fun o => ¬ t' o) r (op r).state :=
    (h.frame r).mono fun o out inside => out (wider o inside)
  refine ⟨frame, fun same => h.answer (same.mono wider), fun same => h.seen (same.mono wider),
    fun {r r'} same => ⟨(h.state (same.mono wider)).wiring, fun o inside => ?_⟩,
    fun r a shown => (h.tells r a shown).mono wider⟩
  -- what the operation does not own it leaves as the two windows had it
  by_cases own : t o
  · exact (h.state (same.mono wider)).bytes o own
  · exact ((h.frame r').bytes o own).trans
      ((same.bytes o inside).trans ((h.frame r).bytes o own).symm)

theorem confinedPure (a : α) : Confined i t (pure a : Operation Registers α) :=
  ⟨fun _ => .refl _, fun _ => rfl, fun _ => rfl, fun same => same, fun _ _ shown => by cases shown⟩

theorem confinedEmit {actions : List Action} (own : ∀ a ∈ actions, a.Of i t) :
    Confined i t (Operation.emit actions) :=
  ⟨fun _ => .refl _, fun _ => rfl, fun _ => rfl, fun same => same, fun _ => own⟩

theorem confinedBind {op : Operation Registers α} {next : α → Operation Registers β}
    (first : Confined i t op) (second : ∀ a, Confined i t (next a)) :
    Confined i t (op >>= next) where
  frame r := (first.frame r).trans ((second (op r).answer).frame (op r).state)
  answer {r r'} same := by
    change (next (op r').answer (op r').state).answer = _
    rw [first.answer same]
    exact (second _).answer (first.state same)
  seen {r r'} same := by
    change (op r').seen ++ (next (op r').answer (op r').state).seen = _
    rw [first.answer same, first.seen same, (second _).seen (first.state same)]
    rfl
  state {r r'} same := by
    change Alike t _ (next (op r').answer (op r').state).state
    rw [first.answer same]
    exact (second _).state (first.state same)
  tells r a shown := by
    rcases List.mem_append.mp shown with early | late
    · exact first.tells r a early
    · exact (second _).tells _ a late

theorem confinedNews {actions : List Action} (own : ∀ a ∈ actions, a.channel? = some i) :
    Confined i t (Operation.emit actions) := by
  refine confinedEmit fun a shown => ?_
  have channel := own a shown
  cases a with
  | access a => contradiction
  | event e => exact fun j named => (Option.some.inj (channel.symm.trans named)).symm
  | notice n => exact fun j named => (Option.some.inj (channel.symm.trans named)).symm
  | wait micros => contradiction
  | remark text => contradiction

theorem confinedIf {p : Prop} [Decidable p] {yes no : Operation Registers α}
    (left : Confined i t yes) (right : Confined i t no) : Confined i t (if p then yes else no) := by
  split
  · exact left
  · exact right

theorem alikePoke8 {r r' : Registers} (same : Alike t r r') (offset : UInt16) (value : UInt8) :
    Alike t (r.poke8 offset value) (r'.poke8 offset value) := by
  refine ⟨same.wiring, fun o inside => ?_⟩
  rw [peekPoke8, peekPoke8, same.bytes o inside]

theorem outsidePoke8 {offset : UInt16} (inside : t offset) (r : Registers) (value : UInt8) :
    Alike (fun o => ¬ t o) r (r.poke8 offset value) := by
  refine ⟨rfl, fun o out => ?_⟩
  have apart : o ≠ offset := fun same => out (same ▸ inside)
  rw [peekPoke8, if_neg apart]

theorem alikePeek16 {r r' : Registers} (same : Alike t r r') {offset : UInt16} (low : t offset)
    (high : t (offset + 1)) : r'.peek16 offset = r.peek16 offset := by
  rw [peek16, peek16, same.bytes _ low, same.bytes _ high]

theorem alikePeek32 {r r' : Registers} (same : Alike t r r') {offset : UInt16}
    (bytes : ∀ k < 4, t (offset + UInt16.ofNat k)) : r'.peek32 offset = r.peek32 offset := by
  have b0 : t offset := by simpa using bytes 0 (by decide)
  have b3 : t (offset + 2 + 1) := by simpa [UInt16.add_assoc] using bytes 3 (by decide)
  have low : r'.peek16 offset = r.peek16 offset := alikePeek16 same b0 (bytes 1 (by decide))
  have high : r'.peek16 (offset + 2) = r.peek16 (offset + 2) :=
    alikePeek16 same (bytes 2 (by decide)) b3
  rw [peek32, peek32, low, high]

theorem confinedRead8 {offset : UInt16} (inside : t offset) : Confined i t (read8 offset) where
  frame _ := .refl _
  answer same := same.bytes _ inside
  seen same := by simp only [read8, same.bytes _ inside]
  state same := same
  tells r a shown := by
    cases List.mem_singleton.mp shown
    exact inside

theorem confinedWrite8 {offset : UInt16} (inside : t offset) (value : UInt8) :
    Confined i t (write8 offset value) where
  frame r := outsidePoke8 inside r _
  answer _ := rfl
  seen _ := rfl
  state same := by
    simp only [write8, same.wiring, same.bytes _ inside]
    exact alikePoke8 same _ _
  tells r a shown := by
    cases List.mem_singleton.mp shown
    exact inside

theorem confinedRead16 {offset : UInt16} (low : t offset) (high : t (offset + 1)) :
    Confined i t (read16 offset) where
  frame r := by
    simp only [read16]
    split
    · exact (outsidePoke8 low r _).trans (outsidePoke8 high _ _)
    · exact .refl _
  answer same := alikePeek16 same low high
  seen same := by simp only [read16, alikePeek16 same low high]
  state same := by
    simp only [read16, same.wiring]
    split
    · exact alikePoke8 (alikePoke8 same _ _) _ _
    · exact same
  tells r a shown := by
    cases List.mem_singleton.mp shown
    exact low

theorem confinedWrite16 {offset : UInt16} (low : t offset) (high : t (offset + 1))
    (value : UInt16) : Confined i t (write16 offset value) where
  frame r := (outsidePoke8 low r _).trans (outsidePoke8 high _ _)
  answer _ := rfl
  seen _ := rfl
  state same := alikePoke8 (alikePoke8 same _ _) _ _
  tells r a shown := by
    cases List.mem_singleton.mp shown
    exact low

theorem confinedRead32 {offset : UInt16} (bytes : ∀ k < 4, t (offset + UInt16.ofNat k)) :
    Confined i t (read32 offset) := by
  have b0 : t offset := by simpa using bytes 0 (by decide)
  have b3 : t (offset + 2 + 1) := by simpa [UInt16.add_assoc] using bytes 3 (by decide)
  exact confinedBind (confinedRead16 b0 (bytes 1 (by decide))) fun _ =>
    confinedBind (confinedRead16 (bytes 2 (by decide)) b3) fun _ => confinedPure _

theorem confinedWrite32 {offset : UInt16} (bytes : ∀ k < 4, t (offset + UInt16.ofNat k))
    (value : UInt32) : Confined i t (write32 offset value) := by
  have b0 : t offset := by simpa using bytes 0 (by decide)
  have b3 : t (offset + 2 + 1) := by simpa [UInt16.add_assoc] using bytes 3 (by decide)
  exact confinedBind (confinedWrite16 b0 (bytes 1 (by decide)) _) fun _ =>
    confinedWrite16 (bytes 2 (by decide)) b3 _

end Confined

namespace Operation

variable {σ α β : Type}

structure Swap (f : Operation σ α) (g : Operation σ β) (s : σ) : Prop where
  left : (f (g s).state).answer = (f s).answer
  right : (g (f s).state).answer = (g s).answer
  leftSeen : (f (g s).state).seen = (f s).seen
  rightSeen : (g (f s).state).seen = (g s).seen
  state : (g (f s).state).state = (f (g s).state).state

theorem Swap.congr {f f' : Operation σ α} {g g' : Operation σ β} {s : σ} (h : Swap f' g' s)
    (left : f s = f' s) (right : g s = g' s) (later : f (g s).state = f' (g s).state)
    (after : g (f s).state = g' (f s).state) : Swap f g s := by
  rw [right] at later
  rw [left] at after
  constructor
  · rw [right, later, left, h.left]
  · rw [left, after, right, h.right]
  · rw [right, later, left, h.leftSeen]
  · rw [left, after, right, h.rightSeen]
  · rw [left, after, right, later, h.state]

end Operation

theorem Memory.getMod {depth : Nat} (m : Memory depth) (i : Nat) :
    m.get (i % size depth) = m.get i := by
  induction m generalizing i with
  | cell byte => rfl
  | @fork depth even odd evens odds =>
    obtain ⟨low, half⟩ := (halves depth (i % size (depth + 1)) i).mp (Nat.mod_mod _ _)
    rw [get, get, low, ← evens, ← odds, half, evens, odds]

theorem Registers.ext {r r' : Registers} (wiring : r.wiring = r'.wiring)
    (bytes : ∀ o, r.peek8 o = r'.peek8 o) : r = r' := by
  have memory : r.memory = r'.memory := by
    refine Memory.ext fun i => ?_
    have here := bytes (UInt16.ofNat i)
    have wraps : (UInt16.ofNat i).toNat = i % Memory.size 16 := UInt16.toNat_ofNat'
    simpa only [Registers.peek8, wraps, Memory.getMod] using here
  cases r
  cases r'
  simp_all

section Confined

variable {α β : Type} {i j : Nat} {t t' : UInt16 → Prop} {f : Operation Registers α}
  {g : Operation Registers β} (hf : Confined i t f) (hg : Confined j t' g)
  (apart : ∀ o, t o → ¬ t' o)
include hf hg apart

theorem confinedSwap (r : Registers) : Operation.Swap f g r := by
  have later : Alike t r (g r).state := (hg.frame r).mono apart
  have after : Alike t' r (f r).state := (hf.frame r).mono fun o own other => apart o other own
  have first := hf.state later
  have second := hg.state after
  refine ⟨hf.answer later, hg.answer after, hf.seen later, hg.seen after, ?_⟩
  have leftWiring := (hg.frame (f r).state).wiring.trans (hf.frame r).wiring
  have rightWiring := (hf.frame (g r).state).wiring.trans (hg.frame r).wiring
  refine Registers.ext (leftWiring.trans rightWiring.symm) fun o => ?_
  -- a byte belongs to one of the two, or is left as it was
  by_cases left : t o
  · have still := (hg.frame (f r).state).bytes o (apart o left)
    exact still.trans (first.bytes o left).symm
  · have still := (hf.frame (g r).state).bytes o left
    by_cases right : t' o
    · exact (second.bytes o right).trans still.symm
    · have untouched := (hg.frame (f r).state).bytes o right
      exact (untouched.trans ((hf.frame r).bytes o left)).trans
        (still.trans ((hg.frame r).bytes o right)).symm

end Confined

end SerialAdapter
