import SerialAdapter.Proofs.Shared.Siege
import SerialAdapter.Reaction

/-! The interrupt handler of a shared board beside that of the board alone. While the hooks call
nothing, holding events back until the lock is released changes neither what the hooks hear nor what
is done to the registers. A hook may say anything on an event, so what is said tells events apart. -/
namespace SerialAdapter

variable {c n size : Nat} {α β : Type}

def Action.remark? : Action → Option String
  | .remark text => some text
  | _ => none

def spoken (seen : List Action) : List String := seen.filterMap Action.remark?

def quiet (seen : List Action) : List Action := seen.filter (·.event?.isNone)

inductive Program.Inert : Program → Prop where
  | done : Inert .done
  | remark {next : Program} (text : String) (rest : Inert next) : Inert (.remark text next)

def Program.lines : Program → List String
  | .remark text next => text :: next.lines
  | _ => []

def HookTable.Inert (t : Hooks) : Prop := ∀ k hook e, t.get k = some hook → (hook e).Inert

def HookTable.said (t : Hooks) (es : List Event) : List String :=
  (t.heard es).flatMap fun h => (h.1 h.2).lines

theorem spokenAppend (first second : List Action) :
    spoken (first ++ second) = spoken first ++ spoken second := List.filterMap_append

theorem accessesAppend (first second : List Action) :
    accesses (first ++ second) = accesses first ++ accesses second := List.filterMap_append

theorem saidAppend (t : Hooks) (first second : List Event) :
    t.said (first ++ second) = t.said first ++ t.said second := by
  simp [HookTable.said, HookTable.heard]

theorem spokenRemarks (lines : List String) : spoken (lines.map .remark) = lines := by
  induction lines with
  | nil => rfl
  | cons text lines ih => simpa [spoken, Action.remark?] using ih

theorem accessesRemarks (lines : List String) : accesses (lines.map .remark) = [] := by
  simp [accesses, Action.access?]

theorem quietReads (read : Action → Option α) (apart : ∀ e, read (.event e) = none)
    (seen : List Action) : (quiet seen).filterMap read = seen.filterMap read := by
  induction seen with
  | nil => rfl
  | cons a seen ih =>
    unfold quiet at ih ⊢
    cases a with
    | event e => simpa [Action.event?, apart] using ih
    | _ => rw [List.filter_cons_of_pos rfl, List.filterMap_cons, List.filterMap_cons, ih]

def Wordless {σ : Type} (op : Operation σ α) : Prop := ∀ s, spoken (op s).seen = []

section Wordless

variable {σ : Type} {i : Nat}

theorem wordlessPure (a : α) : Wordless (pure a : Operation σ α) := fun _ => rfl

theorem wordlessBind {op : Operation σ α} {next : α → Operation σ β} (first : Wordless op)
    (rest : ∀ a, Wordless (next a)) : Wordless (op >>= next) := by
  intro s
  rw [Operation.bindApply, spokenAppend, first s, rest]
  rfl

theorem wordlessIf {p : Prop} [Decidable p] {yes no : Operation σ α} (left : Wordless yes)
    (right : Wordless no) : Wordless (if p then yes else no) := by
  split
  · exact left
  · exact right

theorem wordlessOwn {seen : List Action} (own : ∀ a ∈ seen, a.channel? = some i) :
    Wordless (σ := σ) (Operation.emit seen) := by
  refine fun _ => List.filterMap_eq_nil_iff.mpr fun a shown => ?_
  have channel := own a shown
  cases a with
  | remark text => contradiction
  | _ => rfl

theorem wordlessStartReceive (x : Duplex n size) : Wordless (x.startReceive i) := fun _ => rfl

theorem wordlessReceive (x : Duplex n size) (t : Traffic) : Wordless (x.serviceReceive i t) := by
  rw [Duplex.serviceReceiveEq]
  refine wordlessBind (fun _ => rfl) fun status => wordlessBind (fun _ => rfl) fun _ => ?_
  refine wordlessIf ?_ (wordlessBind (fun _ => rfl) fun current => ?_)
  · exact wordlessBind (fun _ => rfl) fun _ => wordlessBind (wordlessStartReceive x) fun _ =>
      wordlessPure _
  · refine wordlessBind (wordlessOwn (receptionActionsOwn i _)) fun _ => wordlessIf ?_ ?_
    · exact wordlessBind (fun _ => rfl) fun _ => wordlessBind (fun _ => rfl) fun _ => wordlessPure _
    · exact wordlessPure _

theorem wordlessTransmit (x : Duplex n size) (t : Traffic) : Wordless (x.serviceTransmit i t) := by
  rw [Duplex.serviceTransmitEq]
  refine wordlessBind (fun _ => rfl) fun status => wordlessBind (fun _ => rfl) fun _ => ?_
  refine wordlessBind (wordlessOwn (underrunNewsOwn i status)) fun _ => ?_
  refine wordlessBind (fun _ => rfl) fun current => ?_
  exact wordlessBind (wordlessOwn (transmitNewsOwn i _ _)) fun _ => wordlessPure _

theorem wordlessService (ch : Channel n size) : Wordless (ch.service i) := by
  rw [Channel.serviceEq]
  refine wordlessBind (fun _ => rfl) fun byte => wordlessIf ?_ (wordlessPure _)
  refine wordlessBind (fun _ => rfl) fun _ => wordlessBind ?_ fun ch => wordlessBind ?_ fun ch =>
    wordlessBind ?_ fun _ => wordlessPure _
  · exact wordlessIf (wordlessBind (wordlessReceive _ _) fun _ => wordlessPure _) (wordlessPure _)
  · exact wordlessIf (wordlessBind (wordlessTransmit _ _) fun _ => wordlessPure _) (wordlessPure _)
  · exact wordlessIf (fun _ => rfl) (wordlessPure _)

theorem wordlessPending (i : Fin c) :
    Wordless (Board.servicePending i : Operation (Board c n size) Unit) := by
  have serviced (ch : Channel n size) : Wordless (do
      let ch ← ch.service i
      return ((), ch)) := wordlessBind (wordlessService ch) fun _ => wordlessPure _
  exact fun b => serviced b.channels[i] b.registers

end Wordless

namespace Shared

abbrev unheld (b : Board c n size) (t : Hooks) : Shared c n size := ⟨⟨b, false⟩, ⟨t, false⟩⟩

theorem bindOk {first : Session c n size α} (next : α → Session c n size β) {s : Shared c n size}
    {one : Outcome (Shared c n size) α} {two : Outcome (Shared c n size) β}
    (begun : first s = .ok one) (ended : next one.answer one.state = .ok two) :
    (first >>= next) s = .ok ⟨two.answer, two.state, one.seen ++ two.seen⟩ := by
  change Session.bind first next s = _
  simp only [Session.bind, begun, ended]

theorem consOk (step : β → Session c n size Unit) {a : β} {l : List β} {s : Shared c n size}
    {one two : Outcome (Shared c n size) Unit} (begun : step a s = .ok one)
    (ended : List.forM l step one.state = .ok two) :
    List.forM (a :: l) step s = .ok ⟨(), two.state, one.seen ++ two.seen⟩ :=
  bindOk (fun _ => List.forM l step) begun ended

theorem lockedOk (op : Operation (Board c n size) α) (b : Board c n size) (t : Hooks) :
    locked op (unheld b t) = .ok ⟨(op b).answer, unheld (op b).state t, (op b).seen⟩ := by
  rw [Siege.lockedApply]
  rfl

def hear (interrupt : Session c n size UInt8) (h : Hook × Event) : Session c n size Unit :=
  run interrupt (h.1 h.2)

theorem batched {b : Board c n size} (h : b.Sound) (i : Fin c) :
    ∃ batch : Batch n size, batch.events = events (Board.serviceChannel i b).seen ∧
      serviceBatch i b = ⟨.ok batch, (Board.serviceChannel i b).state,
        quiet (Board.serviceChannel i b).seen⟩ := by
  obtain ⟨answer, -, seen⟩ := serviceChannelDone h.up i
  obtain ⟨batch, told⟩ := serviceTelling (Nat.lt_of_lt_of_le i.isLt h.few) h.room (h.channels i)
    b.registers
  have replays : batch.events = events (Board.serviceChannel i b).seen := by
    rw [seen]
    exact told.events.symm
  have kept : Batch.recordAll { channel := i } (events (Board.serviceChannel i b).seen) = batch := by
    rw [← replays, ← told.channel]
    exact Batch.recordAllSome (Batch.replayed (toldFits (h.channels i) told))
  refine ⟨batch, replays, ?_⟩
  unfold serviceBatch
  dsimp only
  rw [answer, kept]
  rfl

theorem served {b : Board c n size} (h : b.Sound) (t : Hooks) (i : Fin c)
    {interrupt : Session c n size UInt8} {done : Outcome (Shared c n size) Unit}
    (heard : List.forM (t.heard (events (Board.serviceChannel i b).seen)) (hear interrupt)
      (unheld (Board.serviceChannel i b).state t) = .ok done) :
    serviceAndDeliver interrupt i (unheld b t) =
      .ok ⟨(), done.state, quiet (Board.serviceChannel i b).seen ++ done.seen⟩ := by
  obtain ⟨batch, replays, recorded⟩ := batched h i
  have begun := lockedOk (serviceBatch (i : Nat)) b t
  rw [recorded] at begun
  refine bindOk _ begun ?_
  dsimp only
  cases empty : batch.isEmpty with
  | true =>
    rw [← replays, (Batch.emptyEvents batch).mp empty] at heard
    exact heard
  | false =>
    rw [replays]
    have table : readHooks (unheld (Board.serviceChannel i b).state t) =
      .ok ⟨t, unheld (Board.serviceChannel i b).state t, []⟩ := rfl
    exact bindOk _ table heard

theorem handled {b : Board c n size} {t : Hooks} {depth : Nat} {after : Shared c n size}
    {seen : List Action} (attended :
      List.forM (Board.pendingChannels c (Board.takePending b).answer)
        (serviceAndDeliver (handleInterrupt depth)) (unheld (Board.takePending b).state t) =
        .ok ⟨(), after, seen⟩) :
    handleInterrupt (depth + 1) (unheld b t) =
      .ok ⟨(Board.takePending b).answer, after, (Board.takePending b).seen ++ seen⟩ := by
  have answered : (pure (Board.takePending b).answer : Session c n size UInt8) after =
    .ok ⟨(Board.takePending b).answer, after, []⟩ := rfl
  have ended := bindOk (fun _ => pure (Board.takePending b).answer) attended answered
  rw [List.append_nil] at ended
  exact bindOk (fun pending => do
    List.forM (Board.pendingChannels c pending) (serviceAndDeliver (handleInterrupt depth))
    return pending) (lockedOk Board.takePending b t) ended

theorem inertRun {program : Program} (inert : program.Inert) (interrupt : Session c n size UInt8)
    (s : Shared c n size) : run interrupt program s = .ok ⟨(), s, program.lines.map .remark⟩ := by
  induction inert with
  | done => rfl
  | @remark next text rest ih =>
    have begun : Session.emit [.remark text] s = .ok ⟨(), s, [.remark text]⟩ := rfl
    exact bindOk (fun _ => run interrupt next) begun ih

theorem inertHeard {t : Hooks} (inert : t.Inert) (interrupt : Session c n size UInt8)
    (es : List Event) (s : Shared c n size) :
    List.forM (t.heard es) (hear interrupt) s =
      .ok ⟨(), s, (t.said es).map .remark⟩ := by
  induction es with
  | nil => rfl
  | cons e es ih =>
    cases found : t.get e.kind with
    | none =>
      have skip : t.heard (e :: es) = t.heard es := by simp [HookTable.heard, found]
      rw [HookTable.said, skip]
      exact ih
    | some hook =>
      have first : t.heard (e :: es) = (hook, e) :: t.heard es := by simp [HookTable.heard, found]
      rw [HookTable.said, first, List.flatMap_cons, List.map_append]
      have begun : hear interrupt (hook, e) s = _ := inertRun (inert _ hook e found) interrupt s
      exact consOk (hear interrupt) begun ih

theorem servicedPending {b : Board c n size} (up : b.initialized = true) (i : Fin c) :
    (Board.serviceChannel i b).state = (Board.servicePending i b).state ∧
      (Board.serviceChannel i b).seen = (Board.servicePending i b).seen := by
  have low : (i : Nat) < c := i.isLt
  have high : ¬ c ≤ (i : Nat) := by omega
  unfold Board.serviceChannel Board.change Board.checked Board.obstacle?
  simp only [up, Bool.not_true, Bool.false_eq_true, ↓reduceIte, high, low, ↓reduceDIte]
  exact ⟨rfl, List.append_nil _⟩

theorem relayed {t : Hooks} (inert : t.Inert) (interrupt : Session c n size UInt8)
    (l : List (Fin c)) {b : Board c n size} (h : b.Sound) :
    let direct := List.forM l Board.servicePending b
    ∃ seen, List.forM l (serviceAndDeliver interrupt) (unheld b t) =
        .ok ⟨(), unheld direct.state t, seen⟩ ∧
      accesses seen = accesses direct.seen ∧ spoken seen = t.said (events direct.seen) := by
  induction l generalizing b with
  | nil => exact ⟨[], rfl, rfl, rfl⟩
  | cons i l ih =>
    obtain ⟨state, seen⟩ := servicedPending h.up i
    have sound : (Board.servicePending i b).state.Sound := state ▸ h.call (.serviceChannel i)
    have first := served h t i (inertHeard inert interrupt _ _)
    rw [state, seen] at first
    obtain ⟨more, rest, reads, speaks⟩ := ih sound
    refine ⟨_, consOk _ first rest, ?_, ?_⟩
    · have same := quietReads Action.access? (fun _ => rfl)
        (Board.servicePending i b).seen
      simp only [accessesAppend, reads, accessesRemarks, List.append_nil]
      exact (congrArg (· ++ _) same).trans (accessesAppend _ _).symm
    · have same := quietReads Action.remark? (fun _ => rfl)
        (Board.servicePending i b).seen
      have mute : spoken (quiet (Board.servicePending i b).seen) = [] :=
        same.trans (wordlessPending i b)
      simp only [spokenAppend, mute, spokenRemarks, speaks, List.nil_append]
      rw [← saidAppend, ← eventsAppend]
      rfl

end Shared

open Shared (unheld)

/-- On any board, in whatever state its hardware is, the handler with its batches does what the
board's own handler does, and the hooks hear the same events in the same order. -/
theorem batchedAsDirect (registers : Registers) (strikes : List (Strike c n size)) {t : Hooks}
    (inert : t.Inert) (depth : Nat) :
    let b := run Board.suffer ({ registers := registers } : Board c n size) strikes
    let direct := Board.handleInterrupt b
    ∃ done, Shared.handleInterrupt (depth + 1) (unheld b t) = .ok done ∧
      done.answer = (Board.takePending b).answer ∧
      done.state = unheld direct.state t ∧
      accesses done.seen = accesses direct.seen ∧
      spoken done.seen = t.said (events direct.seen) := by
  intro b direct
  have reached : ∃ seen, List.forM (Board.pendingChannels c (Board.takePending b).answer)
        (Shared.serviceAndDeliver (Shared.handleInterrupt depth)) (unheld (Board.takePending b).state t) =
        .ok ⟨(), unheld direct.state t, seen⟩ ∧
      accesses ((Board.takePending b).seen ++ seen) = accesses direct.seen ∧
      spoken ((Board.takePending b).seen ++ seen) = t.said (events direct.seen) := by
    cases up : b.initialized with
    | false =>
      have taken : Board.takePending b = ⟨0, b, []⟩ := takePendingDown up
      have idle : Board.pendingChannels c 0 = [] := by simp [Board.pendingChannels]
      have still : direct = ⟨(), b, []⟩ := handleInterruptDown up
      rw [taken, still, idle]
      exact ⟨[], rfl, rfl, rfl⟩
    | true =>
      have sound := sufferUp registers strikes up
      obtain ⟨seen, all, reads, speaks⟩ := Shared.relayed inert (Shared.handleInterrupt depth)
        (Board.pendingChannels c (Board.takePending b).answer) (sound.call .takePending)
      have first : spoken (Board.takePending b).seen = [] ∧
          events (Board.takePending b).seen = [] := by
        unfold Board.takePending
        rw [if_pos up]
        simp only [Board.onRegisters, Operation.bindApply]
        split <;> exact ⟨rfl, rfl⟩
      refine ⟨seen, all, ?_, ?_⟩
      · rw [accessesAppend, reads]
        exact (accessesAppend _ _).symm
      · rw [spokenAppend, first.1, speaks]
        have whole : events direct.seen = events (Board.takePending b).seen ++ _ :=
          eventsAppend _ _
        rw [whole, first.2]
        rfl
  obtain ⟨seen, all, reads, speaks⟩ := reached
  exact ⟨_, Shared.handled all, rfl, rfl, reads, speaks⟩

theorem fourEventsRelayed :
    let place := Placement.regular 0 64 3
    let stray := ((((((Registers.blank (Wiring.board 1)).poke8 Register.boardInterrupts 1).poke8
      (Register.interrupts 0) 7).poke8 (Register.status 0 .transmit) 0x60).poke32
      (Register.current 0 .receive) 16).poke32 (Register.current 0 .transmit) 272).poke8
      (Register.modem 0) 1
    let strikes : List (Strike 1 3 4) :=
      [.call (.init {} place), .call (.enable 0 .transmit true), .call (.send 0 [1, 2, 3] 7),
        .call (.enable 0 .receive true), .noise (.registers 1 3 4 stray)]
    let b := run Board.suffer { registers := .blank (Wiring.board 1) } strikes
    let say : Hook := fun e => .remark (Trace.event e) .done
    let es : List Event := [.failed 0 .overflow, .failed 0 .underrun, .sent 0 7 3,
      .modemChanged 0 ⟨true, false⟩]
    ∃ done, Shared.handleInterrupt 1 (unheld b ⟨some say, some say, some say, some say⟩) =
        .ok done ∧ done.answer = 1 ∧ spoken done.seen = es.map Trace.event := by
  intro place stray strikes b say es
  have inert : HookTable.Inert ⟨some say, some say, some say, some say⟩ := by
    intro k hook e found
    have same : hook = say := by cases k <;> exact (Option.some.inj found).symm
    rw [same]
    exact .remark _ .done
  obtain ⟨done, ok, answer, -, -, speaks⟩ :=
    batchedAsDirect (.blank (Wiring.board 1)) strikes inert 0
  have taken : (Board.takePending b).answer = 1 := by decide +kernel
  have told : events (Board.handleInterrupt b).seen = es := by decide +kernel
  refine ⟨done, ok, answer.trans taken, speaks.trans ?_⟩
  rw [told]
  rfl

end SerialAdapter
