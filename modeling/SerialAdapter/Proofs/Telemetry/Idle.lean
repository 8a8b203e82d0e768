import SerialAdapter.Proofs.Telemetry.Run

/-! Seconds of a channel that has no line interface at the time. They answer nothing and count
nothing, and outside a settle window they may as well not have been recorded. Inside one they do
matter: the window gets shorter, so that a line that is switched on before its end is counted too
early. Inputs come with a mark that says whether to leave them out. Only the bare monitor can be
used like this; a channel records no such seconds. -/
namespace SerialAdapter.Telemetry

def Input.isIdle : Input → Bool
  | .second mode .. => !mode.isLine
  | _ => false

namespace Monitor

def answer : Input → Monitor → Option Verdict
  | .second mode crc4 s t, m => (m.record mode crc4 s t).1
  | _, _ => none

theorem idleSecond {mode : ChannelMode} (idle : mode.isLine = false) (crc4 : Bool) (s : Sample)
    (t : Thresholds) (m : Monitor) :
    m.record mode crc4 s t = (none, if m.isSettling then m.resync (m.settling - 1) else m) := by
  unfold record
  split
  · rfl
  · cases mode <;> first | rfl | contradiction

theorem idleQuiet {m : Monitor} {x : Input} (idle : x.isIdle = true)
    (quiet : m.isSettling = false) : m.take x = m := by
  cases x with
  | second mode crc4 s t =>
    have off : mode.isLine = false := by simpa [Input.isIdle] using idle
    rw [take, idleSecond off, quiet]
    rfl
  | resync k => contradiction
  | clear => contradiction

end Monitor

abbrev Marked := Input × Bool

namespace Marked

def meet (x : Marked) (m : Monitor) : Monitor := m.take x.1

def spare (inputs : List Marked) : List Marked := inputs.filter (!·.2)

def answers (m : Monitor) (inputs : List Marked) : List (Option Verdict) :=
  (history meet m inputs).filterMap fun e =>
    if e.move.2 then none else some (e.before.answer e.move.1)

def Passing (m : Monitor) (inputs : List Marked) : Prop :=
  ∀ e ∈ history meet m inputs, e.move.2 = true →
    e.move.1.isIdle = true ∧ e.before.isSettling = false

instance (m : Monitor) (inputs : List Marked) : Decidable (Passing m inputs) :=
  inferInstanceAs (Decidable (∀ e ∈ history meet m inputs, e.move.2 = true →
    e.move.1.isIdle = true ∧ e.before.isSettling = false))

variable {m : Monitor} {inputs : List Marked}

theorem answersCons (x : Marked) : answers m (x :: inputs) =
    (if x.2 then [] else [m.answer x.1]) ++ answers (meet x m) inputs := by
  rcases x with ⟨x, _ | _⟩ <;> rfl

theorem sparedSame (passing : Passing m inputs) :
    run meet m (spare inputs) = run meet m inputs ∧
      answers m (spare inputs) = answers m inputs := by
  induction inputs generalizing m with
  | nil => exact ⟨rfl, rfl⟩
  | cons x inputs ih =>
    obtain ⟨first, later⟩ := List.forall_mem_cons.mp passing
    obtain ⟨after, rest⟩ := ih later
    cases marked : x.2 with
    | true =>
      obtain ⟨idle, quiet⟩ := first marked
      have same : meet x m = m := Monitor.idleQuiet idle quiet
      have left : spare (x :: inputs) = spare inputs := List.filter_cons_of_neg (by simp [marked])
      rw [left, answersCons, run, same, marked]
      rw [same] at after rest
      exact ⟨after, rest⟩
    | false =>
      have stays : spare (x :: inputs) = x :: spare inputs :=
        List.filter_cons_of_pos (by simp [marked])
      rw [stays, answersCons, answersCons, rest]
      exact ⟨after, rfl⟩

end Marked

/-- An idle second answers nothing, and all that it can change is an open settle window. Leaving out
any idle seconds outside the windows changes no other answer and nothing of the monitor. -/
theorem idleSecondsPassed (inputs : List Marked) :
    (∀ (m : Monitor) mode crc4 s t, mode.isLine = false →
      m.record mode crc4 s t =
        (none, if m.isSettling then m.resync (m.settling - 1) else m)) ∧
    (Marked.Passing {} inputs →
      run Marked.meet {} (Marked.spare inputs) = run Marked.meet {} inputs ∧
      Marked.answers {} (Marked.spare inputs) = Marked.answers {} inputs) :=
  ⟨fun m _ crc4 s t idle => m.idleSecond idle crc4 s t, Marked.sparedSame⟩

theorem idleSecondsBetween :
    let bad : Sample := { bipolar := 5 }
    let line : Input := .second .g703 false bad {}
    let idle : Input := .second .hdlc false bad {}
    let inputs : List Marked :=
      [(.resync 1, false), (line, false), (idle, true), (line, false), (idle, true), (line, false)]
    (run Marked.meet {} (Marked.spare inputs)).seconds = 2 ∧
      run Marked.meet {} (Marked.spare inputs) = run Marked.meet {} inputs := by
  intro bad line idle inputs
  have passing : Marked.Passing {} inputs := by decide +kernel
  exact ⟨by decide +kernel, ((idleSecondsPassed inputs).2 passing).1⟩

/-- An idle second in a settle window of one second: left out, the line is still settling when its
first second comes, and that second is not counted. -/
theorem idleSecondShortensWindow :
    let bad : Sample := { bipolar := 5 }
    let inputs : List Marked :=
      [(.resync 1, false), (.second .hdlc false bad {}, true), (.second .g703 false bad {}, false)]
    (∀ x ∈ inputs, x.2 = true → x.1.isIdle = true) ∧
      Marked.answers {} (Marked.spare inputs) ≠ Marked.answers {} inputs ∧
      (run Marked.meet {} (Marked.spare inputs)).current ≠
        (run Marked.meet {} inputs).current ∧
      (run Marked.meet {} (Marked.spare (inputs.take 2))).isSettling = true ∧
      (run Marked.meet {} (inputs.take 2)).isSettling = false := by
  decide +kernel

end SerialAdapter.Telemetry
