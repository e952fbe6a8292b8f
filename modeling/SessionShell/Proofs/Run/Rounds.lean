import SessionShell.Run.Loop

namespace SessionShell

/-- The next turn of a loop: how the loop goes on, or how it ends. -/
def Loop.next (shell : Shell) (spawn : Spawn) (own : SessionId) (l : Loop) (w : World) :
    Except (Outcome Unit) Loop × World :=
  match l.turn shell spawn own w with
  | (.ok none, w) => (.error (.ok ()), w)
  | (.ok (some (next, l)), w) =>
    match l.state.step next with
    | .ok state => (.ok { l with state }, w)
    | .error e => (.error (.failed e), w)
  | (.failed e, w) => (.error (.failed e), w)
  | (.aborted, w) => (.error .aborted, w)

namespace Loop

variable {shell : Shell} {spawn : Spawn} {own : SessionId} {l : Loop} {c : Command}

theorem next_prompting (hl : l.state = .prompting) (w : World) :
    l.next shell spawn own w =
      (.ok { l with state := .reading, prompt := currentPrompt shell own w.registry }, w) := by
  simp [next, turn, LoopState.step, hl, LoopState.canStep]

theorem next_reading (hl : l.state = .reading) (w : World) :
    l.next shell spawn own w =
      match w.read own l.prompt with
      | (.line text, w) => (.ok { l with state := .resolving, line := text }, w)
      | (.endOfInput, w) => (.ok { l with state := .terminating }, w)
      | (.failed reason, w) => (.error (.failed (.input reason)), w)
      | (.aborted, w) => (.error .aborted, w) := by
  rcases hr : w.read own l.prompt with ⟨_ | _ | _ | _, w'⟩ <;>
    simp [next, turn, LoopState.step, hl, hr, LoopState.canStep]

theorem next_resolving (hl : l.state = .resolving) (w : World) :
    l.next shell spawn own w =
      match lookUp shell l.line with
      | .ok c => (.ok { l with state := .executing, pending := some c }, w)
      | .error message => (.ok { l with state := .prompting }, w.writeAll message.toList) := by
  cases hr : lookUp shell l.line <;>
    simp [next, turn, LoopState.step, hl, hr, LoopState.canStep]

theorem next_executing (hl : l.state = .executing) (hc : l.pending = some c) (w : World) :
    l.next shell spawn own w =
      match c.execute shell spawn own w with
      | (.ok .stay, w) => (.ok { l with state := .prompting, pending := none }, w)
      | (.ok .leave, w) => (.ok { l with state := .terminating, pending := none }, w)
      | (.failed e, w) => (.error (.failed e), w)
      | (.aborted, w) => (.error .aborted, w) := by
  rcases hr : c.execute shell spawn own w with ⟨(_ | _) | _ | _, w'⟩ <;>
    simp [next, turn, LoopState.step, hl, hc, hr, LoopState.canStep]

theorem next_idle (hl : l.state = .executing) (hc : l.pending = none) (w : World) :
    l.next shell spawn own w = (.ok { l with state := .prompting }, w) := by
  simp [next, turn, LoopState.step, hl, hc, LoopState.canStep]

theorem next_terminating (hl : l.state = .terminating) (w : World) :
    l.next shell spawn own w = (.error (.ok ()), w) := by simp [next, turn, hl]

end Loop

namespace World

variable {shell : Shell} {own : SessionId} {l : Loop} {c : Command}

theorem loop_succ (shell : Shell) (n : Nat) (own : SessionId) (l : Loop) (w : World) :
    loop shell (n + 1) own l w =
      match l.next shell (spawnBy shell fun id => loop shell n id {}) own w with
      | (.ok l, w) => loop shell n own l w
      | (.error o, w) => (o, w) := by
  rw [loop, Loop.next]
  rcases l.turn shell (spawnBy shell fun id => loop shell n id {}) own w with
    ⟨(_ | ⟨next, l⟩) | _ | _, w'⟩ <;> try rfl
  dsimp only
  cases l.state.step next <;> rfl

theorem loop_prompting (hl : l.state = .prompting) (n : Nat) (w : World) :
    loop shell (n + 1) own l w =
      loop shell n own
        { l with state := .reading, prompt := Loop.currentPrompt shell own w.registry } w := by
  rw [loop_succ, Loop.next_prompting hl]

theorem loop_reading (hl : l.state = .reading) (n : Nat) (w : World) :
    loop shell (n + 1) own l w =
      match w.read own l.prompt with
      | (.line text, w) => loop shell n own { l with state := .resolving, line := text } w
      | (.endOfInput, w) => loop shell n own { l with state := .terminating } w
      | (.failed reason, w) => (.failed (.input reason), w)
      | (.aborted, w) => (.aborted, w) := by
  rw [loop_succ, Loop.next_reading hl]
  rcases w.read own l.prompt with ⟨_ | _ | _ | _, w'⟩ <;> rfl

theorem loop_resolving (hl : l.state = .resolving) (n : Nat) (w : World) :
    loop shell (n + 1) own l w =
      match Loop.lookUp shell l.line with
      | .ok c => loop shell n own { l with state := .executing, pending := some c } w
      | .error message =>
        loop shell n own { l with state := .prompting } (w.writeAll message.toList) := by
  rw [loop_succ, Loop.next_resolving hl]
  cases Loop.lookUp shell l.line <;> rfl

theorem loop_executing (hl : l.state = .executing) (hc : l.pending = some c) (n : Nat) (w : World) :
    loop shell (n + 1) own l w =
      match c.execute shell (spawnBy shell fun id => loop shell n id {}) own w with
      | (.ok .stay, w) => loop shell n own { l with state := .prompting, pending := none } w
      | (.ok .leave, w) => loop shell n own { l with state := .terminating, pending := none } w
      | (.failed e, w) => (.failed e, w)
      | (.aborted, w) => (.aborted, w) := by
  rw [loop_succ, Loop.next_executing hl hc]
  rcases c.execute shell (spawnBy shell fun id => loop shell n id {}) own w with
    ⟨(_ | _) | _ | _, w'⟩ <;> rfl

theorem loop_terminating (hl : l.state = .terminating) (n : Nat) (w : World) :
    loop shell (n + 1) own l w = (.ok (), w) := by
  rw [loop_succ, Loop.next_terminating hl]

end World
end SessionShell
