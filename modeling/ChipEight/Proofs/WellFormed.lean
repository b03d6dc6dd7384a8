import ChipEight.Proofs.Frames
import ChipEight.Proofs.Session
import ChipEight.Proofs.Strict

/-!
# The invariant of all computers

A computer is `WellFormed` if everything in it is in range, its tone sounds just when the sound timer
runs, and the report of its last cycle lists changes only if it says that the screen was redrawn. New
computers are, and every call keeps it, also one that fails. So a cycle of a reachable computer never
leaves a bank and never overflows a cell: the strict computer makes the same one
(`calls_wellFormed`).
-/

namespace ChipEight

namespace State

/-- What holds of a computer after any calls. -/
structure WellFormed (state : State) : Prop extends InRange state where
  beeping_iff : state.beeping = true ↔ 0 < state.sound
  changes_eq_nil : state.redrawn = false → state.changes = []
  not_redrawn_of_halted : state.halt ≠ none → state.redrawn = false

namespace WellFormed

variable {state : State}

theorem powerOn (program : Option Rom) : (State.powerOn program).WellFormed where
  toInRange := InRange.powerOn program
  beeping_iff := by simp [State.powerOn]
  changes_eq_nil _ := rfl
  not_redrawn_of_halted _ := rfl

theorem install (h : state.WellFormed) (rom : Rom) : (state.install rom).value.WellFormed :=
  { h with toInRange := h.toInRange.install rom }

theorem reset (state : State) : state.reset.value.WellFormed := by
  unfold State.reset
  -- With a remembered program, which was loaded once and therefore fits, and without one.
  split
  · exact (powerOn none).install _
  · exact powerOn none

theorem setKeypad (h : state.WellFormed) {keys : Keypad} (hkeys : keys.down.size = 16) :
    { state with keys := keys }.WellFormed :=
  { h with keys_size := hkeys }

/-- An instruction that does not say that it has redrawn the screen has listed no changes. -/
theorem execute_changes_eq_nil {host : Host} {word : Nat} {instruction : Instruction}
    {usage : Usage} (h : state.changes = [])
    (hredrawn : (execute host word instruction state usage).state.redrawn = false) :
    (execute host word instruction state usage).state.changes = [] := by
  cases instruction with
  | clear => cases hredrawn
  | draw x y rows => cases hredrawn
  | _ =>
      rw [(execute_display (by simp) (by simp)).2.2]
      exact h

/-- A cycle keeps a computer well-formed, however it ends. -/
theorem step (h : state.WellFormed) (host : Host) (usage : Usage) :
    (state.step host usage).state.WellFormed := by
  cases hhalt : state.halt with
  | some cause =>
      rw [State.step, stepWith_of_halted hhalt]
      exact h
  | none =>
      have hrange := h.toInRange.step host usage
      cases step_ends hhalt host usage with
      | completed instruction decoded carried state_eq =>
          rw [state_eq] at hrange ⊢
          refine ⟨hrange, ?_, ?_, ?_⟩
          · -- Every completed cycle sets the tone anew, from the timer after the tick.
            simp [tick]
          · -- Fetching has taken the report of the cycle before away.
            intro hredrawn
            exact execute_changes_eq_nil rfl hredrawn
          · -- An instruction that is carried out halts nothing, and the computer was not halted
            -- before.
            intro hhalted
            have hnone : (execute host state.nextWord instruction (state.fetched host usage)
                (state.fetchUsage host usage)).state.halt = none := by
              rw [execute_record.2.1]
              exact hhalt
            exact absurd hnone hhalted
      | stalled x decoded result result_eq expired state_eq =>
          rw [state_eq] at hrange ⊢
          -- Without a tick neither the timer nor the tone changes.
          exact ⟨hrange, h.beeping_iff, fun _ => rfl, fun _ => rfl⟩
      | abandoned x decoded result result_eq error given_up state_eq =>
          rw [state_eq] at hrange ⊢
          exact ⟨hrange, h.beeping_iff, fun _ => rfl, fun _ => rfl⟩
      | trapped trap traps state_eq =>
          rw [state_eq] at hrange ⊢
          exact ⟨hrange, h.beeping_iff, fun _ => rfl, fun _ => rfl⟩

end WellFormed

end State

namespace Computer

variable {host : Host} {computer : Computer}

/-- A call keeps a computer well-formed, whether it succeeds or fails. -/
theorem call_wellFormed (h : computer.state.WellFormed) (request : Call) :
    (computer.call host request).state.WellFormed := by
  cases request with
  | load rom =>
      -- Loading fails without a trace or installs the program.
      by_cases hsize : rom.length > Memory.programCapacity
      · simpa [call, State.load, hsize] using h
      · simpa [call, State.load, hsize] using h.install rom
  | reset => exact State.WellFormed.reset _
  | pressKey number => exact h.setKeypad (by rw [Keypad.size_press, h.keys_size])
  | releaseKey number => exact h.setKeypad (by rw [Keypad.size_release, h.keys_size])
  | setKeys numbers => exact h.setKeypad (Keypad.size_ofReport numbers)
  | step patience => exact h.step host _

theorem Reachable.wellFormed (h : Reachable host computer) : computer.state.WellFormed := by
  apply h.induction (P := fun c => c.state.WellFormed)
  · intro usage
    exact State.WellFormed.powerOn none
  · intro c request hc
    exact call_wellFormed hc request

/-- After any calls on a new computer it is well-formed, and its next cycle, however long it may
wait, is the one of the strict computer, which refuses every access out of range. -/
theorem calls_wellFormed (host : Host) (usage : Usage) (requests : List Call) :
    let computer := (new usage).calls host requests
    computer.state.WellFormed ∧
      ∀ patience, Strict.step host computer.state { computer.usage with patience := patience } =
        .ok (computer.cycle host patience) := by
  have h : ((new usage).calls host requests).state.WellFormed :=
    Reachable.wellFormed ⟨usage, requests, rfl⟩
  exact ⟨h, fun _ => Strict.step_eq h.toInRange host _⟩

end Computer

end ChipEight
