import ChipEight.Proofs.Traps
import ChipEight.Proofs.WellFormed

/-!
# Halted computers

A trap takes back what its cycle has done, except that the keys have been looked at and the report of
the cycle before is gone. After it the computer stays halted by the same trap through all calls but a
reset: each cycle is refused with that trap as its cause, changes nothing and takes nothing from the
surroundings (`trapped_then_refused`).
-/

namespace ChipEight

/-! ## The cycle that is trapped

The trap is noticed after the word was fetched, so the keyboard has been looked at and the old
report is gone. Nothing else of the fetch is left, since `pc` is put back on the instruction. -/

namespace State

variable {state : State} {host : Host} {usage : Usage} {trap : Trap}

/-- What a trap leaves behind. -/
theorem step_of_trap (h : state.halt = none)
    (htrap : (state.step host usage).outcome.trap? = some trap) :
    (state.step host usage).state =
      { state with
        keys := (host.refresh state.keys usage).1
        redrawn := false
        changes := []
        halt := some trap } := by
  -- The fetched state differs from the one before in the keys, the report and `pc` only, and `pc` is
  -- put back.
  rw [((step_ends h host usage).of_trap? htrap).2]
  rfl

/-- A trap knows its address, and is never the refusal of a cycle. -/
theorem InRange.address_of_trap (hrange : state.InRange) (h : state.halt = none)
    (htrap : (state.step host usage).outcome.trap? = some trap) :
    trap.address = state.pc ∧ trap.opcode = state.nextWord ∧ ∀ cause, trap ≠ .halted cause := by
  have htraps := (step_trap?_eq_some_iff h host usage).mp htrap
  -- Three traps, and each of them was made with the address that `pc` was at.
  rcases (traps_iff hrange.memory hrange.pc_lt hrange.depth_le).mp htraps with
    ⟨rfl, -⟩ | ⟨rfl, -⟩ | ⟨rfl, -⟩
  · exact ⟨rfl, rfl, by simp⟩
  · exact ⟨rfl, rfl, by simp⟩
  · exact ⟨rfl, rfl, by simp⟩

end State

/-- How long a computer may still sleep is of no consequence to the keys that are reported. -/
theorem Host.refresh_patience (host : Host) (keys : Keypad) (usage : Usage) (patience : Nat) :
    (host.refresh keys { usage with patience := patience }).1 = (host.refresh keys usage).1 := by
  unfold refresh
  split <;> rfl

/-! ## All later calls

`halt` is set once and is taken away by a reset only. While it is set, a cycle returns the state as
it is, so what holds after the first refused cycle holds after all of them. -/

namespace Computer

variable {host : Host} {computer : Computer} {trap : Trap}

/-- A cycle of a halted computer is refused, changes nothing and takes nothing. -/
theorem cycle_of_halted (h : computer.state.halt = some trap) (patience : Nat) :
    computer.cycle host patience =
      ⟨computer.state, { computer.usage with patience := patience }, .refused trap, []⟩ := by
  rw [cycle, State.step, State.stepWith_of_halted h]

/-- Every call but a reset leaves a halted computer halted by the same trap. -/
theorem call_halt_eq_some (h : computer.state.halt = some trap) {request : Call}
    (hreset : request ≠ .reset) : (computer.call host request).state.halt = some trap := by
  cases request with
  | load rom =>
      by_cases hsize : rom.length > Memory.programCapacity
      · simpa [call, State.load, hsize] using h
      · simpa [call, State.load, hsize, State.install] using h
  | reset => exact absurd rfl hreset
  | pressKey number => exact h
  | releaseKey number => exact h
  | setKeys numbers => exact h
  | step patience => rw [call, cycle_of_halted h]; exact h

theorem calls_halt_eq_some (h : computer.state.halt = some trap) {requests : List Call}
    (hreset : Call.reset ∉ requests) :
    (computer.calls host requests).state.halt = some trap := by
  have hallowed : ∀ request ∈ requests, request ≠ .reset := by
    intro request hmem hsame
    exact hreset (hsame ▸ hmem)
  -- The halt is an invariant of all calls that are allowed here.
  apply calls_induction (P := fun c => c.state.halt = some trap) (· ≠ .reset) _ hallowed h
  intro c request hr hc
  exact call_halt_eq_some hc hr

/-- The cycle of a reachable computer that is trapped leaves everything but the keys and the report as
it was, and `pc` at the instruction. From then on, until a reset, every cycle is refused with that trap
as the cause, changes nothing, and takes nothing from the surroundings. -/
theorem trapped_then_refused (hreachable : Reachable host computer)
    (hhalt : computer.state.halt = none) {patience : Nat}
    (htrap : (computer.cycle host patience).outcome.trap? = some trap) :
    let after := computer.call host (.step patience)
    after.state =
      { computer.state with
        keys := (host.refresh computer.state.keys computer.usage).1
        redrawn := false
        changes := []
        halt := some trap } ∧
    trap.address = computer.state.pc ∧
    (∀ cause, trap ≠ .halted cause) ∧
    ∀ requests, Call.reset ∉ requests →
      let later := after.calls host requests
      ∀ patience : Nat,
        (later.cycle host patience).outcome.trap? = some (.halted trap) ∧
        (Trap.halted trap).opcode = trap.opcode ∧
        (Trap.halted trap).address = trap.address ∧
        (later.cycle host patience).state = later.state ∧
        (later.cycle host patience).usage = { later.usage with patience := patience } := by
  have hrange := hreachable.wellFormed.toInRange
  obtain ⟨haddress, -, hfirst⟩ := hrange.address_of_trap hhalt htrap
  have hafter := State.step_of_trap hhalt htrap
  rw [Host.refresh_patience] at hafter
  refine ⟨hafter, haddress, hfirst, ?_⟩
  intro requests hreset later patience'
  have hhalted : (computer.call host (.step patience)).state.halt = some trap := by
    rw [call, cycle, hafter]
  have hlater : later.state.halt = some trap := calls_halt_eq_some hhalted hreset
  rw [cycle_of_halted hlater]
  exact ⟨rfl, rfl, rfl, rfl, rfl⟩

/-- A return at the start of a program, on a computer with a key held down. -/
def returnAtStart : Computer :=
  (new {}).calls {} [.load [0x00, 0xEE], .pressKey (-1)]

theorem returnAtStart_trapped_then_refused :
    Reachable {} returnAtStart ∧ returnAtStart.state.halt = none ∧
      (returnAtStart.cycle {} 0).outcome.trap? = some (.stackUnderflow 0x00EE 0x200) ∧
      ∀ request, request ≠ Call.reset →
        (((returnAtStart.call {} (.step 0)).calls {} [request]).cycle {} 7).outcome.trap? =
          some (.halted (.stackUnderflow 0x00EE 0x200)) := by
  have hreachable : Reachable {} returnAtStart := ⟨{}, _, rfl⟩
  have htrap : (returnAtStart.cycle {} 0).outcome.trap? =
      some (.stackUnderflow 0x00EE 0x200) := by decide +kernel
  refine ⟨hreachable, rfl, htrap, ?_⟩
  intro request hreset
  have hrefused := (trapped_then_refused hreachable rfl htrap).2.2.2 [request]
    (by simpa [eq_comm] using hreset)
  exact (hrefused 7).1

end Computer

end ChipEight
