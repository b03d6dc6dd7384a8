import ChipEight.Proofs.Execution
import ChipEight.Proofs.Session

/-!
# What a session carries out

Of all calls only cycles carry out instructions, and of these only the ones that complete. The history
of a session (`Computer.history`) lists these instructions, each with the state before it.

A call that carries out an instruction has the instruction's effect and one tick of the timers. Any
other call, unless it is a reset, leaves the registers, the index, the stack, the timers, the screen
and the tone as they were. `Computer.call_does` says that there is nothing else.
-/

namespace ChipEight

/-! ## Cycles that do not complete

A cycle that is refused, trapped, stalled or given up has not carried out its instruction. What it
leaves behind besides the old state is a matter of fetching and of looking at the keys. -/

namespace State

variable {state : State} {host : Host} {usage : Usage}

/-- A cycle that does not complete leaves everything but `pc`, the keys, the report and the trap as it
was. -/
theorem step_of_not_completed (h : (state.step host usage).outcome ≠ .completed) :
    let after := (state.step host usage).state
    after =
      { state with
        pc := after.pc
        keys := after.keys
        redrawn := after.redrawn
        changes := after.changes
        halt := after.halt } := by
  cases hhalt : state.halt with
  | some cause =>
      simp only [step, stepWith_of_halted hhalt]
  | none =>
      cases step_ends hhalt host usage with
      | completed instruction decoded carried state_eq usage_eq outcome_eq =>
          exact absurd outcome_eq h
      -- Of the three ends that are left, each replaces only the parts named above.
      | stalled x decoded result result_eq expired state_eq =>
          simp only [state_eq]
          rfl
      | abandoned x decoded result result_eq error given_up state_eq =>
          simp only [state_eq]
          rfl
      | trapped trap traps state_eq =>
          simp only [state_eq]
          rfl

/-- A cycle that completes carries out the instruction that came next. -/
theorem step_of_completed (h : (state.step host usage).outcome = .completed) :
    ∃ instruction,
      Encoding.decode Instruction.table state.nextWord = some instruction ∧
      (execute host state.nextWord instruction (state.fetched host usage)
        (state.fetchUsage host usage)).outcome = .completed ∧
      (state.step host usage).state = (execute host state.nextWord instruction
        (state.fetched host usage) (state.fetchUsage host usage)).state.tick := by
  cases hhalt : state.halt with
  | some cause =>
      rw [step, stepWith_of_halted hhalt] at h
      cases h
  | none =>
      cases step_ends hhalt host usage with
      | completed instruction decoded carried state_eq =>
          exact ⟨instruction, decoded, carried, state_eq⟩
      | stalled x decoded result result_eq expired state_eq usage_eq outcome_eq =>
          rw [outcome_eq] at h
          cases h
      | abandoned x decoded result result_eq error given_up state_eq usage_eq outcome_eq =>
          rw [outcome_eq] at h
          cases h
      | trapped trap traps state_eq usage_eq outcome_eq =>
          rw [outcome_eq] at h
          cases h

end State

/-! ## Histories

An entry of the history keeps the state from before its cycle, since what an instruction does
depends on it: the registers that it reads, the index, the address that it stands at. -/

/-- An instruction that was carried out, and the state before its cycle. -/
structure Executed where
  before : State
  instruction : Instruction

namespace Computer

/-- The instruction that a call carries out, if it makes a cycle that completes. -/
def executed? (host : Host) (computer : Computer) : Call → Option Executed
  | .step patience =>
    if (computer.cycle host patience).outcome = .completed then
      (Encoding.decode Instruction.table computer.state.nextWord).map (⟨computer.state, ·⟩)
    else none
  | _ => none

/-- The instructions that calls carry out, the first one first. -/
def history (host : Host) (computer : Computer) : List Call → List Executed
  | [] => []
  | request :: rest =>
    (computer.executed? host request).toList ++ (computer.call host request).history host rest

variable {host : Host} {computer : Computer}

theorem executed?_of_completed {patience : Nat} {instruction : Instruction}
    (h : (computer.cycle host patience).outcome = .completed)
    (hd : Encoding.decode Instruction.table computer.state.nextWord = some instruction) :
    computer.executed? host (.step patience) = some ⟨computer.state, instruction⟩ := by
  rw [executed?, if_pos h, hd]
  rfl

@[simp] theorem history_nil : computer.history host [] = [] := rfl

@[simp] theorem history_cons (request : Call) (rest : List Call) :
    computer.history host (request :: rest) =
      (computer.executed? host request).toList ++
        (computer.call host request).history host rest := rfl

theorem history_append (first second : List Call) :
    computer.history host (first ++ second) =
      computer.history host first ++ (computer.calls host first).history host second := by
  induction first generalizing computer with
  | nil => rfl
  | cons request rest ih =>
      rw [List.cons_append, history_cons, history_cons, ih, calls_cons, List.append_assoc]

theorem mem_history_of_executed? {earlier later : List Call} {request : Call} {executed : Executed}
    (h : (computer.calls host earlier).executed? host request = some executed) :
    executed ∈ computer.history host (earlier ++ request :: later) := by
  rw [history_append, history_cons, h]
  simp

/-- What a call other than a reset does. -/
inductive Does (host : Host) (computer : Computer) (request : Call) : Prop
  /-- The instruction that came next was carried out, and the timers have ticked once. -/
  | carriedOut (usage : Usage) (instruction : Instruction)
      (executed : computer.executed? host request = some ⟨computer.state, instruction⟩)
      (decoded : Encoding.decode Instruction.table computer.state.nextWord = some instruction)
      (carried : (execute host computer.state.nextWord instruction
        (computer.state.fetched host usage) (computer.state.fetchUsage host usage)).outcome =
          .completed)
      (state_eq : (computer.call host request).state =
        (execute host computer.state.nextWord instruction (computer.state.fetched host usage)
          (computer.state.fetchUsage host usage)).state.tick)
  /-- At most the parts that are named have changed. -/
  | idle
      (executed : computer.executed? host request = none)
      (state_eq :
        let after := (computer.call host request).state
        after =
          { computer.state with
            memory := after.memory
            pc := after.pc
            keys := after.keys
            redrawn := after.redrawn
            changes := after.changes
            halt := after.halt
            program := after.program })

/-- A call other than a reset carries out an instruction or leaves most of the computer alone. -/
theorem call_does (host : Host) (computer : Computer) {request : Call} (hreset : request ≠ .reset) :
    Does host computer request := by
  cases request with
  | reset => exact absurd rfl hreset
  | load rom =>
      by_cases hsize : rom.length > Memory.programCapacity
      · exact .idle rfl (by simp [call, State.load, hsize])
      · exact .idle rfl (by simp [call, State.load, State.install, hsize])
  | pressKey number => exact .idle rfl rfl
  | releaseKey number => exact .idle rfl rfl
  | setKeys numbers => exact .idle rfl rfl
  | step patience =>
      by_cases houtcome : (computer.cycle host patience).outcome = .completed
      · obtain ⟨instruction, decoded, carried, state_eq⟩ := State.step_of_completed houtcome
        exact .carriedOut _ instruction (executed?_of_completed houtcome decoded) decoded carried
          state_eq
      · refine .idle (if_neg houtcome) ?_
        have hkept := State.step_of_not_completed houtcome
        dsimp only [call, cycle] at hkept ⊢
        rw [hkept]

end Computer

end ChipEight
