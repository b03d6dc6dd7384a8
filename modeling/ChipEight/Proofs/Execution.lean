import ChipEight.Cycle

/-!
# How a cycle ends

Most instructions are always carried out. Three are not: a return with no open call and a call with no
room for a return address are trapped (`execute_trapped_iff`), and a wait for a key may stall or be
given up. A trapped instruction leaves everything as it was (`execute_of_trapped`).

A cycle fetches, carries out and finishes. `State.Ends` lists the ways in which one that was not
refused can end, with all it leaves behind; `State.step_ends` says that there is no other. Later
modules take a cycle apart by these cases and do not unfold it.
-/

namespace ChipEight

namespace Cycle

variable (state : State) (usage : Usage) (trap : Trap) (cycle : Cycle) (notice : Notice)

@[simp] theorem done_state : (Cycle.done state usage).state = state := rfl
@[simp] theorem done_usage : (Cycle.done state usage).usage = usage := rfl
@[simp] theorem done_outcome : (Cycle.done state usage).outcome = .completed := rfl
@[simp] theorem failed_state : (Cycle.failed trap state usage).state = state := rfl
@[simp] theorem failed_usage : (Cycle.failed trap state usage).usage = usage := rfl
@[simp] theorem failed_outcome : (Cycle.failed trap state usage).outcome = .trapped trap := rfl
@[simp] theorem note_state : (cycle.note notice).state = cycle.state := rfl
@[simp] theorem note_usage : (cycle.note notice).usage = cycle.usage := rfl
@[simp] theorem note_outcome : (cycle.note notice).outcome = cycle.outcome := rfl

end Cycle

/-! ## Instructions

Whether an instruction is carried out is a matter of the state it is carried out in: of the depth of
the stack for a return and a call, of the keys for a wait, and of nothing for all others. -/

variable {host : Host} {word : Nat} {instruction : Instruction} {state : State} {usage : Usage}

-- A return and a call look at the depth first. These four equations are what later proofs use of them.
theorem execute_ret_of_empty (h : state.depth = 0) :
    execute host word .ret state usage =
      .failed (.stackUnderflow word (Memory.previous state.pc)) state usage := if_pos h

theorem execute_ret_of_open (h : state.depth ≠ 0) :
    let target := state.stack.read (state.depth - 1)
    execute host word .ret state usage =
      (Cycle.done { state with depth := state.depth - 1, pc := target } usage).note
        (.returned target) := if_neg h

theorem execute_call_of_full {address : Nat} (h : State.stackCapacity ≤ state.depth) :
    execute host word (.call address) state usage =
      .failed (.stackOverflow word (Memory.previous state.pc)) state usage := if_pos h

theorem execute_call_of_room {address : Nat} (h : ¬ State.stackCapacity ≤ state.depth) :
    execute host word (.call address) state usage =
      (Cycle.done
        { state with
          stack := state.stack.write state.depth state.pc
          depth := state.depth + 1
          pc := address } usage).note (.called address) := if_neg h

/-- The two instructions that can be trapped, and when. -/
theorem execute_trapped_iff {trap : Trap} :
    (execute host word instruction state usage).outcome = .trapped trap ↔
      (instruction = .ret ∧ state.depth = 0 ∧
        trap = .stackUnderflow word (Memory.previous state.pc)) ∨
      (∃ address, instruction = .call address ∧ State.stackCapacity ≤ state.depth ∧
        trap = .stackOverflow word (Memory.previous state.pc)) := by
  constructor
  · intro h
    cases instruction with
    | ret =>
        by_cases hempty : state.depth = 0
        · rw [execute_ret_of_empty hempty] at h
          cases h
          exact .inl ⟨rfl, hempty, rfl⟩
        · rw [execute_ret_of_open hempty] at h
          cases h
    | call address =>
        by_cases hfull : State.stackCapacity ≤ state.depth
        · rw [execute_call_of_full hfull] at h
          cases h
          exact .inr ⟨address, rfl, hfull, rfl⟩
        · rw [execute_call_of_room hfull] at h
          cases h
    | awaitKey x =>
        -- A wait is pressed, expired or given up, and none of these is a trap.
        cases hwait : (host.awaitKey state.keys usage).wait <;> simp [execute, hwait] at h
    | _ => cases h
  · rintro (⟨rfl, hempty, rfl⟩ | ⟨address, rfl, hfull, rfl⟩)
    · rw [execute_ret_of_empty hempty]
      rfl
    · rw [execute_call_of_full hfull]
      rfl

/-- A trapped instruction has done nothing. -/
theorem execute_of_trapped {trap : Trap}
    (h : (execute host word instruction state usage).outcome = .trapped trap) :
    (execute host word instruction state usage).state = state ∧
      (execute host word instruction state usage).usage = usage := by
  rcases execute_trapped_iff.mp h with ⟨rfl, hempty, -⟩ | ⟨address, rfl, hfull, -⟩
  · rw [execute_ret_of_empty hempty]
    exact ⟨rfl, rfl⟩
  · rw [execute_call_of_full hfull]
    exact ⟨rfl, rfl⟩

/-- An instruction is carried out or trapped, unless it waits for a key. -/
theorem execute_cases (host : Host) (word : Nat) (instruction : Instruction) (state : State)
    (usage : Usage) :
    (execute host word instruction state usage).outcome = .completed ∨
      (∃ trap, (execute host word instruction state usage).outcome = .trapped trap) ∨
      ∃ x, instruction = .awaitKey x := by
  cases instruction with
  | ret =>
      by_cases hempty : state.depth = 0
      · rw [execute_ret_of_empty hempty]
        exact .inr (.inl ⟨_, rfl⟩)
      · rw [execute_ret_of_open hempty]
        exact .inl rfl
  | call address =>
      by_cases hfull : State.stackCapacity ≤ state.depth
      · rw [execute_call_of_full hfull]
        exact .inr (.inl ⟨_, rfl⟩)
      · rw [execute_call_of_room hfull]
        exact .inl rfl
  | awaitKey x => exact .inr (.inr ⟨x, rfl⟩)
  | _ => exact .inl rfl

/-- The state after the instruction of a word has been carried out, with no cycle around it. A word
without a meaning leaves the state as it is. -/
def State.carryOut (host : Host) (usage : Usage) (state : State) (word : Nat) : State :=
  match Encoding.decode Instruction.table word with
  | some instruction => (execute host word instruction state usage).state
  | none => state

theorem State.carryOut_of_decode (hd : Encoding.decode Instruction.table word = some instruction)
    (host : Host) (usage : Usage) (state : State) :
    state.carryOut host usage word = (execute host word instruction state usage).state := by
  rw [carryOut, hd]

/-! ## Cycles

A cycle that is not refused fetches a word, in a state in which nothing is reported yet, and carries
out its meaning. What comes after that depends on the outcome alone: a tick of the timers, or a trap
that halts the computer where it is. -/

namespace State

/-- The state that an instruction is carried out in: nothing is reported yet, the keys are the ones
the keyboard reports now, and `pc` is past the instruction. -/
def fetched (host : Host) (state : State) (usage : Usage) : State :=
  { state.beginCycle (host.refresh state.keys usage).1 with pc := Memory.next state.pc }

/-- What is used of the surroundings before the instruction is carried out. -/
def fetchUsage (host : Host) (state : State) (usage : Usage) : Usage :=
  (host.refresh state.keys usage).2

variable {table : List Encoding}

/-- A halted computer refuses and changes nothing. -/
theorem stepWith_of_halted {cause : Trap} (h : state.halt = some cause) (host : Host)
    (usage : Usage) :
    stepWith table host state usage = ⟨state, usage, .refused cause, []⟩ := by
  simp [stepWith, h]

/-- A word without a meaning is trapped. -/
theorem stepWith_of_decode_none (h : state.halt = none)
    (hd : Encoding.decode table state.nextWord = none) (host : Host) (usage : Usage) :
    stepWith table host state usage =
      { state :=
          { state.fetched host usage with
            pc := state.pc, halt := some (.unimplemented state.nextWord state.pc) }
        usage := state.fetchUsage host usage
        outcome := .trapped (.unimplemented state.nextWord state.pc)
        notices :=
          [.fetched state.pc state.nextWord, .halted (.unimplemented state.nextWord state.pc)] } := by
  have hd' : Encoding.decode table
      (state.beginCycle (host.refresh state.keys usage).1).nextWord = none := hd
  simp only [stepWith, h, hd']
  rfl

/-- A word with a meaning is carried out. -/
theorem stepWith_of_decode_some {instruction : Instruction} (h : state.halt = none)
    (hd : Encoding.decode table state.nextWord = some instruction) (host : Host)
    (usage : Usage) :
    let cycle := execute host state.nextWord instruction (state.fetched host usage)
      (state.fetchUsage host usage)
    stepWith table host state usage =
      finish state.pc
        { cycle with notices := .fetched state.pc state.nextWord :: cycle.notices } := by
  have hd' : Encoding.decode table
      (state.beginCycle (host.refresh state.keys usage).1).nextWord = some instruction := hd
  simp only [stepWith, h, hd']
  rfl

@[simp] theorem finish_outcome (address : Nat) (cycle : Cycle) :
    (finish address cycle).outcome = cycle.outcome := by
  unfold finish
  split <;> simp [*]

@[simp] theorem finish_usage (address : Nat) (cycle : Cycle) :
    (finish address cycle).usage = cycle.usage := by
  unfold finish
  split <;> rfl

/-- Cycles that fetch the same word in the same state and then do the same are the same. -/
theorem step_congr {host' : Host} {state' : State} {usage' : Usage} (h : state.halt = none)
    (h' : state'.halt = none) (hpc : state'.pc = state.pc) (hword : state'.nextWord = state.nextWord)
    (hfetched : state'.fetched host' usage' = state.fetched host usage)
    (husage : state'.fetchUsage host' usage' = state.fetchUsage host usage)
    (hexecute : ∀ instruction, Encoding.decode Instruction.table state.nextWord = some instruction →
      execute host' state.nextWord instruction (state.fetched host usage)
          (state.fetchUsage host usage) =
        execute host state.nextWord instruction (state.fetched host usage)
          (state.fetchUsage host usage)) :
    state'.step host' usage' = state.step host usage := by
  cases hd : Encoding.decode Instruction.table state.nextWord with
  | none =>
      have hd' : Encoding.decode Instruction.table state'.nextWord = none := by rw [hword, hd]
      rw [step, step, stepWith_of_decode_none h hd, stepWith_of_decode_none h' hd', hfetched, husage,
        hpc, hword]
  | some instruction =>
      -- Otherwise the same instruction is carried out in the same state, and the cycle is finished
      -- alike.
      have hd' : Encoding.decode Instruction.table state'.nextWord = some instruction := by
        rw [hword, hd]
      have hstep := stepWith_of_decode_some h hd host usage
      have hstep' := stepWith_of_decode_some h' hd' host' usage'
      dsimp only at hstep hstep'
      rw [step, step, hstep, hstep', hfetched, husage, hpc, hword, hexecute instruction hd]

/-- The cycle of an instruction that is carried out: the instruction, and then one tick. -/
theorem step_of_carried {instruction : Instruction} (h : state.halt = none)
    (hd : Encoding.decode Instruction.table state.nextWord = some instruction)
    (hdone : (execute host state.nextWord instruction (state.fetched host usage)
      (state.fetchUsage host usage)).outcome = .completed) :
    let cycle := execute host state.nextWord instruction (state.fetched host usage)
      (state.fetchUsage host usage)
    state.step host usage =
      { cycle with
        state := cycle.state.tick
        notices := .fetched state.pc state.nextWord :: cycle.notices } := by
  have hstep := stepWith_of_decode_some h hd host usage
  dsimp only at hstep ⊢
  rw [step, hstep, finish]
  simp only [hdone]

/-- Why the instruction that comes next is trapped. -/
inductive Traps (state : State) : Trap → Prop
  | unimplemented (decoded : Encoding.decode Instruction.table state.nextWord = none) :
      Traps state (.unimplemented state.nextWord state.pc)
  | stackUnderflow (decoded : Encoding.decode Instruction.table state.nextWord = some .ret)
      (empty : state.depth = 0) :
      Traps state (.stackUnderflow state.nextWord (Memory.previous (Memory.next state.pc)))
  | stackOverflow {address : Nat}
      (decoded : Encoding.decode Instruction.table state.nextWord = some (.call address))
      (full : stackCapacity ≤ state.depth) :
      Traps state (.stackOverflow state.nextWord (Memory.previous (Memory.next state.pc)))

/-- How a cycle of a computer that is not halted ends, with everything it leaves behind but the
notices. -/
inductive Ends (host : Host) (state : State) (usage : Usage) (cycle : Cycle) : Prop
  | completed (instruction : Instruction)
      (decoded : Encoding.decode Instruction.table state.nextWord = some instruction)
      (carried : (execute host state.nextWord instruction (state.fetched host usage)
        (state.fetchUsage host usage)).outcome = .completed)
      (state_eq : cycle.state = (execute host state.nextWord instruction
        (state.fetched host usage) (state.fetchUsage host usage)).state.tick)
      (usage_eq : cycle.usage = (execute host state.nextWord instruction
        (state.fetched host usage) (state.fetchUsage host usage)).usage)
      (outcome_eq : cycle.outcome = .completed)
  | stalled (x : Nat)
      (decoded : Encoding.decode Instruction.table state.nextWord = some (.awaitKey x))
      (result : Wait.Result)
      (result_eq : host.awaitKey (host.refresh state.keys usage).1
        (state.fetchUsage host usage) = result)
      (expired : result.wait = .expired)
      (state_eq : cycle.state =
        { state.fetched host usage with
          keys := result.keys, pc := Memory.previous (Memory.next state.pc) })
      (usage_eq : cycle.usage = result.usage)
      (outcome_eq : cycle.outcome = .stalled)
  | abandoned (x : Nat)
      (decoded : Encoding.decode Instruction.table state.nextWord = some (.awaitKey x))
      (result : Wait.Result)
      (result_eq : host.awaitKey (host.refresh state.keys usage).1
        (state.fetchUsage host usage) = result)
      (error : Wait.Error)
      (given_up : result.wait = .abandoned error)
      (state_eq : cycle.state = { state.fetched host usage with keys := result.keys })
      (usage_eq : cycle.usage = result.usage)
      (outcome_eq : cycle.outcome = .abandoned error)
  | trapped (trap : Trap)
      (traps : state.Traps trap)
      (state_eq : cycle.state =
        { state.fetched host usage with pc := state.pc, halt := some trap })
      (usage_eq : cycle.usage = state.fetchUsage host usage)
      (outcome_eq : cycle.outcome = .trapped trap)

/-- Of the four ends only the trap reports a trap. -/
theorem Ends.of_trap? {cycle : Cycle} {trap : Trap} (h : Ends host state usage cycle)
    (htrap : cycle.outcome.trap? = some trap) :
    state.Traps trap ∧
      cycle.state = { state.fetched host usage with pc := state.pc, halt := some trap } := by
  cases h with
  | completed instruction decoded carried state_eq usage_eq outcome_eq =>
      rw [outcome_eq] at htrap
      cases htrap
  | stalled x decoded result result_eq expired state_eq usage_eq outcome_eq =>
      rw [outcome_eq] at htrap
      cases htrap
  | abandoned x decoded result result_eq error given_up state_eq usage_eq outcome_eq =>
      rw [outcome_eq] at htrap
      cases htrap
  | trapped trap' traps state_eq usage_eq outcome_eq =>
      rw [outcome_eq] at htrap
      cases htrap
      exact ⟨traps, state_eq⟩

/-- Every cycle of a computer that is not halted ends in one of the four ways. -/
theorem step_ends (h : state.halt = none) (host : Host) (usage : Usage) :
    Ends host state usage (state.step host usage) := by
  cases hd : Encoding.decode Instruction.table state.nextWord with
  | none =>
      have hstep := stepWith_of_decode_none h hd host usage
      exact .trapped _ (.unimplemented hd) (by rw [step, hstep]) (by rw [step, hstep])
        (by rw [step, hstep])
  | some instruction =>
      have hstep := stepWith_of_decode_some h hd host usage
      rcases execute_cases host state.nextWord instruction (state.fetched host usage)
        (state.fetchUsage host usage) with hdone | ⟨trap, htrap⟩ | ⟨x, rfl⟩
      · exact .completed instruction hd hdone (by rw [step, hstep]; simp [finish, hdone])
          (by rw [step, hstep]; simp) (by rw [step, hstep]; simp [hdone])
      · have hsame := execute_of_trapped htrap
        have hwhy : state.Traps trap := by
          rcases execute_trapped_iff.mp htrap with ⟨rfl, hempty, rfl⟩ | ⟨address, rfl, hfull, rfl⟩
          · exact .stackUnderflow hd hempty
          · exact .stackOverflow hd hfull
        exact .trapped trap hwhy (by rw [step, hstep]; simp [finish, htrap, hsame])
          (by rw [step, hstep]; simp [hsame]) (by rw [step, hstep]; simp [htrap])
      · -- A wait for a key ends in the way that its result says.
        cases hwait : (host.awaitKey (host.refresh state.keys usage).1
          (state.fetchUsage host usage)).wait with
        | pressed key =>
            have hdone : (execute host state.nextWord (.awaitKey x) (state.fetched host usage)
                (state.fetchUsage host usage)).outcome = .completed := by
              simp [execute, fetched, beginCycle, hwait]
            exact .completed _ hd hdone (by rw [step, hstep]; simp [finish, hdone])
              (by rw [step, hstep]; simp) (by rw [step, hstep]; simp [hdone])
        | expired =>
            refine .stalled x hd _ rfl hwait ?_ ?_ ?_
            all_goals
              rw [step, hstep]
              simp [finish, execute, fetched, beginCycle, hwait]
        | abandoned error =>
            refine .abandoned x hd _ rfl error hwait ?_ ?_ ?_
            all_goals
              rw [step, hstep]
              simp [finish, execute, fetched, beginCycle, hwait]

end State

end ChipEight
