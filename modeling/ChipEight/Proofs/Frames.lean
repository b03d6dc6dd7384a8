import ChipEight.Proofs.Execution

/-!
# What instructions leave alone

Most instructions work on memory, the registers, the index, `pc` and the keys alone (`execute_plain`).
Of the other parts, each is the business of a few instructions: only clearing and drawing touch the
screen and the report of a cycle (`execute_display`), only a return and a call touch the stack
(`execute_stack`), and none touches the tone, the trap or the remembered program (`execute_record`).
-/

namespace ChipEight

/-! ## Operations as updates

The operations that depend on a condition, written as one update with the condition inside. -/

namespace State

variable (state : State)

theorem skipIf_eq (condition : Bool) :
    state.skipIf condition =
      { state with pc := if condition then Memory.next state.pc else state.pc } := by
  cases condition <;> rfl

theorem passBytes_eq (dialect : Dialect) (count : Nat) :
    state.passBytes dialect count =
      { state with
        index :=
          if dialect.loadStoreMovesIndex then Memory.wrap (state.index + count)
          else state.index } := by
  unfold passBytes
  split <;> rfl

theorem addToIndex_eq (dialect : Dialect) (x : Nat) :
    state.addToIndex dialect x =
      { state with
        index := Memory.wrap (state.index + state.register x)
        registers :=
          if dialect.indexOverflowFlag then
            state.registers.write flagRegister
              (if state.index + state.register x > 0xFFF then 1 else 0)
          else state.registers } := by
  unfold addToIndex
  dsimp only
  split <;> simp [setFlag, setRegister]

end State

/-! ## Instructions

The equations below have the state after an instruction on both sides. That is the form to rewrite
with: the parts that may have changed are read off the new state, and every other part is seen to be
the old one. -/

/-- Whether an instruction works on memory, the registers, the index, `pc` and the keys alone. -/
def Instruction.isPlain : Instruction → Bool
  | .clear | .draw _ _ _ | .ret | .call _ | .setDelay _ | .setSound _ => false
  | _ => true

variable {host : Host} {word : Nat} {instruction : Instruction} {state : State} {usage : Usage}

/-- A plain instruction leaves everything else as it was. -/
theorem execute_plain (h : instruction.isPlain = true) :
    let after := (execute host word instruction state usage).state
    after =
      { state with
        memory := after.memory
        registers := after.registers
        index := after.index
        pc := after.pc
        keys := after.keys } := by
  cases instruction with
  | clear | draw | ret | call | setDelay | setSound => cases h
  | awaitKey x =>
      -- Such a wait puts the key into a register, goes back or stays, and has seen new keys in any
      -- case.
      cases hwait : (host.awaitKey state.keys usage).wait <;>
        simp [execute, hwait, State.setRegister]
  | skipIfByte | skipUnlessByte | skipIfSame | skipUnlessSame | skipIfDown | skipUnlessDown =>
      simp [execute, State.skipIf_eq]
  | addToIndex x => simp [execute, State.addToIndex_eq]
  | store | load => simp [execute, State.passBytes_eq, State.writeMemory]
  | _ => rfl

/-- A return leaves everything but the depth and `pc` as it was. -/
theorem execute_ret :
    let after := (execute host word .ret state usage).state
    after = { state with depth := after.depth, pc := after.pc } := by
  by_cases h : state.depth = 0
  · rw [execute_ret_of_empty h]
    rfl
  · rw [execute_ret_of_open h]
    rfl

/-- A call leaves everything but the stack and `pc` as it was. -/
theorem execute_call {address : Nat} :
    let after := (execute host word (.call address) state usage).state
    after = { state with stack := after.stack, depth := after.depth, pc := after.pc } := by
  by_cases h : State.stackCapacity ≤ state.depth
  · rw [execute_call_of_full h]
    rfl
  · rw [execute_call_of_room h]
    rfl

/-- The screen and the report of a cycle are touched by clearing and drawing only. -/
theorem execute_display (hclear : instruction ≠ .clear)
    (hdraw : ∀ x y rows, instruction ≠ .draw x y rows) :
    let after := (execute host word instruction state usage).state
    after.screen = state.screen ∧ after.redrawn = state.redrawn ∧
      after.changes = state.changes := by
  cases instruction with
  | clear => exact absurd rfl hclear
  | draw x y rows => exact absurd rfl (hdraw x y rows)
  | ret =>
      dsimp only
      rw [execute_ret]
      exact ⟨rfl, rfl, rfl⟩
  | call address =>
      dsimp only
      rw [execute_call]
      exact ⟨rfl, rfl, rfl⟩
  | setDelay | setSound => exact ⟨rfl, rfl, rfl⟩
  | _ =>
      dsimp only
      rw [execute_plain rfl]
      exact ⟨rfl, rfl, rfl⟩

/-- The tone, the trap and the remembered program are touched by no instruction. -/
theorem execute_record :
    let after := (execute host word instruction state usage).state
    after.beeping = state.beeping ∧ after.halt = state.halt ∧ after.program = state.program := by
  cases instruction with
  | clear | draw | setDelay | setSound => exact ⟨rfl, rfl, rfl⟩
  | ret =>
      dsimp only
      rw [execute_ret]
      exact ⟨rfl, rfl, rfl⟩
  | call address =>
      dsimp only
      rw [execute_call]
      exact ⟨rfl, rfl, rfl⟩
  | _ =>
      dsimp only
      rw [execute_plain rfl]
      exact ⟨rfl, rfl, rfl⟩

/-- The stack is touched by a return and a call only. -/
theorem execute_stack (hret : instruction ≠ .ret) (hcall : ∀ address, instruction ≠ .call address) :
    let after := (execute host word instruction state usage).state
    after.stack = state.stack ∧ after.depth = state.depth := by
  cases instruction with
  | ret => exact absurd rfl hret
  | call address => exact absurd rfl (hcall address)
  | clear | draw | setDelay | setSound => exact ⟨rfl, rfl⟩
  | _ =>
      dsimp only
      rw [execute_plain rfl]
      exact ⟨rfl, rfl⟩

end ChipEight
