import ChipEight.Proofs.Ranges

/-!
# Which instructions are trapped

`State.Traps` says in terms of decoding why an instruction cannot be carried out. The main statement
says it in terms of the instruction word alone: a return with no open call, a call with sixteen of
them, or a word without a meaning, and nothing else (`step_reports_trap_iff`). Each word with a meaning is
accepted by a single entry of the table, so a cycle is the same for every order of the table.
-/

namespace ChipEight

/-! ## Words in memory

The machine puts a word together by shifting its high byte and joining the low one to it. As bytes
are below 256 that is a sum, and the sum is what the statements below use. -/

namespace Memory

/-- The word at an address, by its two bytes. -/
theorem word_eq_add {memory : Memory} (h : memory.Fits 4096 256) (address : Nat) :
    word memory address = 256 * memory.read address + memory.read ((address + 1) % 4096) := by
  have hlow : memory.read (wrap (address + 1)) < 2 ^ 8 := h.read_lt (by decide) _
  rw [word, ← Nat.shiftLeft_add_eq_or_of_lt hlow, Nat.shiftLeft_eq, Nat.mul_comm]
  rfl

theorem word_lt {memory : Memory} (h : memory.Fits 4096 256) (address : Nat) :
    word memory address < 0x10000 := by
  have hhigh := h.read_lt (by decide) address
  have hlow := h.read_lt (by decide) ((address + 1) % 4096)
  rw [word_eq_add h]
  omega

end Memory

namespace State

variable {state : State} {trap : Trap}

/-- A computer that is not halted reports a trap for just the reasons of `Traps`. -/
theorem step_trap?_eq_some_iff (h : state.halt = none) (host : Host) (usage : Usage) :
    (state.step host usage).outcome.trap? = some trap ↔ state.Traps trap := by
  constructor
  · intro htrap
    exact ((step_ends h host usage).of_trap? htrap).1
  · intro htraps
    have htrapped : (state.step host usage).outcome = .trapped trap := by
      -- Each reason for a trap is a branch of the cycle.
      cases htraps with
      | unimplemented decoded => rw [step, stepWith_of_decode_none h decoded]
      | stackUnderflow decoded empty =>
          rw [step, stepWith_of_decode_some h decoded, finish_outcome]
          exact execute_trapped_iff.mpr (.inl ⟨rfl, empty, rfl⟩)
      | stackOverflow decoded full =>
          rw [step, stepWith_of_decode_some h decoded, finish_outcome]
          exact execute_trapped_iff.mpr (.inr ⟨_, rfl, full, rfl⟩)
    rw [htrapped]
    rfl

/-- The reasons for a trap, told from the instruction word. -/
theorem traps_iff (hmemory : state.memory.Fits 4096 256) (hpc : state.pc < 4096)
    (hdepth : state.depth ≤ 16) :
    state.Traps trap ↔
      (trap = .stackUnderflow state.nextWord state.pc ∧
        state.nextWord = 0x00EE ∧ state.depth = 0) ∨
      (trap = .stackOverflow state.nextWord state.pc ∧
        state.nextWord / 0x1000 = 0x2 ∧ state.depth = 16) ∨
      (trap = .unimplemented state.nextWord state.pc ∧ Word.Unassigned state.nextWord) := by
  have hword : state.nextWord < 0x10000 := Memory.word_lt hmemory state.pc
  -- The two stack traps find their address from the advanced `pc`, across the top of memory too.
  have hback : Memory.previous (Memory.next state.pc) = state.pc := Memory.previous_next hpc
  constructor
  · intro htraps
    cases htraps with
    | unimplemented decoded =>
        exact .inr (.inr ⟨rfl, (Instruction.decode_eq_none_iff hword).mp decoded⟩)
    | stackUnderflow decoded empty =>
        exact .inl ⟨by rw [hback], (Instruction.decode_eq_ret_iff hword).mp decoded, empty⟩
    | stackOverflow decoded full =>
        have hcall := ((Instruction.decode_eq_call_iff hword).mp decoded).1
        exact .inr (.inl ⟨by rw [hback], hcall, Nat.le_antisymm hdepth full⟩)
  · rintro (⟨rfl, hret, hempty⟩ | ⟨rfl, hcall, hfull⟩ | ⟨rfl, hunassigned⟩)
    · have htraps := Traps.stackUnderflow ((Instruction.decode_eq_ret_iff hword).mpr hret) hempty
      rwa [hback] at htraps
    · have htraps := Traps.stackOverflow
        ((Instruction.decode_eq_call_iff hword).mpr ⟨hcall, rfl⟩) (Nat.le_of_eq hfull.symm)
      rwa [hback] at htraps
    · exact .unimplemented ((Instruction.decode_eq_none_iff hword).mpr hunassigned)

/-- A cycle is the same for every order of the table. -/
theorem stepWith_perm {table : List Encoding} (h : table.Perm Instruction.table) (host : Host)
    (state : State) (usage : Usage) :
    stepWith table host state usage = state.step host usage := by
  have hdecode : Encoding.decode table = Encoding.decode Instruction.table :=
    funext (Encoding.decode_perm Instruction.table_pairwise h)
  rw [step, stepWith, stepWith, hdecode]

/-- A computer that is not halted reports a trap just when it has no open call to return from, no
room to call, or a word without a meaning to carry out. The trap knows the word and its address. Each
word with a meaning has a single entry in the table, and the order of the table does not matter. -/
theorem step_reports_trap_iff (host : Host) (usage : Usage) (hhalt : state.halt = none)
    (hmemory : state.memory.Fits 4096 256) (hpc : state.pc < 4096) (hdepth : state.depth ≤ 16) :
    let word : Nat :=
      256 * state.memory.read state.pc + state.memory.read ((state.pc + 1) % 4096)
    (∀ trap, (state.step host usage).outcome.trap? = some trap ↔
      (trap = .stackUnderflow word state.pc ∧ word = 0x00EE ∧ state.depth = 0) ∨
      (trap = .stackOverflow word state.pc ∧ word / 0x1000 = 0x2 ∧ state.depth = 16) ∨
      (trap = .unimplemented word state.pc ∧ Word.Unassigned word)) ∧
    (Instruction.table.filter (·.accepts word)).length =
      (if Word.Unassigned word then 0 else 1) ∧
    ∀ table : List Encoding, table.Perm Instruction.table →
      stepWith table host state usage = state.step host usage := by
  rw [← Memory.word_eq_add hmemory state.pc]
  refine ⟨?_, ?_, ?_⟩
  · -- the traps
    intro trap
    rw [step_trap?_eq_some_iff hhalt]
    exact traps_iff hmemory hpc hdepth
  · -- one entry for a word
    exact Instruction.length_filter_accepts (Memory.word_lt hmemory state.pc)
  · -- any order of the entries
    intro table hperm
    exact stepWith_perm hperm host state usage

/-- A call whose word starts at the last address and goes on at address 0, with all return addresses
taken. -/
def callAtTop : State :=
  { State.initial with
    memory := ((Bank.replicate 4096 0).write 0xFFF 0x2A).write 0 0xBC
    pc := 0xFFF
    depth := 16 }

theorem callAtTop_reports_trap :
    callAtTop.halt = none ∧ callAtTop.memory.Fits 4096 256 ∧ callAtTop.pc < 4096 ∧
      callAtTop.depth ≤ 16 ∧
      (callAtTop.step {} {}).outcome.trap? = some (.stackOverflow 0x2ABC 0xFFF) := by
  have hmemory : callAtTop.memory.Fits 4096 256 :=
    (Bank.Fits.write (.replicate (by decide)) _ (by decide)).write _ (by decide)
  have hword : 256 * callAtTop.memory.read callAtTop.pc +
      callAtTop.memory.read ((callAtTop.pc + 1) % 4096) = 0x2ABC := by
    simp [callAtTop, Bank.read_write]
  refine ⟨rfl, hmemory, by decide, by decide, ?_⟩
  rw [(step_reports_trap_iff {} {} rfl hmemory (by decide) (by decide)).1, hword]
  exact .inr (.inl ⟨rfl, rfl, rfl⟩)

end State

end ChipEight
