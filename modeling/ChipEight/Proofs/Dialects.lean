import ChipEight.Proofs.Bounds
import ChipEight.Proofs.Frames
import ChipEight.Proofs.LikeHosts

/-!
# What dialects differ in

Three instructions look at the dialect: a store and a load at one of its choices, adding to the index at
the other. A computer that carries out none whose choice differs cannot tell two dialects apart
(`Dialect.Separates`). Where one is carried out, the difference is the index in the one case and the
flag register in the other, and nothing else.
-/

namespace ChipEight

/-- The dialects differ in what the instruction does. -/
def Dialect.Separates (first second : Dialect) : Instruction → Prop
  | .store _ | .load _ => first.loadStoreMovesIndex ≠ second.loadStoreMovesIndex
  | .addToIndex _ => first.indexOverflowFlag ≠ second.indexOverflowFlag
  | _ => False

/-- The host for a computer that speaks a dialect. -/
def Host.speaking (host : Host) (dialect : Dialect) : Host := { host with dialect := dialect }

variable {host : Host} {first second : Dialect}

theorem Host.waitsLike_speaking : (host.speaking first).WaitsLike (host.speaking second) where
  refresh_eq := rfl
  pollInterval_eq := rfl
  keyWait_eq := rfl

theorem Host.offersSame_speaking {instruction : Instruction}
    (h : ¬ first.Separates second instruction) (drawn : Nat) :
    (host.speaking first).OffersSame (host.speaking second) drawn instruction := by
  cases instruction with
  | random x byte => rfl
  -- Not to be separated is to make the same choice, and the hosts offer nothing else.
  | addToIndex | store | load => exact (Decidable.not_not.mp h).symm
  | _ => trivial

/-! ## Instructions that the dialects separate

The two lemmas compare what one instruction leaves behind in two dialects, starting from the same
state. One of the results is given in full, as the other one with a single field changed, so that
nothing else can differ. -/

/-- Writing back what a cell held takes a write back. -/
theorem Bank.write_write_read {α : Type} [Inhabited α] (bank : Bank α) (i : Nat) (value : α) :
    (bank.write i value).write i (bank.read i) = bank := by
  apply Bank.ext_read (by simp)
  intro j
  rw [read_write, read_write, size_write]
  split
  · next h => rw [h.1]
  · rfl

section

variable (host : Host) (word : Nat) {instruction : Instruction} (state : State) (usage : Usage)

/-- Where the index is moved, a store and a load leave it behind the bytes that they have moved. -/
theorem execute_of_movesIndex {x : Nat} (hstays : first.loadStoreMovesIndex = false)
    (hmoves : second.loadStoreMovesIndex = true)
    (hinstruction : instruction = .store x ∨ instruction = .load x) :
    let plain := execute (host.speaking first) word instruction state usage
    plain.outcome = .completed ∧ plain.state.index = state.index ∧
      execute (host.speaking second) word instruction state usage =
        { plain with
          state := { plain.state with index := Memory.wrap (state.index + (x + 1)) } } := by
  have hfirst : (host.speaking first).dialect.loadStoreMovesIndex = false := hstays
  have hsecond : (host.speaking second).dialect.loadStoreMovesIndex = true := hmoves
  rcases hinstruction with rfl | rfl
  · simp [execute, State.passBytes_eq, State.writeMemory, Cycle.done, hfirst, hsecond]
  · simp [execute, State.passBytes_eq, Cycle.done, hfirst, hsecond]

/-- Where the flag is not wanted, adding to the index leaves the flag register as it was. -/
theorem execute_of_no_overflowFlag (x : Nat) (hflags : first.indexOverflowFlag = true)
    (hsilent : second.indexOverflowFlag = false) :
    let flagged := execute (host.speaking first) word (.addToIndex x) state usage
    let silent := execute (host.speaking second) word (.addToIndex x) state usage
    flagged.outcome = .completed ∧ silent.state.registers = state.registers ∧
      silent =
        { flagged with
          state := flagged.state.setRegister State.flagRegister
            (state.register State.flagRegister) } := by
  have hfirst : (host.speaking first).dialect.indexOverflowFlag = true := hflags
  have hsecond : (host.speaking second).dialect.indexOverflowFlag = false := hsilent
  simp [execute, State.addToIndex_eq, Cycle.done, State.setRegister, State.register,
    Bank.write_write_read, hfirst, hsecond]

end

/-! ## Their cycles

The difference passes from the instruction to its cycle. Fetching is the same in both dialects, and
the timers tick the same whatever was changed. -/

namespace State

variable {state : State} {usage : Usage} {instruction : Instruction}

/-- If an instruction that is carried out leaves another state behind in another dialect, then so does
its cycle, because the timers tick the same. -/
theorem step_speaking_of_carried (hhalt : state.halt = none)
    (hd : Encoding.decode Instruction.table state.nextWord = some instruction)
    (change : State → State) (htick : ∀ s, (change s).tick = change s.tick)
    (hdone : (execute (host.speaking first) state.nextWord instruction
      (state.fetched (host.speaking first) usage)
      (state.fetchUsage (host.speaking first) usage)).outcome = .completed)
    (hother :
      let plain := execute (host.speaking first) state.nextWord instruction
        (state.fetched (host.speaking first) usage) (state.fetchUsage (host.speaking first) usage)
      execute (host.speaking second) state.nextWord instruction
        (state.fetched (host.speaking first) usage) (state.fetchUsage (host.speaking first) usage) =
          { plain with state := change plain.state }) :
    let plain := state.step (host.speaking first) usage
    state.step (host.speaking second) usage = { plain with state := change plain.state } := by
  have hdone' : (execute (host.speaking second) state.nextWord instruction
      (state.fetched (host.speaking second) usage)
      (state.fetchUsage (host.speaking second) usage)).outcome = .completed := by
    rw [Host.waitsLike_speaking.fetched_eq, Host.waitsLike_speaking.fetchUsage_eq, hother]
    exact hdone
  have hplain := step_of_carried hhalt hd hdone
  have hstep := step_of_carried hhalt hd hdone'
  dsimp only at hplain hstep ⊢
  -- Both cycles fetch alike, so the second one carries out its instruction on the state of the
  -- first.
  rw [Host.waitsLike_speaking.fetched_eq, Host.waitsLike_speaking.fetchUsage_eq, hother, htick]
    at hstep
  rw [hplain, hstep]

/-- Where the index is moved, a cycle that stores or loads leaves it behind the bytes. -/
theorem step_of_movesIndex {x : Nat} (hhalt : state.halt = none)
    (hd : Encoding.decode Instruction.table state.nextWord = some instruction)
    (hinstruction : instruction = .store x ∨ instruction = .load x)
    (hstays : first.loadStoreMovesIndex = false) (hmoves : second.loadStoreMovesIndex = true)
    (host : Host) (usage : Usage) :
    let plain := state.step (host.speaking first) usage
    plain.state.index = state.index ∧
      state.step (host.speaking second) usage =
        { plain with state := { plain.state with index := (state.index + (x + 1)) % 4096 } } := by
  obtain ⟨hdone, hindex, hmoved⟩ := execute_of_movesIndex host state.nextWord
    (state.fetched (host.speaking first) usage) (state.fetchUsage (host.speaking first) usage)
    hstays hmoves hinstruction
  refine ⟨?_, ?_⟩
  · rw [step_of_carried hhalt hd hdone]
    exact hindex
  · -- The timers do not read the index.
    exact step_speaking_of_carried hhalt hd
      (fun s => { s with index := (state.index + (x + 1)) % 4096 }) (fun _ => rfl) hdone hmoved

/-- Where the flag is not wanted, a cycle that adds to the index leaves all registers as they were. -/
theorem step_of_no_overflowFlag {x : Nat} (hhalt : state.halt = none)
    (hd : Encoding.decode Instruction.table state.nextWord = some (.addToIndex x))
    (hflags : first.indexOverflowFlag = true) (hsilent : second.indexOverflowFlag = false)
    (host : Host) (usage : Usage) :
    let flagged := state.step (host.speaking first) usage
    let silent := state.step (host.speaking second) usage
    silent.state.registers = state.registers ∧
      silent =
        { flagged with
          state := flagged.state.setRegister flagRegister (state.register flagRegister) } := by
  obtain ⟨hdone, hregisters, hkept⟩ := execute_of_no_overflowFlag host state.nextWord
    (state.fetched (host.speaking first) usage) (state.fetchUsage (host.speaking first) usage) x
    hflags hsilent
  have hcycle := step_speaking_of_carried hhalt hd
    (fun s => s.setRegister flagRegister (state.register flagRegister)) (fun _ => rfl) hdone hkept
  refine ⟨?_, hcycle⟩
  -- The register that is written back holds what it held before the cycle.
  rw [hkept] at hregisters
  rw [hcycle, step_of_carried hhalt hd hdone]
  exact hregisters

end State

/-! ## Runs

As long as no instruction of the run is separated, the dialects are two hosts that offer the same,
and the runs are equal by the lemma about such hosts. The other two statements are about a single
cycle: after it the states differ, and the computers may do different things from there on. -/

namespace Computer

/-- Dialects differ in nothing but their own instructions. In two dialects a computer does the same as
long as it carries out no instruction that the dialects separate. A store or a load of the registers up
to `x` leaves the index `x + 1` further in the dialect that moves it, and this is the only difference.
Adding to the index leaves the flag register as it was in the dialect without the flag, and this is
the only difference. -/
theorem dialects_differ_in_their_instructions (host : Host) (first second : Dialect)
    (computer : Computer) :
    (∀ requests,
      (∀ executed ∈ computer.history (host.speaking first) requests,
        ¬ first.Separates second executed.instruction) →
      SameRun (host.speaking first) (host.speaking second) computer requests) ∧
    (∀ x, computer.state.halt = none →
      (Encoding.decode Instruction.table computer.state.nextWord = some (.store x) ∨
        Encoding.decode Instruction.table computer.state.nextWord = some (.load x)) →
      first.loadStoreMovesIndex = false → second.loadStoreMovesIndex = true → ∀ patience,
      let plain := computer.cycle (host.speaking first) patience
      let moved := computer.cycle (host.speaking second) patience
      plain.state.index = computer.state.index ∧
        moved =
          { plain with
            state := { plain.state with index := (plain.state.index + (x + 1)) % 4096 } }) ∧
    ∀ x, computer.state.halt = none →
      Encoding.decode Instruction.table computer.state.nextWord = some (.addToIndex x) →
      first.indexOverflowFlag = true → second.indexOverflowFlag = false → ∀ patience,
      let flagged := computer.cycle (host.speaking first) patience
      let silent := computer.cycle (host.speaking second) patience
      silent.state.register 0xF = computer.state.register 0xF ∧
        silent =
          { flagged with
            state := flagged.state.setRegister 0xF (computer.state.register 0xF) } := by
  refine ⟨?_, ?_, ?_⟩
  · -- no separated instruction
    intro requests halike
    apply FindsSame.sameRun Host.waitsLike_speaking
    intro earlier request later executed hsplit hexecuted
    apply Host.offersSame_speaking
    apply halike
    rw [hsplit]
    exact mem_history_of_executed? hexecuted
  · -- a store or a load
    intro x hhalt hd hstays hmoves patience plain moved
    obtain ⟨instruction, hd, hinstruction⟩ : ∃ instruction,
        Encoding.decode Instruction.table computer.state.nextWord = some instruction ∧
          (instruction = .store x ∨ instruction = .load x) := by
      rcases hd with hstore | hload
      · exact ⟨_, hstore, .inl rfl⟩
      · exact ⟨_, hload, .inr rfl⟩
    obtain ⟨hindex, hmoved⟩ := State.step_of_movesIndex hhalt hd hinstruction hstays hmoves host
      { computer.usage with patience := patience }
    refine ⟨hindex, ?_⟩
    rw [show plain.state.index = computer.state.index from hindex]
    exact hmoved
  · -- an addition to the index
    intro x hhalt hd hflags hsilent patience flagged silent
    obtain ⟨hregisters, hkept⟩ := State.step_of_no_overflowFlag hhalt hd hflags hsilent host
      { computer.usage with patience := patience }
    refine ⟨?_, hkept⟩
    exact congrArg (·.read 0xF) hregisters

/-- A program that adds 5 to the index past the top of memory, with 9 in the flag register, and then
stores two registers. -/
def indexer : Rom := [0x6F, 0x09, 0xAF, 0xFF, 0x61, 0x05, 0xF1, 0x1E, 0xF1, 0x55]

/-- The computer that has made so many cycles of this program. -/
def indexing (count : Nat) : Computer :=
  (new {}).calls {} (.load indexer :: List.replicate count (.step 0))

theorem indexer_in_two_dialects :
    let legacy : Dialect := { loadStoreMovesIndex := true }
    let silent : Dialect := { indexOverflowFlag := false }
    let host : Host := {}
    let requests := List.replicate 4 (Call.step 0)
    (∀ executed ∈ (indexing 0).history (host.speaking {}) requests,
        ¬ Dialect.Separates {} legacy executed.instruction) ∧
      SameRun (host.speaking {}) (host.speaking legacy) (indexing 0) requests ∧
      Encoding.decode Instruction.table (indexing 4).state.nextWord = some (.store 1) ∧
      ((indexing 4).cycle (host.speaking {}) 0).state.index = 4 ∧
      ((indexing 4).cycle (host.speaking legacy) 0).state.index = 6 ∧
      Encoding.decode Instruction.table (indexing 3).state.nextWord = some (.addToIndex 1) ∧
      ((indexing 3).cycle (host.speaking {}) 0).state.register 0xF = 1 ∧
      ((indexing 3).cycle (host.speaking silent) 0).state.register 0xF = 9 := by
  intro legacy silent host requests
  have halike : ∀ executed ∈ (indexing 0).history (host.speaking {}) requests,
      ¬ Dialect.Separates {} legacy executed.instruction := by
    have hhistory : ((indexing 0).history (host.speaking {}) requests).map (·.instruction) =
        [.setByte 15 9, .setIndex 0xFFF, .setByte 1 5, .addToIndex 1] := by
      decide +kernel
    intro executed hmem
    have hinstruction : executed.instruction ∈
        ((indexing 0).history (host.speaking {}) requests).map (·.instruction) :=
      List.mem_map_of_mem hmem
    rw [hhistory] at hinstruction
    simp only [List.mem_cons, List.not_mem_nil, or_false] at hinstruction
    rcases hinstruction with h | h | h | h <;> simp [h, Dialect.Separates, legacy]
  have hruns : (indexing 4).state.halt = none ∧
      Encoding.decode Instruction.table (indexing 4).state.nextWord = some (.store 1) ∧
      ((indexing 4).cycle (host.speaking {}) 0).state.index = 4 ∧
      (indexing 3).state.halt = none ∧
      Encoding.decode Instruction.table (indexing 3).state.nextWord = some (.addToIndex 1) ∧
      ((indexing 3).cycle (host.speaking {}) 0).state.register 0xF = 1 ∧
      (indexing 3).state.register 0xF = 9 := by
    decide +kernel
  obtain ⟨hhalt, hstore, hindex, hhalt', hadd, hflag, hregister⟩ := hruns
  refine ⟨halike, ?_, hstore, hindex, ?_, hadd, hflag, ?_⟩
  · exact (dialects_differ_in_their_instructions host {} legacy (indexing 0)).1 requests halike
  · have hmoved := ((dialects_differ_in_their_instructions host {} legacy (indexing 4)).2.1 1
      hhalt (.inl hstore) rfl rfl 0).2
    rw [hmoved, hindex]
  · have hkept := ((dialects_differ_in_their_instructions host {} silent (indexing 3)).2.2 1
      hhalt' hadd rfl rfl 0).1
    rw [hkept, hregister]

end Computer

end ChipEight
