import ChipEight.Proofs.Stores

/-!
# Registers in memory and back

A store puts registers 0 to `x` into the window at the index (`State.Stored`), and a load takes them from
there (`State.Loaded`). The window has at most sixteen bytes. So it never comes back to its own start, and
each of the two undoes the other, also where the window runs across the top of memory. The three digits
of a register are written in the same way, and a load of three registers reads them.

Where the dialect moves the index, it stands behind the window afterwards. The next transfer of the same
kind goes on there, so that a row of them works like a stream (`Computer.stream`).
-/

namespace ChipEight

namespace State

variable {x index : Nat} {state first second third : State}

/-! ## What is transferred

Both say for every register and every address what it holds afterwards, so they fix the registers
and memory completely. The two compositions are arguments about reading only: inside the window one
undoes the other, and outside nothing has happened. -/

/-- Registers 0 to `x` have been put into memory from an address on, and nothing else has changed in
memory and in the registers. -/
structure Stored (x index : Nat) (before after : State) : Prop where
  register_eq : ∀ i, after.register i = before.register i
  read_inside : ∀ j ≤ x, after.memory.read ((index + j) % 4096) = before.register j
  read_outside : ∀ a, (∀ j ≤ x, a ≠ (index + j) % 4096) → after.memory.read a = before.memory.read a

/-- Registers 0 to `x` have been taken from memory from an address on, and nothing else has changed in
memory and in the registers. -/
structure Loaded (x index : Nat) (before after : State) : Prop where
  read_eq : ∀ a, after.memory.read a = before.memory.read a
  register_inside : ∀ j ≤ x, after.register j = before.memory.read ((index + j) % 4096)
  register_outside : ∀ i, x < i → after.register i = before.register i

/-- What has been stored is still there when it is loaded, and the registers are as before. -/
theorem Stored.load (hstored : Stored x index first second) (hloaded : Loaded x index second third) :
    Stored x index first third where
  register_eq i := by
    -- A register is either not loaded, or it comes from where it was stored.
    rcases Nat.lt_or_ge x i with hout | hin
    · rw [hloaded.register_outside i hout, hstored.register_eq]
    · rw [hloaded.register_inside i hin, hstored.read_inside i hin]
  read_inside j hj := by rw [hloaded.read_eq, hstored.read_inside j hj]
  read_outside a ha := by rw [hloaded.read_eq, hstored.read_outside a ha]

/-- What has been loaded is stored where it comes from, and memory is as before. -/
theorem Loaded.store (hloaded : Loaded x index first second) (hstored : Stored x index second third) :
    Loaded x index first third where
  read_eq a := by
    -- An address in the window gets back what was loaded from it.
    by_cases hin : ∃ j ≤ x, a = (index + j) % 4096
    · obtain ⟨j, hj, rfl⟩ := hin
      rw [hstored.read_inside j hj, hloaded.register_inside j hj]
    · rw [hstored.read_outside a fun j hj hsame => hin ⟨j, hj, hsame⟩, hloaded.read_eq]
  register_inside j hj := by rw [hstored.register_eq, hloaded.register_inside j hj]
  register_outside i hi := by rw [hstored.register_eq, hloaded.register_outside i hi]

/-! ## Memory and registers after a transfer

An instruction writes its whole window in one go. No address of it comes up twice, so each holds the
byte that was meant for it, and all others are untouched. For a load the same is said of registers. -/

/-- What an instruction writes to memory is there afterwards. -/
theorem read_of_mem_stores {instruction : Instruction} (hsize : state.memory.size = 4096)
    (hrange : instruction.InRange) {address byte : Nat}
    (hmem : (address, byte) ∈ (Executed.mk state instruction).stores) (haddress : address < 4096) :
    (state.memory.writeAll (Executed.mk state instruction).stores).read address = byte :=
  Bank.read_writeAll_of_mem (Executed.stores_nodup hrange) hmem (hsize ▸ haddress)

theorem loadWrites_eq (state : State) (x : Nat) :
    state.loadWrites x =
      (List.range (x + 1)).map fun j => (j, state.memory.read ((state.index + j) % 4096)) := by
  rw [loadWrites, Memory.bytes, Memory.window, List.map_map, List.map_prod_left_eq_zip]
  rfl

theorem stored_of_writes (hsize : state.memory.size = 4096) (hx : x < 16) {after : State}
    (hregisters : after.registers = state.registers)
    (hmemory : after.memory = state.memory.writeAll (Executed.mk state (.store x)).stores) :
    Stored x state.index state after where
  register_eq i := by rw [register, hregisters, register]
  read_inside j hj := by
    have hrange : (Instruction.store x).InRange := hx
    rw [hmemory]
    apply read_of_mem_stores hsize hrange _ (Nat.mod_lt _ (by decide))
    exact List.mem_map.mpr ⟨j, List.mem_range.mpr (Nat.lt_succ_of_le hj), rfl⟩
  read_outside a ha := by
    rw [hmemory]
    apply Bank.read_writeAll_of_ne
    intro w hw
    obtain ⟨j, hj, rfl⟩ := List.mem_map.mp hw
    exact (ha j (Nat.le_of_lt_succ (List.mem_range.mp hj))).symm

theorem loaded_of_writes (hsize : state.registers.size = 16) (hx : x < 16) {after : State}
    (hregisters : after.registers = state.registers.writeAll (state.loadWrites x))
    (hmemory : after.memory = state.memory) : Loaded x state.index state after where
  read_eq a := by rw [hmemory]
  register_inside j hj := by
    have honce : ((state.loadWrites x).map Prod.fst).Nodup := by
      rw [loadWrites_eq, List.map_map]
      exact (List.map_id _).symm ▸ List.nodup_range
    have hmem : (j, state.memory.read ((state.index + j) % 4096)) ∈ state.loadWrites x := by
      rw [loadWrites_eq]
      exact List.mem_map.mpr ⟨j, List.mem_range.mpr (Nat.lt_succ_of_le hj), rfl⟩
    rw [register, hregisters]
    exact Bank.read_writeAll_of_mem honce hmem (by rw [hsize]; exact Nat.lt_of_le_of_lt hj hx)
  register_outside i hi := by
    rw [register, hregisters, register]
    apply Bank.read_writeAll_of_ne
    intro w hw
    rw [loadWrites_eq] at hw
    obtain ⟨j, hj, rfl⟩ := List.mem_map.mp hw
    exact Nat.ne_of_lt (Nat.lt_of_lt_of_le (List.mem_range.mp hj) hi)

/-! ## Cycles

A transfer always completes. What its cycle does besides is to move the index, or not, which is the
dialect's choice and no part of the law. -/

section

variable {host : Host} {word : Nat} {usage : Usage}

theorem execute_store :
    execute host word (.store x) state usage =
      .done
        { state with
          memory := state.memory.writeAll (Executed.mk state (.store x)).stores
          index :=
            if host.dialect.loadStoreMovesIndex then (state.index + (x + 1)) % 4096
            else state.index } usage := by
  rw [Executed.stores_store]
  dsimp only [execute]
  rw [passBytes_eq]
  rfl

theorem execute_load :
    execute host word (.load x) state usage =
      .done
        { state with
          registers := state.registers.writeAll (state.loadWrites x)
          index :=
            if host.dialect.loadStoreMovesIndex then (state.index + (x + 1)) % 4096
            else state.index } usage := by
  dsimp only [execute]
  rw [passBytes_eq]
  rfl

end

/-- A cycle transfers registers 0 to `x`: it completes, does at the index what `Law` says, and moves the
index behind the window where the dialect has it so. -/
structure Transfers (host : Host) (x : Nat) (Law : Nat → State → State → Prop) (state : State)
    (cycle : Cycle) : Prop where
  outcome_eq : cycle.outcome = .completed
  halt_eq : cycle.state.halt = none
  law : Law state.index state cycle.state
  index_eq : cycle.state.index =
    if host.dialect.loadStoreMovesIndex then (state.index + (x + 1)) % 4096 else state.index

variable {host : Host} {usage : Usage}

theorem step_store (hrange : state.InRange) (hhalt : state.halt = none) (hx : x < 16)
    (hword : state.nextWord = 0xF055 + 0x100 * x) :
    state.Transfers host x (Stored x) (state.step host usage) := by
  have hd : Encoding.decode Instruction.table state.nextWord = some (.store x) := by
    rw [hword]
    exact Instruction.decode_x hx (by decide) (by decide) (by simp [Instruction.table])
  have hstep : state.step host usage = _ := step_of_carried hhalt hd rfl
  rw [execute_store] at hstep
  rw [hstep]
  refine ⟨rfl, hhalt, stored_of_writes hrange.memory.size_eq hx ?_ ?_, rfl⟩
  · rfl
  · rfl

theorem step_load (hrange : state.InRange) (hhalt : state.halt = none) (hx : x < 16)
    (hword : state.nextWord = 0xF065 + 0x100 * x) :
    state.Transfers host x (Loaded x) (state.step host usage) := by
  have hd : Encoding.decode Instruction.table state.nextWord = some (.load x) := by
    rw [hword]
    exact Instruction.decode_x hx (by decide) (by decide) (by simp [Instruction.table])
  have hstep : state.step host usage = _ := step_of_carried hhalt hd rfl
  rw [execute_load] at hstep
  rw [hstep]
  refine ⟨rfl, hhalt, loaded_of_writes hrange.registers.size_eq hx ?_ ?_, rfl⟩
  · rfl
  · rfl

/-- The digits of a register are written to the window of three bytes at the index. -/
theorem step_digits (host : Host) (usage : Usage) (hrange : state.InRange) (hhalt : state.halt = none) (hx : x < 16)
    (hword : state.nextWord = 0xF033 + 0x100 * x) :
    let cycle := state.step host usage
    let value := state.register x
    cycle.outcome = .completed ∧ cycle.state.halt = none ∧ cycle.state.index = state.index ∧
      cycle.state.memory.read ((state.index + 0) % 4096) = value / 100 ∧
      cycle.state.memory.read ((state.index + 1) % 4096) = value / 10 % 10 ∧
      cycle.state.memory.read ((state.index + 2) % 4096) = value % 10 := by
  intro cycle value
  have hd : Encoding.decode Instruction.table state.nextWord = some (.digits x) := by
    rw [hword]
    exact Instruction.decode_x hx (by decide) (by decide) (by simp [Instruction.table])
  have hstep : state.step host usage = _ := step_of_carried hhalt hd rfl
  have hmemory : cycle.state.memory =
      state.memory.writeAll (Executed.mk state (.digits x)).stores := by
    rw [show cycle = _ from hstep]
    exact memory_execute
  -- Whatever is among the stores of this instruction is in memory afterwards.
  have hread : ∀ j byte, ((state.index + j) % 4096, byte) ∈ (Executed.mk state (.digits x)).stores →
      cycle.state.memory.read ((state.index + j) % 4096) = byte := by
    intro j byte hmem
    rw [hmemory]
    exact read_of_mem_stores hrange.memory.size_eq (Instruction.decode_inRange hd) hmem
      (Nat.mod_lt _ (by decide))
  refine ⟨?_, ?_, ?_, hread 0 _ ?_, hread 1 _ ?_, hread 2 _ ?_⟩
  · rw [show cycle = _ from hstep]
    rfl
  · rw [show cycle = _ from hstep]
    exact hhalt
  · rw [show cycle = _ from hstep]
    rfl
  all_goals simp [Executed.stores, value]

end State

namespace Computer

variable {host : Host} {computer : Computer} {x : Nat}

/-- The computer with another index. -/
def withIndex (computer : Computer) (index : Nat) : Computer :=
  { computer with state := { computer.state with index := index } }

/-! ## There and back

The second cycle begins in the state that the first one has left, and with the same index if the
dialect leaves it alone. So the laws of both are about one window, and they compose. -/

/-- Where the dialect leaves the index alone, the second of two transfers is at the same place. -/
theorem transfer_twice {First Second : Nat → State → State → Prop} {patience patience' : Nat}
    (hstays : host.dialect.loadStoreMovesIndex = false)
    (hone : computer.state.Transfers host x First (computer.cycle host patience))
    (htwo :
      let next := computer.call host (.step patience)
      next.state.Transfers host x Second (next.cycle host patience')) :
    let first := computer.call host (.step patience)
    let second := first.call host (.step patience')
    computer.outcomes host [.step patience, .step patience'] = [.completed, .completed] ∧
      First computer.state.index computer.state first.state ∧
      Second computer.state.index first.state second.state ∧
      second.state.index = computer.state.index := by
  intro first second
  have hfirst : first.state.index = computer.state.index := by
    rw [show first.state.index = _ from hone.index_eq, hstays]
    rfl
  have hsecond : second.state.index = first.state.index := by
    rw [show second.state.index = _ from htwo.index_eq, hstays]
    rfl
  refine ⟨?_, hone.law, hfirst ▸ htwo.law, hsecond.trans hfirst⟩
  show [(computer.cycle host patience).outcome, (first.cycle host patience').outcome] = _
  rw [hone.outcome_eq, htwo.outcome_eq]

/-- Three registers that are loaded where the digits of a register have been written. -/
theorem load_digits (hrange : computer.state.InRange) (hhalt : computer.state.halt = none) (hx : x < 16)
    (patience patience' : Nat) (hdigits : computer.state.nextWord = 0xF033 + 0x100 * x)
    (hload : (computer.call host (.step patience)).state.nextWord = 0xF265) :
    let second := (computer.call host (.step patience)).call host (.step patience')
    computer.outcomes host [.step patience, .step patience'] = [.completed, .completed] ∧
      second.state.register 0 = computer.state.register x / 100 ∧
      second.state.register 1 = computer.state.register x / 10 % 10 ∧
      second.state.register 2 = computer.state.register x % 10 := by
  intro second
  let first := computer.call host (.step patience)
  obtain ⟨houtcome, hgoes, hindex, hhundreds, htens, hones⟩ :=
    State.step_digits host { computer.usage with patience := patience } hrange hhalt hx hdigits
  have hfirst : first.state.index = computer.state.index := hindex
  have hloads : first.state.Transfers host 2 (State.Loaded 2) (first.cycle host patience') :=
    State.step_load (hrange.step host _) hgoes (by decide) hload
  have hloaded : State.Loaded 2 computer.state.index first.state second.state := hfirst ▸ hloads.law
  refine ⟨?_, ?_, ?_, ?_⟩
  · show [(computer.cycle host patience).outcome, (first.cycle host patience').outcome] = _
    rw [hloads.outcome_eq, show (computer.cycle host patience).outcome = _ from houtcome]
  · exact (hloaded.register_inside 0 (by decide)).trans hhundreds
  · exact (hloaded.register_inside 1 (by decide)).trans htens
  · exact (hloaded.register_inside 2 (by decide)).trans hones

/-! ## Streams

The index is moved by the size of the window, modulo the size of memory, so the windows of a row lie
next to each other and may wrap around. The proof goes by induction on the cycles, with the computer
and its index arbitrary. -/

/-- Cycles in a row transfer `count` registers each, the next one always where the one before has
stopped. -/
structure Streams (host : Host) (count : Nat) (Law : Nat → State → State → Prop) (computer : Computer)
    (patiences : List Nat) : Prop where
  outcomes_eq : computer.outcomes host (patiences.map .step) =
    List.replicate patiences.length .completed
  transfer : ∀ j < patiences.length,
    Law ((computer.state.index + j * count) % 4096)
      (computer.calls host ((patiences.take j).map .step)).state
      (computer.calls host ((patiences.take (j + 1)).map .step)).state
  index_eq : (computer.calls host (patiences.map .step)).state.index =
    (computer.state.index + patiences.length * count) % 4096

/-- Where the dialect moves the index, transfers with the same word form a stream. -/
theorem stream {Law : Nat → State → State → Prop} {word : Nat}
    (hmoves : host.dialect.loadStoreMovesIndex = true)
    (hstep : ∀ (state : State) (usage : Usage), state.InRange → state.halt = none →
      state.nextWord = word → state.Transfers host x Law (state.step host usage))
    {patiences : List Nat} (hrange : computer.state.InRange) (hhalt : computer.state.halt = none)
    (hfetches : ∀ j < patiences.length,
      (computer.calls host ((patiences.take j).map .step)).state.nextWord = word) :
    computer.Streams host (x + 1) Law patiences := by
  induction patiences generalizing computer with
  | nil =>
      refine ⟨rfl, fun j hj => absurd hj (Nat.not_lt_zero j), ?_⟩
      simp [Nat.mod_eq_of_lt hrange.index_lt]
  | cons patience rest ih =>
      have hfirst := hstep computer.state { computer.usage with patience := patience } hrange hhalt
        (hfetches 0 (by simp))
      let next := computer.call host (.step patience)
      have hindex : next.state.index = (computer.state.index + (x + 1)) % 4096 := by
        rw [show next.state.index = _ from hfirst.index_eq, if_pos hmoves]
      -- The rest is a stream that starts behind the first window.
      have hgoesOn : ∀ j, (next.state.index + j * (x + 1)) % 4096 =
          (computer.state.index + (j + 1) * (x + 1)) % 4096 := by
        intro j
        rw [hindex, Nat.succ_mul]
        omega
      have hrest : next.Streams host (x + 1) Law rest := by
        apply ih (hrange.step host _) hfirst.halt_eq
        intro j hj
        exact hfetches (j + 1) (Nat.succ_lt_succ hj)
      refine ⟨?_, ?_, ?_⟩
      · have houtcome : (computer.cycle host patience).outcome = .completed := hfirst.outcome_eq
        rw [List.map_cons, outcomes, hrest.outcomes_eq, outcome?, houtcome]
        rfl
      · intro j hj
        cases j with
        | zero =>
            have hstart : (computer.state.index + 0 * (x + 1)) % 4096 = computer.state.index := by
              rw [Nat.zero_mul, Nat.add_zero, Nat.mod_eq_of_lt hrange.index_lt]
            rw [hstart]
            exact hfirst.law
        -- the others, counted from the second on
        | succ j =>
            have hlater := hrest.transfer j (Nat.lt_of_succ_lt_succ hj)
            rwa [hgoesOn] at hlater
      · exact hrest.index_eq.trans (hgoesOn rest.length)

/-- Let a computer in a reachable state, with any index, come to a transfer of registers 0 to `x`.

Where the dialect leaves the index alone, a store and the load after it leave the registers, the index
and the memory outside the window as they were, with the registers in the window; a load and the store
after it leave all of memory as it was. The digits of a register that are written and then loaded are
decimal digits, and they make up its value.

Where the dialect moves the index, stores in a row, or loads, work through memory window by window,
wrapping round at its top. -/
theorem transfers_invert_and_stream (hreachable : Reachable host computer)
    (hhalt : computer.state.halt = none) {index : Nat} (hindex : index < 4096) (hx : x < 16) :
    let start := computer.withIndex index
    (host.dialect.loadStoreMovesIndex = false → ∀ patience patience',
      let first := start.call host (.step patience)
      let second := first.call host (.step patience')
      let outcomes := start.outcomes host [.step patience, .step patience']
      (start.state.nextWord = 0xF055 + 0x100 * x → first.state.nextWord = 0xF065 + 0x100 * x →
        outcomes = [.completed, .completed] ∧ State.Stored x index start.state second.state ∧
          second.state.index = index) ∧
      (start.state.nextWord = 0xF065 + 0x100 * x → first.state.nextWord = 0xF055 + 0x100 * x →
        outcomes = [.completed, .completed] ∧ State.Loaded x index start.state second.state ∧
          second.state.index = index) ∧
      (start.state.nextWord = 0xF033 + 0x100 * x → first.state.nextWord = 0xF265 →
        outcomes = [.completed, .completed] ∧
          let digit (i : Nat) : Nat := second.state.register i
          digit 0 ≤ 9 ∧ digit 1 ≤ 9 ∧ digit 2 ≤ 9 ∧
            100 * digit 0 + 10 * digit 1 + digit 2 = start.state.register x)) ∧
    (host.dialect.loadStoreMovesIndex = true → ∀ patiences : List Nat,
      let before (j : Nat) : Computer := start.calls host ((patiences.take j).map .step)
      ((∀ j < patiences.length, (before j).state.nextWord = 0xF055 + 0x100 * x) →
        start.Streams host (x + 1) (State.Stored x) patiences) ∧
      ((∀ j < patiences.length, (before j).state.nextWord = 0xF065 + 0x100 * x) →
        start.Streams host (x + 1) (State.Loaded x) patiences)) := by
  intro start
  have hrange : start.state.InRange := { hreachable.wellFormed.toInRange with index_lt := hindex }
  have hgoes : start.state.halt = none := hhalt
  refine ⟨?_, ?_⟩
  · -- The index stays.
    intro hstays patience patience' first second outcomes
    have hnext : first.state.InRange := hrange.step host _
    refine ⟨?_, ?_, ?_⟩
    · intro hstore hload
      have hone : start.state.Transfers host x (State.Stored x) (start.cycle host patience) :=
        State.step_store hrange hgoes hx hstore
      have htwo : first.state.Transfers host x (State.Loaded x) (first.cycle host patience') :=
        State.step_load hnext hone.halt_eq hx hload
      obtain ⟨houtcomes, hstored, hloaded, hsame⟩ := transfer_twice hstays hone htwo
      exact ⟨houtcomes, hstored.load hloaded, hsame⟩
    · intro hload hstore
      have hone : start.state.Transfers host x (State.Loaded x) (start.cycle host patience) :=
        State.step_load hrange hgoes hx hload
      have htwo : first.state.Transfers host x (State.Stored x) (first.cycle host patience') :=
        State.step_store hnext hone.halt_eq hx hstore
      obtain ⟨houtcomes, hloaded, hstored, hsame⟩ := transfer_twice hstays hone htwo
      exact ⟨houtcomes, hloaded.store hstored, hsame⟩
    · intro hdigits hload
      obtain ⟨houtcomes, hhundreds, htens, hones⟩ :=
        load_digits hrange hgoes hx patience patience' hdigits hload
      refine ⟨houtcomes, ?_⟩
      intro digit
      have hvalue : start.state.register x < 256 := hrange.register_lt x
      have hzero : digit 0 = start.state.register x / 100 := hhundreds
      have hone : digit 1 = start.state.register x / 10 % 10 := htens
      have htwo : digit 2 = start.state.register x % 10 := hones
      omega
  · -- The index moves.
    intro hmoves patiences before
    refine ⟨stream hmoves ?_ hrange hgoes, stream hmoves ?_ hrange hgoes⟩
    · intro state usage hrange hhalt hword
      exact State.step_store hrange hhalt hx hword
    · intro state usage hrange hhalt hword
      exact State.step_load hrange hhalt hx hword

/-- A program that stores two registers from the highest address on and then has another transfer of
registers. -/
def courier (second : UInt8) : Rom := [0xAF, 0xFF, 0x60, 0x07, 0x61, 0x09, 0xF1, 0x55, 0xF1, second]

theorem couriers_invert_and_stream :
    let moving : Host := { dialect := { loadStoreMovesIndex := true } }
    let setup (second : UInt8) : List Call := .load (courier second) :: List.replicate 3 (.step 0)
    let returning := (new {}).calls {} (setup 0x65)
    let streaming := (new {}).calls moving (setup 0x55)
    Reachable {} returning ∧ Reachable moving streaming ∧ returning.state.halt = none ∧
      streaming.state.halt = none ∧
      State.Stored 1 0xFFF (returning.withIndex 0xFFF).state
        (((returning.withIndex 0xFFF).call {} (.step 0)).call {} (.step 0)).state ∧
      (streaming.withIndex 0xFFF).Streams moving 2 (State.Stored 1) [0, 0] := by
  intro moving setup returning streaming
  have hreturning : Reachable {} returning := ⟨{}, _, rfl⟩
  have hstreaming : Reachable moving streaming := ⟨{}, _, rfl⟩
  have hrun : returning.state.halt = none ∧ streaming.state.halt = none ∧
      (returning.withIndex 0xFFF).state.nextWord = 0xF055 + 0x100 * 1 ∧
      ((returning.withIndex 0xFFF).call {} (.step 0)).state.nextWord = 0xF065 + 0x100 * 1 ∧
      ∀ j < [0, 0].length,
        ((streaming.withIndex 0xFFF).calls moving (([0, 0].take j).map .step)).state.nextWord =
          0xF055 + 0x100 * 1 := by decide +kernel
  obtain ⟨hgoing, hgoing', hstore, hload, hstores⟩ := hrun
  have hindex : 0xFFF < 4096 := by decide
  have hx : 1 < 16 := by decide
  obtain ⟨hback, -⟩ := transfers_invert_and_stream hreturning hgoing hindex hx
  obtain ⟨-, hstream⟩ := transfers_invert_and_stream hstreaming hgoing' hindex hx
  exact ⟨hreturning, hstreaming, hgoing, hgoing', ((hback rfl 0 0).1 hstore hload).2.1,
    (hstream rfl [0, 0]).1 hstores⟩

end Computer

end ChipEight
