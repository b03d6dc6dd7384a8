import ChipEight.Proofs.History
import ChipEight.Proofs.Traps
import ChipEight.Proofs.WellFormed

/-!
# The log of stores

Two instructions write to memory: one stores the decimal digits of a register, the other a row of
registers. `Executed.stores` lists the bytes they write. All other instructions leave memory alone, and
so do the cycles that do not complete. Between two programs memory is therefore what it was at first
with the stores of the history written over it (`Computer.memory_calls`).

The window of a store may run across the top of memory, but it is too short to come back to its own
start, so an instruction writes no byte twice. What an address holds is then told by the last
instruction whose window it lies in (`Memory.LastWrite`), and the next cycle fetches its word from there
(`memory_obeys_last_write`).
-/

namespace ChipEight

/-! ## What an instruction stores

The stores are read off the state in which the instruction was carried out, with the addresses
already wrapped around the top of memory. The list is spelled out here and does not call on the
machine, and `memory_execute` below shows that the machine writes just this. -/

namespace Executed

/-- The bytes that an instruction writes to memory, each with its address: the hundreds, tens and ones
of a register, or the registers from 0 on. -/
def stores (executed : Executed) : List (Nat × Nat) :=
  let state := executed.before
  let place (j : Nat) : Nat := (state.index + j) % 4096
  match executed.instruction with
  | .digits x =>
    let value := state.register x
    [(place 0, value / 100), (place 1, value / 10 % 10), (place 2, value % 10)]
  | .store x => (List.range (x + 1)).map fun j => (place j, state.register j)
  | _ => []

/-- The instruction writes to an address. -/
def Covers (executed : Executed) (address : Nat) : Prop :=
  address ∈ executed.stores.map Prod.fst

instance (executed : Executed) (address : Nat) : Decidable (executed.Covers address) :=
  inferInstanceAs (Decidable (address ∈ executed.stores.map Prod.fst))

theorem covers_of_mem_stores {executed : Executed} {w : Nat × Nat} (h : w ∈ executed.stores) :
    executed.Covers w.1 := List.mem_map_of_mem h

theorem stores_store (state : State) (x : Nat) :
    (Executed.mk state (.store x)).stores = state.storeWrites x := by
  rw [State.storeWrites, Memory.window, List.zip_map']
  rfl

/-- The window of a store does not come back to its own start. -/
theorem stores_nodup {executed : Executed} (h : executed.instruction.InRange) :
    (executed.stores.map Prod.fst).Nodup := by
  obtain ⟨state, instruction⟩ := executed
  -- Places less than 4096 apart are different, wherever the window begins.
  have hplaces : ∀ count ≤ 4096,
      ((List.range count).map fun j => (state.index + j) % 4096).Nodup := by
    intro count hcount
    apply List.pairwise_map.mpr
    apply List.nodup_range.imp_of_mem
    intro i j hi hj hne hsame
    have hi' := List.mem_range.mp hi
    have hj' := List.mem_range.mp hj
    omega
  cases instruction with
  | digits x => exact hplaces 3 (by decide)
  | store x =>
      have hx : x < 16 := h
      rw [stores, List.map_map]
      exact hplaces (x + 1) (by omega)
  | _ => exact List.nodup_nil

end Executed

/-! ## Memory after a history

The stores are written one after the other, so the last one decides what an address holds.
`LastWrite` says so without mentioning the order of writing: from the history alone, split at the
last instruction that covers the address. -/

namespace Memory

variable {memory : Memory} {history : List Executed} {address : Nat}

/-- Memory with the stores of a history written over it. -/
def replay (memory : Memory) (history : List Executed) : Memory :=
  history.foldl (fun m executed => m.writeAll executed.stores) memory

@[simp] theorem replay_nil : replay memory [] = memory := rfl

@[simp] theorem replay_cons (executed : Executed) (later : List Executed) :
    replay memory (executed :: later) = replay (memory.writeAll executed.stores) later := rfl

theorem replay_append (first second : List Executed) :
    replay memory (first ++ second) = replay (replay memory first) second := List.foldl_append

@[simp] theorem size_replay : (replay memory history).size = memory.size := by
  induction history generalizing memory with
  | nil => rfl
  | cons executed later ih => rw [replay_cons, ih, Bank.size_writeAll]

theorem read_replay_of_not_covered (h : ∀ executed ∈ history, ¬ executed.Covers address) :
    (replay memory history).read address = memory.read address := by
  induction history generalizing memory with
  | nil => rfl
  | cons executed later ih =>
      rw [replay_cons, ih (fun e he => h e (by simp [he]))]
      apply Bank.read_writeAll_of_ne
      rintro w hw rfl
      exact h executed (by simp) (Executed.covers_of_mem_stores hw)

/-- What an address holds after a history before which it has held `first`: the byte that was stored
there last. -/
structure LastWrite (address first : Nat) (history : List Executed) (value : Nat) : Prop where
  never_covered : (∀ executed ∈ history, ¬ executed.Covers address) → value = first
  last_covered : ∀ earlier executed later byte, history = earlier ++ executed :: later →
    (address, byte) ∈ executed.stores → (∀ e ∈ later, ¬ e.Covers address) → value = byte

theorem lastWrite_replay (hsize : memory.size = 4096) (haddress : address < 4096)
    (hrange : ∀ executed ∈ history, executed.instruction.InRange) :
    LastWrite address (memory.read address) history ((replay memory history).read address) where
  never_covered := read_replay_of_not_covered
  -- The later instructions leave the address alone, and this one writes it once.
  last_covered earlier executed later byte hsplit hstored hlater := by
    have honce := Executed.stores_nodup (hrange executed (by simp [hsplit]))
    have hfits : address < (replay memory earlier).size := by rwa [size_replay, hsize]
    rw [hsplit, replay_append, replay_cons, read_replay_of_not_covered hlater]
    exact Bank.read_writeAll_of_mem honce hstored hfits

end Memory

/-! ## Calls

One case for each kind of instruction shows what it writes. A cycle that does not complete writes
nothing, and a call that is not a cycle either replaces memory, which is excluded, or leaves it
alone. -/

/-- An instruction writes what it stores to memory, and nothing else. -/
theorem memory_execute {host : Host} {word : Nat} {instruction : Instruction} {state : State}
    {usage : Usage} :
    (execute host word instruction state usage).state.memory =
      state.memory.writeAll (Executed.mk state instruction).stores := by
  cases instruction with
  | ret =>
      rw [execute_ret]
      rfl
  | call address =>
      rw [execute_call]
      rfl
  | awaitKey x =>
      cases hwait : (host.awaitKey state.keys usage).wait <;>
        simp [execute, hwait, State.setRegister, Executed.stores]
  | skipIfByte | skipUnlessByte | skipIfSame | skipUnlessSame | skipIfDown | skipUnlessDown =>
      simp [execute, State.skipIf_eq, Executed.stores]
  | addToIndex x => simp [execute, State.addToIndex_eq, Executed.stores]
  | store x =>
      rw [Executed.stores_store]
      simp [execute, State.passBytes_eq, State.writeMemory]
  | load x => simp [execute, State.passBytes_eq, Executed.stores]
  | _ => rfl

/-- A call that brings no other memory with it. -/
def Call.KeepsMemory (request : Call) : Prop := request ≠ .reset ∧ ∀ rom, request ≠ .load rom

namespace Computer

variable {host : Host} {computer : Computer}

/-- What is carried out has its operands in range. -/
theorem inRange_of_mem_history {requests : List Call} {executed : Executed}
    (h : executed ∈ computer.history host requests) : executed.instruction.InRange := by
  induction requests generalizing computer with
  | nil => cases h
  | cons request rest ih =>
      rcases List.mem_append.mp h with hfirst | hlater
      · cases request with
        -- Only cycles have a history, and their instructions come from the table.
        | step patience =>
            rw [Option.mem_toList, executed?] at hfirst
            split at hfirst
            · obtain ⟨instruction, decoded, rfl⟩ := Option.map_eq_some_iff.mp hfirst
              exact Instruction.decode_inRange decoded
            · cases hfirst
        | _ => cases hfirst
      · exact ih hlater

/-- A call writes what the instruction stores that it carries out. -/
theorem memory_call {request : Call} (hkeeps : request.KeepsMemory) :
    (computer.call host request).state.memory =
      Memory.replay computer.state.memory (computer.executed? host request).toList := by
  cases request with
  | load rom => exact absurd rfl (hkeeps.2 rom)
  | reset => exact absurd rfl hkeeps.1
  | pressKey number => rfl
  | releaseKey number => rfl
  | setKeys numbers => rfl
  | step patience =>
      by_cases houtcome : (computer.cycle host patience).outcome = .completed
      · obtain ⟨instruction, decoded, -, state_eq⟩ := State.step_of_completed houtcome
        rw [executed?_of_completed houtcome decoded, call, cycle, state_eq]
        exact memory_execute
      · rw [executed?, if_neg houtcome, call, cycle, State.step_of_not_completed houtcome]
        rfl

/-- Calls that bring no other memory write the stores of their history. -/
theorem memory_calls {requests : List Call} (hkeep : ∀ request ∈ requests, request.KeepsMemory) :
    (computer.calls host requests).state.memory =
      Memory.replay computer.state.memory (computer.history host requests) := by
  induction requests generalizing computer with
  | nil => rfl
  | cons request rest ih =>
      rw [calls_cons, ih (fun r hr => hkeep r (by simp [hr])), memory_call (hkeep request (by simp)),
        history_cons, Memory.replay_append]

/-! ## Fetching

The word is fetched before anything else happens in the cycle, so it is the word of memory as the
calls before have left it. The log says which one it was. -/

/-- A cycle that is not refused begins with fetching the word that memory has at `pc` now. -/
theorem notices_cycle (hhalt : computer.state.halt = none) (patience : Nat) :
    ∃ rest, (computer.cycle host patience).notices =
      .fetched computer.state.pc computer.state.nextWord :: rest := by
  cases hd : Encoding.decode Instruction.table computer.state.nextWord with
  | none =>
      rw [cycle, State.step, State.stepWith_of_decode_none hhalt hd]
      exact ⟨_, rfl⟩
  | some instruction =>
      rw [cycle, State.step, State.stepWith_of_decode_some hhalt hd, State.finish]
      -- A trap adds its notice at the end.
      split
      · exact ⟨_, rfl⟩
      · exact ⟨_, rfl⟩
      · exact ⟨_, rfl⟩

theorem decode_of_executed? {patience : Nat} {executed : Executed}
    (h : computer.executed? host (.step patience) = some executed) :
    Encoding.decode Instruction.table computer.state.nextWord = some executed.instruction := by
  rw [executed?] at h
  split at h
  · obtain ⟨instruction, decoded, rfl⟩ := Option.map_eq_some_iff.mp h
    exact decoded
  · cases h

/-- Over any calls but loads and resets on a reachable computer, memory obeys the law of the last
write, so it changes only where the window of a store reaches. The next cycle fetches its word from
memory as the stores have left it, and carries out what this word means. -/
theorem memory_obeys_last_write (hreachable : Reachable host computer) {requests : List Call}
    (hkeep : ∀ request ∈ requests, request.KeepsMemory) :
    let before := computer.state.memory
    let after := computer.calls host requests
    let history := computer.history host requests
    (∀ address < 4096, Memory.LastWrite address (before.read address) history
      (after.state.memory.read address)) ∧
    (∀ address, after.state.memory.read address ≠ before.read address →
      ∃ executed ∈ history, executed.Covers address) ∧
    (after.state.halt = none → ∀ patience,
      let pc := after.state.pc
      let word := 256 * after.state.memory.read pc + after.state.memory.read ((pc + 1) % 4096)
      (∃ rest, (after.cycle host patience).notices = .fetched pc word :: rest) ∧
      ∀ executed, after.executed? host (.step patience) = some executed →
        Encoding.decode Instruction.table word = some executed.instruction) := by
  intro before after history
  have hmemory : after.state.memory = Memory.replay before history := memory_calls hkeep
  have hsize : before.size = 4096 := hreachable.wellFormed.memory.size_eq
  refine ⟨?_, ?_, ?_⟩
  · -- the law
    intro address haddress
    rw [hmemory]
    exact Memory.lastWrite_replay hsize haddress fun executed h => inRange_of_mem_history h
  · -- where memory can have changed
    intro address hchanged
    apply Decidable.byContradiction
    intro hnever
    apply hchanged
    rw [hmemory]
    apply Memory.read_replay_of_not_covered
    intro executed hmem hcovers
    exact hnever ⟨executed, hmem, hcovers⟩
  · -- the next word
    intro hhalt patience pc word
    have hfits : after.state.memory.Fits 4096 256 := (hreachable.calls requests).wellFormed.memory
    have hword : after.state.nextWord = word := Memory.word_eq_add hfits pc
    rw [← hword]
    exact ⟨notices_cycle hhalt patience, fun executed h => decode_of_executed? h⟩

/-- A computer that is about to store register 0 over the first byte of the instruction after the
store. -/
def patcher : Computer :=
  (new {}).calls {}
    [.load [0xA2, 0x06, 0x60, 0x6A, 0xF0, 0x55, 0x00, 0x07], .step 0, .step 0]

theorem patcher_obeys_last_write :
    let after := patcher.calls {} [.step 0]
    Reachable {} patcher ∧ (∀ request ∈ [Call.step 0], request.KeepsMemory) ∧
      after.state.memory.read 0x206 = 0x6A ∧ after.state.memory.read 0x207 = 0x07 ∧
      ∃ rest, (after.cycle {} 0).notices = .fetched 0x206 0x6A07 :: rest := by
  have hreachable : Reachable {} patcher := ⟨{}, _, rfl⟩
  have hkeep : ∀ request ∈ [Call.step 0], request.KeepsMemory := by
    simp [Call.KeepsMemory]
  have hrun :
      let after := patcher.calls {} [.step 0]
      (patcher.cycle {} 0).outcome = .completed ∧
        Encoding.decode Instruction.table patcher.state.nextWord = some (.store 0) ∧
        (Executed.mk patcher.state (.store 0)).stores = [(0x206, 0x6A)] ∧
        patcher.state.memory.read 0x207 = 0x07 ∧ after.state.pc = 0x206 ∧
        after.state.halt = none := by decide +kernel
  obtain ⟨hcompleted, hdecoded, hstores, hold, hpc, hhalt⟩ := hrun
  have hhistory : patcher.history {} [.step 0] = [⟨patcher.state, .store 0⟩] := by
    rw [history_cons, history_nil, executed?_of_completed hcompleted hdecoded]
    rfl
  obtain ⟨hlaw, -, hfetch⟩ := memory_obeys_last_write hreachable hkeep
  have hpatched : (patcher.calls {} [.step 0]).state.memory.read 0x206 = 0x6A :=
    (hlaw 0x206 (by decide)).last_covered [] _ [] 0x6A hhistory (by simp [hstores]) (by simp)
  have hkept : (patcher.calls {} [.step 0]).state.memory.read 0x207 = 0x07 := by
    refine ((hlaw 0x207 (by decide)).never_covered ?_).trans hold
    simp [hhistory, Executed.Covers, hstores]
  refine ⟨hreachable, hkeep, hpatched, hkept, ?_⟩
  have hfetched := (hfetch hhalt 0).1
  rw [hpc, show (0x206 + 1) % 4096 = 0x207 by decide, hpatched, hkept] at hfetched
  exact hfetched

end Computer

end ChipEight
