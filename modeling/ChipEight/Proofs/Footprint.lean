import ChipEight.Proofs.Programs
import ChipEight.Proofs.Stores
import Mathlib.Data.Set.Defs

/-!
# Memory that is not read

A cycle reads the two bytes of its instruction word. Drawing reads the rows of the sprite as well, and
a load the bytes that it takes; nothing else is read (`State.reads`). With another memory that has the
same bytes at these addresses a cycle ends in the same way, does the same to everything else, and
writes the same bytes (`Computer.cycle_withMemory`). As long as that goes on, a computer with another
memory carries out the same history, and its memory is its own one with the stores of this history
written over it (`Computer.calls_withMemory`).

So a difference between two memories stays without effect until it is read before it is overwritten
(`unread_memory_does_not_matter`). What a longer program has left in memory behind a shorter one is such
a difference.
-/

namespace ChipEight

/-! ## Memories that agree

Two memories of one size are compared address by address. At an address that the writes cover both
hold what was written, whatever they held before. -/

theorem Bank.read_writeAll_congr {α : Type} [Inhabited α] {first second : Bank α}
    (hsize : second.size = first.size) {writes : List (Nat × α)} {i : Nat}
    (h : i ∈ writes.map Prod.fst ∨ second.read i = first.read i) :
    (second.writeAll writes).read i = (first.writeAll writes).read i := by
  induction writes generalizing first second with
  | nil => simpa using h
  | cons w ws ih =>
      rw [writeAll_cons, writeAll_cons]
      apply ih (by simp [hsize])
      rw [read_write, read_write, hsize]
      by_cases hhere : w.1 = i
      · -- Both hold the value now, if the address exists at all.
        right
        split
        · rfl
        · next hlost =>
          have hout : first.size ≤ i := by omega
          rw [read_eq_default hout, read_eq_default (hsize ▸ hout)]
      · rw [if_neg (fun h => hhere h.1), if_neg (fun h => hhere h.1)]
        rcases h with hwritten | hsame
        · exact .inl ((List.mem_cons.mp hwritten).resolve_left (Ne.symm hhere))
        · exact .inr hsame

/-- Where two memories agree, or where they are written over, they agree after the same stores. -/
theorem Memory.read_replay_congr {first second : Memory} (hsize : second.size = first.size)
    {history : List Executed} {a : Nat}
    (h : (∃ executed ∈ history, executed.Covers a) ∨ second.read a = first.read a) :
    (replay second history).read a = (replay first history).read a := by
  induction history generalizing first second with
  | nil => simpa using h
  | cons executed later ih =>
      rw [replay_cons, replay_cons]
      apply ih (by simp [hsize])
      rcases h with ⟨e, hmem, hcovers⟩ | hsame
      · rcases List.mem_cons.mp hmem with rfl | hlater
        · -- What this instruction covers is the same from here on; what a later one covers can
          -- wait.
          exact .inr (Bank.read_writeAll_congr hsize (.inl hcovers))
        · exact .inl ⟨e, hlater, hcovers⟩
      · exact .inr (Bank.read_writeAll_congr hsize (.inr hsame))

/-! ## What a cycle reads

`State.reads` is a list of addresses and says nothing about values. That it leaves nothing out is
what the next section shows: a memory with the same bytes there cannot be told from the first one by
the cycle. -/

/-- The addresses that an instruction reads, given the index. -/
def Instruction.reads (index : Nat) : Instruction → List Nat
  | .draw _ _ rows => (List.range rows).map fun r => (index + r) % 4096
  | .load x => (List.range (x + 1)).map fun j => (index + j) % 4096
  | _ => []

namespace State

/-- The addresses that the next cycle reads. A halted computer reads nothing. -/
def reads (state : State) : List Nat :=
  match state.halt with
  | some _ => []
  | none =>
    state.pc :: (state.pc + 1) % 4096 ::
      (Encoding.decode Instruction.table state.nextWord).elim [] (Instruction.reads state.index)

/-- The state with another memory. -/
def withMemory (state : State) (memory : Memory) : State := { state with memory := memory }

variable {state : State} {memory : Memory}

/-- Another memory has the same bytes wherever the next cycle reads. -/
def ReadsSame (state : State) (memory : Memory) : Prop :=
  ∀ a ∈ state.reads, memory.read a = state.memory.read a

theorem nextWord_withMemory (hhalt : state.halt = none) (h : state.ReadsSame memory) :
    (state.withMemory memory).nextWord = state.nextWord := by
  rw [ReadsSame, reads, hhalt] at h
  have hfirst := h state.pc (by simp)
  have hsecond := h ((state.pc + 1) % 4096) (by simp)
  show (memory.read state.pc <<< 8) ||| memory.read ((state.pc + 1) % 4096) = state.nextWord
  rw [hfirst, hsecond]
  rfl

theorem ReadsSame.instruction {instruction : Instruction} (h : state.ReadsSame memory)
    (hhalt : state.halt = none)
    (hd : Encoding.decode Instruction.table state.nextWord = some instruction) :
    ∀ a ∈ instruction.reads state.index, memory.read a = state.memory.read a := by
  intro a ha
  apply h
  simp [reads, hhalt, hd, ha]

theorem bytes_withMemory {start count : Nat}
    (h : ∀ a ∈ Memory.window start count, memory.read a = state.memory.read a) :
    Memory.bytes memory start count = Memory.bytes state.memory start count :=
  List.map_congr_left h

theorem sprite_withMemory (x y : Nat) {rows : Nat}
    (h : ∀ a ∈ (Instruction.draw x y rows).reads state.index, memory.read a = state.memory.read a) :
    (state.withMemory memory).sprite x y rows = state.sprite x y rows := by
  have hbytes := bytes_withMemory h
  show state.screen.draw (Sprite.points (state.register x) (state.register y)
    (Memory.bytes memory state.index rows)) = _
  rw [hbytes]
  rfl

theorem loadWrites_withMemory {x : Nat}
    (h : ∀ a ∈ (Instruction.load x).reads state.index, memory.read a = state.memory.read a) :
    (state.withMemory memory).loadWrites x = state.loadWrites x := by
  have hbytes := bytes_withMemory h
  show (List.range (x + 1)).zip (Memory.bytes memory state.index (x + 1)) = _
  rw [hbytes]
  rfl

end State

/-! ## Cycles with another memory

An instruction that is carried out with another memory leaves behind what it would have left with
the first one, but for memory, and there it makes the same writes. Only drawing and loading look at
memory; the others are equal by definition once their branches are the same on both sides. -/

section

variable {instruction : Instruction} {state : State} {memory : Memory}

/-- With another memory that has the same bytes where it reads, an instruction does the same and writes
the same bytes. -/
theorem execute_withMemory (host : Host) (word : Nat) (usage : Usage)
    (h : ∀ a ∈ instruction.reads state.index, memory.read a = state.memory.read a) :
    let cycle := execute host word instruction state usage
    execute host word instruction (state.withMemory memory) usage =
      { cycle with
        state :=
          cycle.state.withMemory (memory.writeAll (Executed.mk state instruction).stores) } := by
  cases instruction with
  -- Whether these two trap depends on the stack alone.
  | ret =>
      by_cases hempty : state.depth = 0
      · have hempty' : (state.withMemory memory).depth = 0 := hempty
        rw [execute_ret_of_empty hempty, execute_ret_of_empty hempty']
        rfl
      · have hopen' : (state.withMemory memory).depth ≠ 0 := hempty
        rw [execute_ret_of_open hempty, execute_ret_of_open hopen']
        rfl
  | call address =>
      by_cases hfull : State.stackCapacity ≤ state.depth
      · have hfull' : State.stackCapacity ≤ (state.withMemory memory).depth := hfull
        rw [execute_call_of_full hfull, execute_call_of_full hfull']
        rfl
      · have hroom' : ¬ State.stackCapacity ≤ (state.withMemory memory).depth := hfull
        rw [execute_call_of_room hfull, execute_call_of_room hroom']
        rfl
  -- The two that read memory find the same bytes.
  | draw x y rows =>
      have hsprite := State.sprite_withMemory x y h
      show (Cycle.done ((state.withMemory memory).drawSprite x y rows) usage).note
        (.drew rows (state.register x) (state.register y)
          ((state.withMemory memory).sprite x y rows).collision) = _
      rw [State.drawSprite, hsprite]
      rfl
  | load x =>
      have hwrites := State.loadWrites_withMemory h
      show Cycle.done (State.passBytes { state.withMemory memory with
        registers := state.registers.writeAll ((state.withMemory memory).loadWrites x) }
          host.dialect (x + 1)) usage = _
      rw [hwrites, State.passBytes_eq]
      dsimp only [execute]
      rw [State.passBytes_eq]
      rfl
  -- The others never look at memory.
  | awaitKey x =>
      dsimp only [execute]
      have hkeys : (state.withMemory memory).keys = state.keys := rfl
      rw [hkeys]
      split <;> rfl
  | skipIfByte | skipUnlessByte | skipIfSame | skipUnlessSame | skipIfDown | skipUnlessDown =>
      dsimp only [execute]
      rw [State.skipIf_eq, State.skipIf_eq]
      rfl
  | addToIndex x =>
      dsimp only [execute]
      rw [State.addToIndex_eq, State.addToIndex_eq]
      rfl
  | store x =>
      dsimp only [execute]
      rw [Executed.stores_store, State.passBytes_eq, State.passBytes_eq]
      rfl
  | _ => rfl

/-- A cycle whose instruction writes to memory always completes. -/
theorem stores_of_not_completed {host : Host} {usage : Usage} (hhalt : state.halt = none)
    (hd : Encoding.decode Instruction.table state.nextWord = some instruction)
    (h : (state.step host usage).outcome ≠ .completed) :
    (Executed.mk state instruction).stores = [] := by
  rw [State.step, State.stepWith_of_decode_some hhalt hd, State.finish_outcome] at h
  -- The two that write can neither wait nor trap.
  cases instruction with
  | digits x => exact absurd rfl h
  | store x => exact absurd rfl h
  | _ => rfl

/-- The same for a cycle that carries the instruction out, or tries to. -/
theorem State.step_withMemory (hhalt : state.halt = none)
    (hd : Encoding.decode Instruction.table state.nextWord = some instruction)
    (h : state.ReadsSame memory) (host : Host) (usage : Usage) :
    let cycle := state.step host usage
    (state.withMemory memory).step host usage =
      { cycle with
        state :=
          cycle.state.withMemory (memory.writeAll (Executed.mk state instruction).stores) } := by
  have hhalt' : (state.withMemory memory).halt = none := hhalt
  have hword := State.nextWord_withMemory hhalt h
  have hd' : Encoding.decode Instruction.table (state.withMemory memory).nextWord =
      some instruction := by rw [hword, hd]
  have hreads := h.instruction hhalt hd
  have hexecute := execute_withMemory host state.nextWord (state.fetchUsage host usage)
    (show ∀ a ∈ instruction.reads (state.fetched host usage).index,
      memory.read a = (state.fetched host usage).memory.read a from hreads)
  have hfirst := State.stepWith_of_decode_some hhalt hd host usage
  have hsecond := State.stepWith_of_decode_some hhalt' hd' host usage
  have hfetched : (state.withMemory memory).fetched host usage =
    (state.fetched host usage).withMemory memory := rfl
  have hfetchUsage : (state.withMemory memory).fetchUsage host usage = state.fetchUsage host usage :=
    rfl
  dsimp only at hexecute hfirst hsecond ⊢
  rw [hword, hfetched, hfetchUsage, hexecute] at hsecond
  rw [State.step, State.step, hfirst, hsecond, State.finish, State.finish]
  dsimp only
  split <;> rfl

end

namespace Computer

variable {host : Host} {computer : Computer} {memory : Memory}

/-- The computer with another memory. -/
def withMemory (computer : Computer) (memory : Memory) : Computer :=
  { computer with state := computer.state.withMemory memory }

/-- With another memory that has the same bytes where it reads, a cycle ends in the same way, leaves the
same behind outside memory, and writes the same bytes. -/
theorem cycle_withMemory (h : computer.state.ReadsSame memory) (patience : Nat) :
    let cycle := computer.cycle host patience
    (computer.withMemory memory).cycle host patience =
      { cycle with
        state := cycle.state.withMemory
          (Memory.replay memory (computer.executed? host (.step patience)).toList) } := by
  cases hhalt : computer.state.halt with
  | some cause =>
      have hhalt' : (computer.state.withMemory memory).halt = some cause := hhalt
      simp only [executed?, cycle, withMemory, State.step, State.stepWith_of_halted hhalt,
        State.stepWith_of_halted hhalt']
      rfl
  | none =>
      cases hd : Encoding.decode Instruction.table computer.state.nextWord with
      | none =>
          have hhalt' : (computer.state.withMemory memory).halt = none := hhalt
          have hword := State.nextWord_withMemory hhalt h
          have hd' := hword ▸ hd
          simp only [executed?, cycle, withMemory, State.step,
            State.stepWith_of_decode_none hhalt hd, State.stepWith_of_decode_none hhalt' hd', hword]
          rfl
      | some instruction =>
          have hstep := State.step_withMemory hhalt hd h host
            { computer.usage with patience := patience }
          have hreplay : Memory.replay memory (computer.executed? host (.step patience)).toList =
              memory.writeAll (Executed.mk computer.state instruction).stores := by
            by_cases houtcome : (computer.cycle host patience).outcome = .completed
            · -- The writes are part of the history if and only if the cycle completes; one that
              -- does not complete has none.
              rw [executed?_of_completed houtcome hd]
              rfl
            · rw [executed?, if_neg houtcome, stores_of_not_completed hhalt hd houtcome]
              rfl
          rw [hreplay]
          exact hstep

/-! ## Runs

By induction on the calls, with both memories arbitrary: the memory that the rest starts from is the
other one with the stores of the first call written over it. -/

theorem outcome?_withMemory {request : Call}
    (h : ∀ patience, request = .step patience → computer.state.ReadsSame memory) :
    (computer.withMemory memory).outcome? host request = computer.outcome? host request := by
  cases request with
  | step patience => rw [outcome?, outcome?, cycle_withMemory (h patience rfl)]
  | _ => rfl

theorem call_withMemory (host : Host) {request : Call} (hkeeps : request.KeepsMemory)
    (h : ∀ patience, request = .step patience → computer.state.ReadsSame memory) :
    (computer.withMemory memory).call host request =
      (computer.call host request).withMemory
        (Memory.replay memory (computer.executed? host request).toList) := by
  cases request with
  | load rom => exact absurd rfl (hkeeps.2 rom)
  | reset => exact absurd rfl hkeeps.1
  | pressKey number => rfl
  | releaseKey number => rfl
  | setKeys numbers => rfl
  | step patience =>
      rw [call, cycle_withMemory (h patience rfl)]
      rfl

/-- As long as every cycle finds the bytes that it reads, a computer with another memory does the same
and writes the same bytes. -/
theorem calls_withMemory {requests : List Call} (hkeep : ∀ request ∈ requests, request.KeepsMemory)
    (h : ∀ count patience, requests[count]? = some (.step patience) →
      (computer.calls host (requests.take count)).state.ReadsSame
        (Memory.replay memory (computer.history host (requests.take count)))) :
    (computer.withMemory memory).outcomes host requests = computer.outcomes host requests ∧
      (computer.withMemory memory).calls host requests =
        (computer.calls host requests).withMemory
          (Memory.replay memory (computer.history host requests)) := by
  induction requests generalizing computer memory with
  | nil => exact ⟨rfl, rfl⟩
  | cons request rest ih =>
      have hfirst : ∀ patience, request = .step patience → computer.state.ReadsSame memory := by
        rintro patience rfl
        exact h 0 patience rfl
      -- The rest starts from a memory that already has the stores of the first call.
      have hcall := call_withMemory host (hkeep request (by simp)) hfirst
      obtain ⟨houtcomes, hcalls⟩ := ih (fun r hr => hkeep r (by simp [hr])) (by
        intro count patience hstep
        have hlater := h (count + 1) patience hstep
        rwa [List.take_succ_cons, calls_cons, history_cons, Memory.replay_append] at hlater)
      refine ⟨?_, ?_⟩
      · rw [outcomes, outcomes, outcome?_withMemory hfirst, hcall, houtcomes]
      · rw [calls_cons, calls_cons, hcall, hcalls, history_cons, Memory.replay_append]

/-! ## Differences that are not read

The set of hidden addresses is fixed, and an address leaves it as soon as an instruction of the
history covers it. `Avoids` looks at the first computer only, and that is enough: the second one
reads the same addresses as long as the two run alike. -/

/-- Two computers are the same but for memory at hidden addresses. -/
structure AgreeExcept (hidden : Set Nat) (first second : Computer) : Prop where
  eq_withMemory : second = first.withMemory second.state.memory
  size_eq : second.state.memory.size = first.state.memory.size
  read_eq : ∀ a, a ∉ hidden → second.state.memory.read a = first.state.memory.read a

/-- No cycle among the calls reads a hidden address that has not been overwritten before. -/
def Avoids (host : Host) (computer : Computer) (hidden : Set Nat) (requests : List Call) : Prop :=
  ∀ count patience, requests[count]? = some (.step patience) →
    ∀ a ∈ (computer.calls host (requests.take count)).state.reads, a ∈ hidden →
      ∃ executed ∈ computer.history host (requests.take count), executed.Covers a

/-- In calls two computers do the same, and what is hidden becomes less as it is overwritten. -/
structure RunAlike (host : Host) (hidden : Set Nat) (first second : Computer)
    (requests : List Call) : Prop where
  outcomes_eq : second.outcomes host requests = first.outcomes host requests
  agree : AgreeExcept
    {a ∈ hidden | ∀ executed ∈ first.history host requests, ¬ executed.Covers a}
    (first.calls host requests) (second.calls host requests)

variable {hidden : Set Nat} {first second : Computer} {requests : List Call}

theorem AgreeExcept.refl (hidden : Set Nat) (computer : Computer) :
    AgreeExcept hidden computer computer where
  eq_withMemory := rfl
  size_eq := rfl
  read_eq _ _ := rfl

theorem Avoids.take (h : computer.Avoids host hidden requests) (count : Nat) :
    computer.Avoids host hidden (requests.take count) := by
  intro i patience hstep
  have hi : i < count := by
    apply Decidable.byContradiction
    intro hpast
    rw [List.getElem?_take_eq_none (Nat.le_of_not_lt hpast)] at hstep
    cases hstep
  rw [List.getElem?_take_of_lt hi] at hstep
  rw [List.take_take, Nat.min_eq_left (Nat.le_of_lt hi)]
  exact h i patience hstep

theorem AgreeExcept.read_replay (hagree : AgreeExcept hidden first second)
    {history : List Executed} {a : Nat}
    (h : a ∈ hidden → ∃ executed ∈ history, executed.Covers a) :
    (Memory.replay second.state.memory history).read a =
      (Memory.replay first.state.memory history).read a := by
  apply Memory.read_replay_congr hagree.size_eq
  -- A hidden address has been written over, and at any other the memories agree from the beginning.
  by_cases ha : a ∈ hidden
  · exact .inl (h ha)
  · exact .inr (hagree.read_eq a ha)

/-- Computers that agree except at hidden addresses run alike as long as these are avoided. -/
theorem AgreeExcept.runAlike (hagree : AgreeExcept hidden first second)
    (hkeep : ∀ request ∈ requests, request.KeepsMemory)
    (havoids : first.Avoids host hidden requests) : RunAlike host hidden first second requests := by
  have hmemory : ∀ {earlier : List Call}, (∀ request ∈ earlier, request.KeepsMemory) →
      (first.calls host earlier).state.memory =
        Memory.replay first.state.memory (first.history host earlier) := memory_calls
  have hreads : ∀ count patience, requests[count]? = some (.step patience) →
      (first.calls host (requests.take count)).state.ReadsSame
        (Memory.replay second.state.memory (first.history host (requests.take count))) := by
    intro count patience hstep a ha
    rw [hmemory fun r hr => hkeep r (List.mem_of_mem_take hr)]
    exact hagree.read_replay (havoids count patience hstep a ha)
  obtain ⟨houtcomes, hcalls⟩ := calls_withMemory hkeep hreads
  rw [← hagree.eq_withMemory] at houtcomes hcalls
  refine ⟨houtcomes, ?_, ?_, ?_⟩
  · rw [hcalls]
    rfl
  · rw [hcalls, hmemory hkeep]
    show (Memory.replay second.state.memory (first.history host requests)).size = _
    rw [Memory.size_replay, Memory.size_replay, hagree.size_eq]
  · -- An address that is not hidden any more was covered by the history.
    intro a ha
    rw [hcalls, hmemory hkeep]
    apply hagree.read_replay
    intro hhidden
    apply Decidable.byContradiction
    intro hnever
    exact ha ⟨hhidden, fun executed hmem hcovers => hnever ⟨executed, hmem, hcovers⟩⟩

/-- The same after any number of the calls. -/
theorem AgreeExcept.runAlike_take (hagree : AgreeExcept hidden first second)
    (hkeep : ∀ request ∈ requests, request.KeepsMemory)
    (havoids : first.Avoids host hidden requests) (count : Nat) :
    RunAlike host hidden first second (requests.take count) :=
  hagree.runAlike (fun r hr => hkeep r (List.mem_of_mem_take hr)) (havoids.take count)

/-! ## Programs that are loaded over others

Loading writes the bytes of a program and leaves the rest of memory alone. So the two memories
differ at most where the longer program was and the shorter one is not. A program that is too long
for memory is not loaded in the first place, and nothing is left over. -/

/-- The addresses behind a program at which a longer one has left bytes. -/
def leftover (longer shorter : Rom) : Set Nat :=
  {a | 0x200 + shorter.length ≤ a ∧ a < 0x200 + longer.length}

/-- A program that is loaded over a longer one finds the memory of a new computer, except behind its own
end. -/
theorem agreeExcept_leftover (host : Host) (usage : Usage) {longer shorter : Rom}
    (hlength : shorter.length ≤ longer.length) :
    AgreeExcept (leftover longer shorter) ((new usage).calls host [.load longer, .load shorter])
      ((new usage).calls host [.load shorter]) := by
  rw [calls_cons]
  by_cases hfits : longer.length ≤ Memory.programCapacity
  · have hfits' : shorter.length ≤ Memory.programCapacity := Nat.le_trans hlength hfits
    rw [call_load_of_le hfits, calls_cons, calls_cons, call_load_of_le hfits',
      call_load_of_le hfits']
    let fresh : Memory := State.initial.memory
    have hsize : fresh.size = Memory.capacity := (State.WellFormed.powerOn none).memory.size_eq
    have hsize' : (fresh.install longer).size = Memory.capacity := (Bank.size_writeAll _ _).trans hsize
    refine ⟨rfl, ?_, ?_⟩
    · show (fresh.install shorter).size = ((fresh.install longer).install shorter).size
      simp only [Memory.install, Bank.size_writeAll]
    · intro a ha
      show (fresh.install shorter).read a = ((fresh.install longer).install shorter).read a
      by_cases hinside : 0x200 ≤ a ∧ a < 0x200 + shorter.length
      · obtain ⟨j, rfl⟩ := Nat.exists_eq_add_of_le hinside.1
        have hj : j < shorter.length := by omega
        exact (Memory.read_install hsize hfits' hj).trans
          (Memory.read_install hsize' hfits' hj).symm
      · have houtside : a < 0x200 ∨ 0x200 + shorter.length ≤ a := by omega
        have houtside' : a < 0x200 ∨ 0x200 + longer.length ≤ a := by
          apply Decidable.byContradiction
          intro hbetween
          exact ha ⟨by omega, by omega⟩
        rw [Memory.read_install_of_outside houtside, Memory.read_install_of_outside houtside,
          Memory.read_install_of_outside houtside']
  · rw [call_load_of_lt (Nat.lt_of_not_le hfits)]
    exact .refl _ _

/-- A difference in memory has no effect before it is read. Two computers that are the same except
for memory at hidden addresses do the same in all calls but loads and resets, as long as no hidden
address is read before it is overwritten. So on a new computer a program runs as if no longer one had
been there, as long as it does not read what that one has left. -/
theorem unread_memory_does_not_matter (host : Host) :
    (∀ (hidden : Set Nat) (first second : Computer), AgreeExcept hidden first second →
      ∀ requests : List Call, (∀ request ∈ requests, request.KeepsMemory) →
        first.Avoids host hidden requests →
        ∀ count, RunAlike host hidden first second (requests.take count)) ∧
    ∀ (usage : Usage) (longer shorter : Rom), shorter.length ≤ longer.length →
      let reloaded := (new usage).calls host [.load longer, .load shorter]
      let alone := (new usage).calls host [.load shorter]
      ∀ requests : List Call, (∀ request ∈ requests, request.KeepsMemory) →
        reloaded.Avoids host (leftover longer shorter) requests →
        ∀ count, RunAlike host (leftover longer shorter) reloaded alone (requests.take count) := by
  refine ⟨?_, ?_⟩
  · intro hidden first second hagree requests hkeep havoids count
    exact hagree.runAlike_take hkeep havoids count
  · intro usage longer shorter hlength reloaded alone requests hkeep havoids count
    have hagree : AgreeExcept (leftover longer shorter) reloaded alone :=
      agreeExcept_leftover host usage hlength
    exact hagree.runAlike_take hkeep havoids count

/-- A program that stores the word of an instruction right behind its own end and runs into it. -/
def extender : Rom := [0xA2, 0x06, 0x61, 0xE0, 0xF1, 0x55]

/-- A longer program, whose end a computer would not know as an instruction. -/
def remnant : Rom := List.replicate 8 0xFF

theorem extender_ignores_remnant :
    let reloaded := (new {}).calls {} [.load remnant, .load extender]
    let alone := (new {}).calls {} [.load extender]
    let requests := List.replicate 4 (Call.step 0)
    extender.length ≤ remnant.length ∧ (∀ request ∈ requests, request.KeepsMemory) ∧
      reloaded.Avoids {} (leftover remnant extender) requests ∧
      alone.outcomes {} requests = List.replicate 4 .completed ∧
      reloaded.state.memory.read 0x206 = 0xFF ∧ alone.state.memory.read 0x206 = 0 ∧
      RunAlike {} (leftover remnant extender) reloaded alone requests := by
  intro reloaded alone requests
  have hlength : extender.length ≤ remnant.length := by decide
  have hkeep : ∀ request ∈ requests, request.KeepsMemory := by
    intro request hmem
    cases List.eq_of_mem_replicate hmem
    simp [Call.KeepsMemory]
  have hreads : ∀ count < 4, ∀ a ∈ (reloaded.calls {} (requests.take count)).state.reads,
      0x206 ≤ a → ∃ executed ∈ reloaded.history {} (requests.take count), executed.Covers a := by
    decide +kernel
  -- The bytes behind the end are read in the last cycle only, after the store.
  have havoids : reloaded.Avoids {} (leftover remnant extender) requests := by
    intro count patience hstep a ha hhidden
    have hcount : count < 4 := (List.getElem?_eq_some_iff.mp hstep).1
    exact hreads count hcount a ha hhidden.1
  have hrun : reloaded.outcomes {} requests = List.replicate 4 .completed ∧
      reloaded.state.memory.read 0x206 = 0xFF ∧ alone.state.memory.read 0x206 = 0 := by decide +kernel
  have halike : RunAlike {} (leftover remnant extender) reloaded alone requests :=
    (unread_memory_does_not_matter {}).2 {} remnant extender hlength requests hkeep havoids 4
  exact ⟨hlength, hkeep, havoids, halike.outcomes_eq.trans hrun.1, hrun.2.1, hrun.2.2, halike⟩

end Computer

end ChipEight
