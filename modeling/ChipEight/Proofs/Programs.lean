import ChipEight.Proofs.History
import ChipEight.Proofs.WellFormed

/-!
# Programs and resets

A program that fits is copied to memory, byte by byte from `0x200` on, and remembered; one that does
not fit is refused and nothing changes. A computer remembers the last program that was not refused
(`Computer.program_calls`), and a reset makes of it a new computer with that program loaded, whatever
has happened before. Only what it has used of its surroundings stays used (`reset_eq_new_load`).
-/

namespace ChipEight

/-! ## Installing a program

Installing is one list of writes, a byte at each address from the start of the program on. The
addresses are all different, so what is read afterwards at one of them is its own byte, and what is
read elsewhere is what was there. -/

namespace Memory

variable {memory : Memory} {rom : Rom}

/-- The bytes of a program that fits are in memory once it is installed. -/
theorem read_install (hsize : memory.size = capacity) (hfits : rom.length ≤ programCapacity) {j : Nat}
    (hj : j < rom.length) : (install memory rom).read (programStart + j) = rom[j].toNat := by
  let writes := rom.zipIdx.map fun cell => (programStart + cell.2, cell.1.toNat)
  have hinstall : install memory rom = memory.writeAll writes := rfl
  have honce : (writes.map Prod.fst).Nodup := by
    have haddresses : writes.map Prod.fst = (rom.zipIdx.map Prod.snd).map (programStart + ·) := by
      simp only [writes, List.map_map]
      rfl
    rw [haddresses, List.zipIdx_map_snd]
    refine List.pairwise_map.mpr (List.Pairwise.imp ?_ List.nodup_range')
    intro j k hne hsame
    exact hne (Nat.add_left_cancel hsame)
  have hmem : (programStart + j, rom[j].toNat) ∈ writes := by
    refine List.mem_map.mpr ⟨(rom[j], j), ?_, rfl⟩
    exact List.mem_zipIdx_iff_getElem?.mpr (List.getElem?_eq_getElem hj)
  have hlt : programStart + j < memory.size := by
    rw [hsize]
    simp only [programStart, programCapacity, capacity] at hfits ⊢
    omega
  rw [hinstall]
  exact Bank.read_writeAll_of_mem honce hmem hlt

/-- All other memory stays as it was. -/
theorem read_install_of_outside {address : Nat}
    (h : address < programStart ∨ programStart + rom.length ≤ address) :
    (install memory rom).read address = memory.read address := by
  apply Bank.read_writeAll_of_ne
  intro w hw
  obtain ⟨⟨byte, j⟩, hmem, rfl⟩ := List.mem_map.mp hw
  have hj := (List.mem_zipIdx hmem).2.1
  show programStart + j ≠ address
  omega

end Memory

/-! ## The remembered program

Only a load that is accepted changes what is remembered, and it replaces it. So after any calls it
is the last accepted program that counts, and if there is none the program from before. A cycle,
completed or not, leaves it alone. -/

/-- The program that a call makes the computer remember, if it is not refused. -/
def Call.accepted? : Call → Option Rom
  | .load rom => if rom.length ≤ Memory.programCapacity then some rom else none
  | _ => none

/-- Of the programs in a list of calls that are not refused, the last one. -/
def lastAccepted (requests : List Call) : Option Rom := (requests.filterMap Call.accepted?).getLast?

theorem Call.length_of_accepted? {request : Call} {rom : Rom} (h : request.accepted? = some rom) :
    rom.length ≤ Memory.programCapacity := by
  cases request with
  | load rom' =>
      by_cases hfits : rom'.length ≤ Memory.programCapacity
      · rw [accepted?, if_pos hfits] at h
        cases h
        exact hfits
      · rw [accepted?, if_neg hfits] at h
        cases h
  | _ => cases h

theorem length_of_lastAccepted {requests : List Call} {rom : Rom}
    (h : lastAccepted requests = some rom) : rom.length ≤ Memory.programCapacity := by
  obtain ⟨request, -, haccepted⟩ := List.mem_filterMap.mp (List.mem_of_getLast? h)
  exact Call.length_of_accepted? haccepted

theorem lastAccepted_cons (request : Call) (rest : List Call) :
    lastAccepted (request :: rest) = (lastAccepted rest).or request.accepted? := by
  cases h : request.accepted? with
  | none => simp [lastAccepted, h]
  | some rom =>
      rw [lastAccepted, List.filterMap_cons_some h, List.getLast?_cons]
      cases hlast : (rest.filterMap Call.accepted?).getLast? <;> simp [lastAccepted, hlast]

namespace State

variable {state : State}

theorem step_program (host : Host) (usage : Usage) :
    (state.step host usage).state.program = state.program := by
  -- Neither executing nor finishing touches the program, and what did not complete is put back.
  by_cases h : (state.step host usage).outcome = .completed
  · obtain ⟨instruction, decoded, carried, state_eq⟩ := step_of_completed h
    rw [state_eq]
    exact execute_record.2.2
  · rw [step_of_not_completed h]

theorem load_of_le {rom : Rom} (h : rom.length ≤ Memory.programCapacity) :
    state.load rom = .ok (state.install rom) := if_neg (Nat.not_lt.mpr h)

theorem load_of_lt {rom : Rom} (h : Memory.programCapacity < rom.length) :
    state.load rom = .error (.oversized rom.length Memory.programCapacity) := if_pos h

theorem reset_of_program_none (h : state.program = none) : state.reset.value = initial := by
  rw [reset, h]
  rfl

theorem reset_of_program_some {rom : Rom} (h : state.program = some rom) :
    state.reset.value = (initial.install rom).value := by
  rw [reset, h]
  rfl

end State

namespace Computer

variable {host : Host} {computer : Computer}

theorem call_load_of_le {rom : Rom} (h : rom.length ≤ Memory.programCapacity) :
    computer.call host (.load rom) =
      { computer with state := (computer.state.install rom).value } := by
  rw [call, State.load_of_le h]

theorem call_load_of_lt {rom : Rom} (h : Memory.programCapacity < rom.length) :
    computer.call host (.load rom) = computer := by
  rw [call, State.load_of_lt h]

/-- A call keeps the remembered program, unless it brings a new one. -/
theorem program_call (request : Call) :
    (computer.call host request).state.program = request.accepted?.or computer.state.program := by
  cases request with
  | load rom =>
      by_cases h : rom.length ≤ Memory.programCapacity
      · rw [call_load_of_le h, Call.accepted?, if_pos h]
        rfl
      · rw [call_load_of_lt (Nat.lt_of_not_le h), Call.accepted?, if_neg h]
        rfl
  -- A reset starts from the program that is remembered.
  | reset =>
      rw [call]
      cases h : computer.state.program with
      | none => rw [State.reset_of_program_none h]; rfl
      | some rom => rw [State.reset_of_program_some h]; rfl
  | pressKey number => rfl
  | releaseKey number => rfl
  | setKeys numbers => rfl
  | step patience => exact State.step_program host _

theorem program_calls (requests : List Call) :
    (computer.calls host requests).state.program =
      (lastAccepted requests).or computer.state.program := by
  -- The last accepted program of the rest is later than one of the first call.
  induction requests generalizing computer with
  | nil => rfl
  | cons request rest ih =>
      rw [calls_cons, ih, program_call, lastAccepted_cons, Option.or_assoc]

/-- A reset makes a new computer with the remembered program loaded, in surroundings of which as much
has been used as before. -/
theorem call_reset (h : ∀ rom, computer.state.program = some rom →
    rom.length ≤ Memory.programCapacity) :
    computer.call host .reset =
      (new computer.usage).calls host (computer.state.program.toList.map Call.load) := by
  cases hprogram : computer.state.program with
  | none =>
      rw [call, State.reset_of_program_none hprogram]
      rfl
  | some rom =>
      rw [call, State.reset_of_program_some hprogram, Option.toList_some, List.map_singleton,
        calls_cons, calls_nil, call_load_of_le (h rom hprogram), new_state, new_usage]

/-- After any calls on a new computer a reset makes a new computer of it, with the last program loaded
that was not refused; what has been used of the surroundings stays used. A program is refused just when
it has more than 3584 bytes. Then nothing changes; otherwise its bytes are in memory from `0x200` on,
it is remembered, and all else is as before. -/
theorem reset_eq_new_load (host : Host) (usage : Usage) (requests : List Call) :
    let computer := (new usage).calls host requests
    computer.call host .reset =
        (new computer.usage).calls host ((lastAccepted requests).toList.map Call.load) ∧
    ∀ rom : Rom,
      (∀ failure, computer.state.load rom = .error failure ↔
        3584 < rom.length ∧ failure = .oversized rom.length 3584) ∧
      (3584 < rom.length → computer.call host (.load rom) = computer) ∧
      (rom.length ≤ 3584 →
        let loaded := computer.call host (.load rom)
        loaded =
          { computer with
            state :=
              { computer.state with memory := loaded.state.memory, program := some rom } } ∧
        (∀ j (hj : j < rom.length), loaded.state.memory.read (0x200 + j) = rom[j].toNat) ∧
        ∀ address, address < 0x200 ∨ 0x200 + rom.length ≤ address →
          loaded.state.memory.read address = computer.state.memory.read address) := by
  intro computer
  have hprogram : computer.state.program = lastAccepted requests := by
    rw [program_calls]
    exact Option.or_none
  have hsize : computer.state.memory.size = Memory.capacity :=
    (Reachable.wellFormed ⟨usage, requests, rfl⟩).memory.size_eq
  refine ⟨?_, ?_⟩
  · -- the reset
    rw [← hprogram]
    apply call_reset
    intro rom hrom
    exact length_of_lastAccepted (hprogram ▸ hrom)
  · -- the load
    intro rom
    refine ⟨?_, call_load_of_lt, ?_⟩
    · intro failure
      by_cases hfits : rom.length ≤ Memory.programCapacity
      · rw [State.load_of_le hfits]
        constructor
        · intro h
          cases h
        · rintro ⟨htoo, -⟩
          exact absurd htoo (Nat.not_lt.mpr hfits)
      · have htoo : 3584 < rom.length := Nat.lt_of_not_le hfits
        rw [State.load_of_lt htoo]
        constructor
        · intro h
          cases h
          exact ⟨htoo, rfl⟩
        · rintro ⟨-, rfl⟩
          rfl
    · intro hfits
      rw [call_load_of_le hfits]
      exact ⟨rfl, fun j hj => Memory.read_install hsize hfits hj,
        fun address h => Memory.read_install_of_outside h⟩

/-- A session in which a program runs for a cycle, a program that is too large is refused, and a shorter
one is loaded over the first. -/
def overloaded : List Call :=
  [.load [0x60, 0x05, 0xF0, 0x15], .step 0, .load (List.replicate 3585 0), .load [0x12], .pressKey 3]

theorem overloaded_reset :
    let computer := (new {}).calls {} overloaded
    computer.call {} .reset = (new {}).calls {} [.load [0x12]] ∧
      3584 < (List.replicate 3585 (0 : UInt8)).length ∧
      computer.call {} (.load (List.replicate 3585 0)) = computer ∧
      (computer.call {} (.load [0xAB])).state.memory.read 0x200 = 0xAB := by
  have hlast : lastAccepted overloaded = some [0x12] := by decide +kernel
  have husage : ((new {}).calls {} overloaded).usage = {} := by decide +kernel
  obtain ⟨hreset, hload⟩ := reset_eq_new_load {} {} overloaded
  rw [hlast, husage] at hreset
  have htoo : 3584 < (List.replicate 3585 (0 : UInt8)).length := by
    rw [List.length_replicate]
    decide
  exact ⟨hreset, htoo, (hload _).2.1 htoo, ((hload [0xAB]).2.2 (by decide)).2.1 0 (by decide)⟩

end Computer

end ChipEight
