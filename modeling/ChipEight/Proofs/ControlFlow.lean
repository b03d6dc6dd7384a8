import ChipEight.Proofs.Footprint
import ChipEight.Proofs.Halting
import ChipEight.Proofs.Surroundings

/-!
# Where a computer goes on

A cycle puts `pc` past its instruction before it carries it out. A jump, a call and a return then put
their own address there (`Instruction.target?`), a skip goes on by one more instruction if its condition
holds (`Instruction.condition?`), and a wait that stalls goes back. Nothing else touches `pc`
(`pc_execute`). In terms of the instruction word, `Computer.pc_follows_instruction` says where every
cycle that goes on leaves `pc`, across the top of memory too.

Skips come in pairs with the same operands and opposite conditions (`Word.Opposed`). In the same state
exactly one of the two skips, and that is all the difference between them.
-/

namespace ChipEight

/-- The word is the one of a skip whose condition holds of the registers and the keys. -/
def Word.Skips (word : Nat) (register : Nat → Nat) (keys : Keypad) : Prop :=
  let x := word / 0x100 % 0x10
  let y := word / 0x10 % 0x10
  (word / 0x1000 = 0x3 ∧ register x = word % 0x100) ∨
  (word / 0x1000 = 0x4 ∧ register x ≠ word % 0x100) ∨
  (word / 0x1000 = 0x5 ∧ word % 0x10 = 0 ∧ register x = register y) ∨
  (word / 0x1000 = 0x9 ∧ word % 0x10 = 0 ∧ register x ≠ register y) ∨
  (word / 0x1000 = 0xE ∧ word % 0x100 = 0x9E ∧ keys.isDown (register x % 16) = true) ∨
  (word / 0x1000 = 0xE ∧ word % 0x100 = 0xA1 ∧ keys.isDown (register x % 16) = false)

instance (word : Nat) (register : Nat → Nat) (keys : Keypad) :
    Decidable (Word.Skips word register keys) := by
  unfold Word.Skips
  exact inferInstance

/-- Two words of skips with the same operands and opposite conditions. -/
inductive Word.Opposed : Nat → Nat → Prop
  | byte {x byte : Nat} (hx : x < 16) (hbyte : byte < 256) :
      Opposed (0x3000 + 0x100 * x + byte) (0x4000 + 0x100 * x + byte)
  | register {x y : Nat} (hx : x < 16) (hy : y < 16) :
      Opposed (0x5000 + 0x100 * x + 0x10 * y) (0x9000 + 0x100 * x + 0x10 * y)
  | key {x : Nat} (hx : x < 16) : Opposed (0xE09E + 0x100 * x) (0xE0A1 + 0x100 * x)

/-! ## Instructions

The two functions say what an instruction makes of `pc`, the next two theorems tell both from the
word alone. An instruction is a jump or a skip by its entry in the table, so they go through the
table once, and every entry settles its own case. -/

namespace Instruction

/-- Where an instruction jumps, if it is a jump, a call or a return. -/
def target? (state : State) : Instruction → Option Nat
  | .jump address | .call address => some address
  | .jumpOffset address => some (Memory.wrap (address + state.register 0))
  | .ret => some (state.stack.read (state.depth - 1))
  | _ => none

/-- Whether the condition of an instruction holds, if it is a skip. -/
def condition? (state : State) : Instruction → Option Bool
  | .skipIfByte x byte => some (state.register x == byte)
  | .skipUnlessByte x byte => some (state.register x != byte)
  | .skipIfSame x y => some (state.register x == state.register y)
  | .skipUnlessSame x y => some (state.register x != state.register y)
  | .skipIfDown x => some (state.keys.isDown (state.register x &&& 0xF))
  | .skipUnlessDown x => some (!state.keys.isDown (state.register x &&& 0xF))
  | _ => none

variable {word : Nat} {instruction : Instruction}

theorem target?_of_decode (hword : word < 0x10000)
    (hd : Encoding.decode table word = some instruction) (state : State) :
    instruction.target? state =
      if word / 0x1000 = 0x1 ∨ word / 0x1000 = 0x2 then some (word % 0x1000)
      else if word / 0x1000 = 0xB then some ((word % 0x1000 + state.register 0) % 4096)
      else if word = 0x00EE then some (state.stack.read (state.depth - 1))
      else none := by
  -- The word of a return would be a jump by its first digit, if it had one.
  have hret : word / 0x1000 ≠ 0 → ¬ word = 0x00EE := by omega
  apply of_decode hd
  simp +contextual [table, Encoding.accepts_iff, Word.and_FFFF hword, Word.and_F000_eq_iff hword,
    Word.and_F00F_eq_iff hword, Word.and_F0FF_eq_iff hword, target?, Word.address_eq, Memory.wrap,
    Memory.capacity, hret]

theorem condition?_of_decode (hword : word < 0x10000)
    (hd : Encoding.decode table word = some instruction) (state : State) :
    instruction.condition? state = some true ↔ Word.Skips word state.register state.keys := by
  have hkey : ∀ n : Nat, n &&& 0xF = n % 16 := fun n => Nat.and_two_pow_sub_one_eq_mod n 4
  apply of_decode hd
  simp +contextual [table, Encoding.accepts_iff, Word.and_FFFF hword, Word.and_F000_eq_iff hword,
    Word.and_F00F_eq_iff hword, Word.and_F0FF_eq_iff hword, condition?, Word.x_eq, Word.y_eq,
    Word.byte_eq, Word.Skips, hkey]

/-- Opposite words are skips on opposite conditions. -/
theorem condition?_of_opposed {first second : Nat} (h : Word.Opposed first second) :
    ∃ one other, Encoding.decode table first = some one ∧ Encoding.decode table second = some other ∧
      ∀ state : State, ∃ holds, one.condition? state = some holds ∧
        other.condition? state = some !holds := by
  cases h with
  | @byte x byte hx hbyte =>
      refine ⟨.skipIfByte x byte, .skipUnlessByte x byte, ?_, ?_, fun _ => ⟨_, rfl, rfl⟩⟩
      · exact decode_xbyte hx hbyte (by decide) (by decide) (by simp [table])
      · exact decode_xbyte hx hbyte (by decide) (by decide) (by simp [table])
  | @register x y hx hy =>
      refine ⟨.skipIfSame x y, .skipUnlessSame x y, ?_, ?_, fun _ => ⟨_, rfl, rfl⟩⟩
      · exact decode_xy hx hy (by decide) (by decide) (by simp [table])
      · exact decode_xy hx hy (by decide) (by decide) (by simp [table])
  | @key x hx =>
      refine ⟨.skipIfDown x, .skipUnlessDown x, ?_, ?_, fun _ => ⟨_, rfl, rfl⟩⟩
      · exact decode_x hx (by decide) (by decide) (by simp [table])
      · exact decode_x hx (by decide) (by decide) (by simp [table])

/-- Conditions are about the registers and the keys. -/
theorem condition?_withMemory (instruction : Instruction) (state : State) (memory : Memory) :
    instruction.condition? (state.withMemory memory) = instruction.condition? state := by
  cases instruction <;> rfl

end Instruction

section

variable {host : Host} {word : Nat} {instruction : Instruction} {state : State} {usage : Usage}

/-- A skip does nothing else. -/
theorem execute_of_condition {holds : Bool} (h : instruction.condition? state = some holds) :
    execute host word instruction state usage = .done (state.skipIf holds) usage := by
  cases instruction with
  | skipIfByte | skipUnlessByte | skipIfSame | skipUnlessSame | skipIfDown | skipUnlessDown =>
      obtain rfl := Option.some.inj h
      rfl
  | _ => cases h

/-- Jumps and skips are all that moves `pc`, apart from a wait that stalls. -/
theorem pc_execute
    (hdone : (execute host word instruction state usage).outcome = .completed) :
    (execute host word instruction state usage).state.pc =
      (instruction.target? state).getD
        (if instruction.condition? state = some true then Memory.next state.pc else state.pc) := by
  cases instruction with
  -- The stack is not empty, or the return would have trapped.
  | ret =>
      by_cases hempty : state.depth = 0
      · rw [execute_ret_of_empty hempty] at hdone
        cases hdone
      · rw [execute_ret_of_open hempty]
        rfl
  | call address =>
      by_cases hfull : State.stackCapacity ≤ state.depth
      · rw [execute_call_of_full hfull] at hdone
        cases hdone
      · rw [execute_call_of_room hfull]
        rfl
  | skipIfByte | skipUnlessByte | skipIfSame | skipUnlessSame | skipIfDown | skipUnlessDown =>
      rw [execute_of_condition rfl, Cycle.done_state, State.skipIf_eq]
      simp [Instruction.target?, Instruction.condition?]
  -- A wait that completes has read a key and stays past its instruction.
  | awaitKey x =>
      cases hwait : (host.awaitKey state.keys usage).wait with
      | pressed key => simp [execute, hwait, State.setRegister, Instruction.target?, Instruction.condition?]
      | expired | abandoned => simp [execute, hwait] at hdone
  | addToIndex x => simp [execute, State.addToIndex_eq, Instruction.target?, Instruction.condition?]
  | store | load =>
      simp [execute, State.passBytes_eq, State.writeMemory, Instruction.target?, Instruction.condition?]
  | _ => rfl

end

/-! ## Cycles

The word is read at the address the cycle begins at, and the fetch moves `pc` past it. Two
instructions on is what `skipIf` adds to that, both steps modulo the size of memory. -/

theorem Memory.next_next (address : Nat) : next (next address) = (address + 4) % 4096 := by
  simp only [next, wrap, capacity]
  omega

namespace State

variable {host : Host} {state : State} {usage : Usage}

/-- Where a cycle that goes on leaves `pc`, as told by its instruction word. -/
theorem pc_step (hrange : state.InRange) (hhalt : state.halt = none)
    (hgoes : (state.step host usage).outcome.goesOn = true) :
    let word := state.nextWord
    (state.step host usage).state.pc =
      if word / 0x1000 = 0x1 ∨ word / 0x1000 = 0x2 then word % 0x1000
      else if word / 0x1000 = 0xB then (word % 0x1000 + state.register 0) % 4096
      else if word = 0x00EE then state.stack.read (state.depth - 1)
      else if (state.step host usage).outcome = .stalled then state.pc
      else if Word.Skips word state.register (host.refresh state.keys usage).1 then
        (state.pc + 4) % 4096
      else (state.pc + 2) % 4096 := by
  intro word
  have hword : word < 0x10000 := Memory.word_lt hrange.memory state.pc
  cases step_ends hhalt host usage with
  | completed instruction decoded carried state_eq usage_eq outcome_eq =>
      have hpc : (state.step host usage).state.pc = _ :=
        (congrArg State.pc state_eq).trans (pc_execute carried)
      have htarget := Instruction.target?_of_decode hword decoded (state.fetched host usage)
      have hskips := Instruction.condition?_of_decode hword decoded (state.fetched host usage)
      -- The condition is that of the state after the fetch, which has the refreshed keys.
      rw [hpc, htarget, outcome_eq]
      simp only [hskips]
      have hnext : Memory.next (state.fetched host usage).pc = (state.pc + 4) % 4096 :=
        Memory.next_next state.pc
      rw [hnext]
      split
      · rfl
      · split
        · rfl
        · split
          · rfl
          · rfl
  | stalled x decoded result result_eq expired state_eq usage_eq outcome_eq =>
      -- The word of a wait is neither a jump nor a return, so only the branch of the stall is left.
      obtain ⟨hfirst, -, -⟩ := (Instruction.decode_eq_awaitKey_iff hword).mp decoded
      have hret : ¬ word = 0x00EE := by omega
      have hpc : (state.step host usage).state.pc = state.pc := by
        rw [state_eq]
        exact Memory.previous_next hrange.pc_lt
      rw [hpc, if_neg (by omega), if_neg (by omega), if_neg hret, if_pos outcome_eq]
  | abandoned x decoded result result_eq error given_up state_eq usage_eq outcome_eq =>
      rw [outcome_eq] at hgoes
      cases hgoes
  | trapped trap traps state_eq usage_eq outcome_eq =>
      rw [outcome_eq] at hgoes
      cases hgoes

/-- A return that goes on has a call to return from. -/
theorem depth_pos_of_return (hrange : state.InRange) (hhalt : state.halt = none)
    (hgoes : (state.step host usage).outcome.goesOn = true) (hword : state.nextWord = 0x00EE) :
    0 < state.depth := by
  apply Nat.pos_of_ne_zero
  intro hempty
  have hd : Encoding.decode Instruction.table state.nextWord = some .ret :=
    (Instruction.decode_eq_ret_iff (Memory.word_lt hrange.memory state.pc)).mpr hword
  have htrap := (step_trap?_eq_some_iff hhalt host usage).mpr (.stackUnderflow hd hempty)
  cases houtcome : (state.step host usage).outcome with
  | completed | stalled | abandoned => rw [houtcome] at htrap; cases htrap
  | trapped | refused => rw [houtcome] at hgoes; cases hgoes

/-- The cycle of a skip moves `pc` and lets the timers tick. -/
theorem step_of_condition (host : Host) (usage : Usage) {instruction : Instruction} {holds : Bool}
    (hhalt : state.halt = none)
    (hd : Encoding.decode Instruction.table state.nextWord = some instruction)
    (h : instruction.condition? (state.fetched host usage) = some holds) :
    (state.step host usage).outcome = .completed ∧
      (state.step host usage).usage = state.fetchUsage host usage ∧
      (state.step host usage).state = ((state.fetched host usage).skipIf holds).tick := by
  have hexecute : execute host state.nextWord instruction (state.fetched host usage)
      (state.fetchUsage host usage) =
        .done ((state.fetched host usage).skipIf holds) (state.fetchUsage host usage) :=
    execute_of_condition h
  have hstep : state.step host usage = _ := step_of_carried hhalt hd (by rw [hexecute]; rfl)
  rw [hstep, hexecute]
  exact ⟨rfl, rfl, rfl⟩

/-- Opposite skips at the same place: one of them skips, and nothing else is different. -/
theorem step_of_opposed {memory memory' : Memory} (hhalt : state.halt = none)
    (h : Word.Opposed (Memory.word memory state.pc) (Memory.word memory' state.pc)) :
    let one := (state.withMemory memory).step host usage
    let other := (state.withMemory memory').step host usage
    one.outcome = .completed ∧ other.outcome = .completed ∧ other.usage = one.usage ∧
      one.state.memory = memory ∧
      other.state = { one.state with pc := other.state.pc, memory := memory' } ∧
      ((one.state.pc = (state.pc + 4) % 4096 ∧ other.state.pc = (state.pc + 2) % 4096) ∨
        (one.state.pc = (state.pc + 2) % 4096 ∧ other.state.pc = (state.pc + 4) % 4096)) := by
  intro one other
  obtain ⟨first, second, hd, hd', hopposed⟩ := Instruction.condition?_of_opposed h
  obtain ⟨holds, hfirst, hsecond⟩ := hopposed (state.fetched host usage)
  have hone : (state.withMemory memory).halt = none := hhalt
  have hother : (state.withMemory memory').halt = none := hhalt
  obtain ⟨houtcome, husage, hstate⟩ := step_of_condition host usage hone hd
    ((first.condition?_withMemory (state.fetched host usage) memory).trans hfirst)
  obtain ⟨houtcome', husage', hstate'⟩ := step_of_condition host usage hother hd'
    ((second.condition?_withMemory (state.fetched host usage) memory').trans hsecond)
  -- What the skip has found decides which of the two goes further.
  have hfar := Memory.next_next state.pc
  refine ⟨houtcome, houtcome', husage'.trans husage.symm, ?_, ?_, ?_⟩
  · rw [show one.state = _ from hstate]
    cases holds <;> rfl
  · rw [show one.state = _ from hstate, show other.state = _ from hstate']
    cases holds <;> rfl
  · rw [show one.state = _ from hstate, show other.state = _ from hstate', ← hfar]
    cases holds with
    | true => exact .inl ⟨rfl, rfl⟩
    | false => exact .inr ⟨rfl, rfl⟩

end State

namespace Computer

variable {host : Host} {computer : Computer}

/-- A cycle of a reachable computer that goes on leaves `pc` where its instruction word says: at the
address of a jump or a call, at the latest return address that is open, back at a wait that stalls, and
otherwise one instruction on, or two for a skip whose condition holds of the registers and of the keys
as the cycle has found them.

Of two opposite skips in the same state exactly one goes two instructions on, and they leave the same
state but for `pc` and the memory that their words are in. -/
theorem pc_follows_instruction (hreachable : Reachable host computer)
    (hhalt : computer.state.halt = none) (patience : Nat) :
    let state := computer.state
    let p := state.pc
    let word := 256 * state.memory.read p + state.memory.read ((p + 1) % 4096)
    let keys := (host.refresh state.keys computer.usage).1
    let cycle := computer.cycle host patience
    (cycle.outcome.goesOn = true →
      (cycle.state.pc =
        if word / 0x1000 = 0x1 ∨ word / 0x1000 = 0x2 then word % 0x1000
        else if word / 0x1000 = 0xB then (word % 0x1000 + state.register 0) % 4096
        else if word = 0x00EE then state.stack.read (state.depth - 1)
        else if cycle.outcome = .stalled then p
        else if Word.Skips word state.register keys then (p + 4) % 4096
        else (p + 2) % 4096) ∧
      (word = 0x00EE → 0 < state.depth) ∧
      (cycle.outcome = .stalled → word / 0x1000 = 0xF ∧ word % 0x100 = 0x0A)) ∧
    ∀ memory memory' : Memory, Word.Opposed (Memory.word memory p) (Memory.word memory' p) →
      let one := (computer.withMemory memory).cycle host patience
      let other := (computer.withMemory memory').cycle host patience
      one.outcome = .completed ∧ other.outcome = .completed ∧ other.usage = one.usage ∧
        one.state.memory = memory ∧
        other.state = { one.state with pc := other.state.pc, memory := memory' } ∧
        ((one.state.pc = (p + 4) % 4096 ∧ other.state.pc = (p + 2) % 4096) ∨
          (one.state.pc = (p + 2) % 4096 ∧ other.state.pc = (p + 4) % 4096)) := by
  have hrange : computer.state.InRange := hreachable.wellFormed.toInRange
  intro state p word keys cycle
  have hword : state.nextWord = word := Memory.word_eq_add hrange.memory p
  have hkeys : (host.refresh state.keys { computer.usage with patience := patience }).1 = keys :=
    host.refresh_patience state.keys computer.usage patience
  refine ⟨fun hgoes => ⟨?_, ?_, ?_⟩, fun memory memory' h => State.step_of_opposed hhalt h⟩
  · -- the address
    have hpc := State.pc_step hrange hhalt hgoes
    dsimp only at hpc
    rwa [hword, hkeys] at hpc
  · -- a return
    intro hreturn
    exact State.depth_pos_of_return hrange hhalt hgoes (hword.trans hreturn)
  · -- a stall
    intro hstalled
    obtain ⟨x, hd⟩ := State.decode_of_stalled hstalled
    rw [hword] at hd
    have hlt : word < 0x10000 := hword ▸ Memory.word_lt hrange.memory p
    obtain ⟨hfirst, hlast, -⟩ := (Instruction.decode_eq_awaitKey_iff hlt).mp hd
    exact ⟨hfirst, hlast⟩

/-- A program that puts the first byte of a skip at the top of memory and jumps to it. The second byte is
at address 0, where the glyphs begin. -/
def topSkipper : Rom := [0x60, 0x40, 0xAF, 0xFF, 0xF0, 0x55, 0x1F, 0xFF]

theorem pc_follows_topSkipper :
    let computer := (new {}).calls {} (.load topSkipper :: List.replicate 4 (.step 0))
    let opposite := computer.withMemory (computer.state.memory.write 0xFFF 0x30)
    Reachable {} computer ∧ computer.state.halt = none ∧
      (computer.cycle {} 0).outcome.goesOn = true ∧
      Word.Opposed (Memory.word opposite.state.memory computer.state.pc)
        (Memory.word computer.state.memory computer.state.pc) ∧
      computer.state.pc = 0xFFF ∧ (computer.cycle {} 0).state.pc = 3 ∧
      (opposite.cycle {} 0).state.pc = 1 := by
  intro computer opposite
  have hreachable : Reachable {} computer := ⟨{}, _, rfl⟩
  -- The first byte of the skip is at the last address, the second at the first one.
  have hstart : computer.state.halt = none ∧ computer.state.pc = 0xFFF ∧
      computer.state.memory.read 0xFFF = 0x40 ∧ computer.state.memory.read 0 = 0xF0 ∧
      computer.state.register 0 = 0x40 ∧ (computer.cycle {} 0).outcome = .completed ∧
      Memory.word opposite.state.memory 0xFFF = 0x30F0 ∧
      Memory.word computer.state.memory 0xFFF = 0x40F0 := by decide +kernel
  clear_value computer
  obtain ⟨hhalt, hpc, hhigh, hlow, hregister, houtcome, hfirst, hsecond⟩ := hstart
  have hopposed : Word.Opposed (Memory.word opposite.state.memory computer.state.pc)
      (Memory.word computer.state.memory computer.state.pc) := by
    rw [hpc, hfirst, hsecond]
    show Word.Opposed (0x3000 + 0x100 * 0 + 0xF0) (0x4000 + 0x100 * 0 + 0xF0)
    exact .byte (by decide) (by decide)
  have hgoes : (computer.cycle {} 0).outcome.goesOn = true := by
    rw [houtcome]
    rfl
  obtain ⟨hgoesOn, hpair⟩ := pc_follows_instruction hreachable hhalt 0
  have htarget := (hgoesOn hgoes).1
  rw [hpc, hhigh, hlow, houtcome] at htarget
  have hskips : Word.Skips 0x40F0 computer.state.register
      ((Host.refresh {} computer.state.keys computer.usage).1) :=
    .inr (.inl ⟨rfl, by rw [show 0x40F0 / 0x100 % 0x10 = 0 from rfl, hregister]; decide⟩)
  have hthree : (computer.cycle {} 0).state.pc = 3 := by
    rw [htarget]
    simp [hskips]
  refine ⟨hreachable, hhalt, hgoes, hopposed, hpc, hthree, ?_⟩
  -- The skip here has gone two instructions on, so the opposite one goes on by one.
  obtain ⟨-, -, -, -, -, ⟨-, hnear⟩ | ⟨hfar, -⟩⟩ := hpair _ _ hopposed
  · have hone : (computer.cycle {} 0).state.pc = (computer.state.pc + 2) % 4096 := hnear
    rw [hthree, hpc] at hone
    cases hone
  · have hnear : (opposite.cycle {} 0).state.pc = (computer.state.pc + 2) % 4096 := hfar
    rw [hnear, hpc]

end Computer

end ChipEight
