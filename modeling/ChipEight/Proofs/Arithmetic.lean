import ChipEight.Proofs.WellFormed

/-!
# Arithmetic and its flag

The flag of an addition, a subtraction or a shift is a register like any other, and can be an operand
too. Both operands are read before anything is written, the result goes to its register first and the
flag to its own after it (`State.Computes`). So whatever registers an instruction names, an equation of
the operands holds of result and flag together: the carry is the ninth bit of a sum, the bit that a shift
drops is the one that is missing from its result (`results_and_flags`).

The flag of a subtraction says that the first operand is the larger one. It is not the negated borrow of
the bytes: between equal operands nothing is borrowed, and the flag is 0.
-/

namespace ChipEight

namespace State

variable {state : State} {x y : Nat}

/-! ## A result and its flag

`Computes` describes the outcome by what can be read afterwards, and `register_eq` and `rest_eq` are
its frame. Where `x` is the flag's own register the flag wins, so `result_eq` says nothing there,
but the equation of result and flag still holds. -/

/-- The instruction puts the result into register `x`, then the flag into its own register, and changes
nothing else. -/
structure Computes (state : State) (x result flag : Nat) (after : State) : Prop where
  result_lt : result < 256
  flag_le : flag ≤ 1
  flag_eq : after.register flagRegister = flag
  result_eq : x ≠ flagRegister → after.register x = result
  register_eq : ∀ i, i ≠ x → i ≠ flagRegister → after.register i = state.register i
  rest_eq : after = { state with registers := after.registers }

theorem register_setRegister (state : State) (x value i : Nat) :
    (state.setRegister x value).register i =
      if x = i ∧ x < state.registers.size then value else state.register i :=
  Bank.read_write _ _ _ _

theorem register_setRegister_of_ne {i : Nat} (h : i ≠ x) (state : State) (value : Nat) :
    (state.setRegister x value).register i = state.register i := by
  rw [register_setRegister, if_neg fun hsame => h hsame.1.symm]

theorem computes_setFlag (hsize : state.registers.size = 16) (hx : x < 16) {result : Nat}
    (hresult : result < 256) (flag : Bool) :
    state.Computes x result (if flag then 1 else 0) ((state.setRegister x result).setFlag flag) where
  result_lt := hresult
  flag_le := by split <;> decide
  flag_eq := by
    have hwidth : (state.setRegister x result).registers.size = 16 := by
      rw [setRegister, Bank.size_write, hsize]
    -- The flag is written last, so nothing has to be known about `x`.
    rw [setFlag, register_setRegister, hwidth, if_pos ⟨rfl, by decide⟩]
  result_eq h := by
    rw [setFlag, register_setRegister_of_ne h, register_setRegister, hsize, if_pos ⟨rfl, hx⟩]
  register_eq i hi hflag := by
    rw [setFlag, register_setRegister_of_ne hflag, register_setRegister_of_ne hi]
  rest_eq := rfl

/-! ## The instructions with a flag

Each of them has one equation. The masks of the machine are remainders by powers of two, and what is
left is arithmetic of bytes. -/

theorem and_FF (n : Nat) : n &&& 0xFF = n % 256 := Nat.and_two_pow_sub_one_eq_mod n 8

/-- The flag of a sum is its ninth bit. -/
theorem add_computes (h : state.registers.Fits 16 256) (hx : x < 16) (y : Nat) :
    ∃ result flag, state.Computes x result flag (state.add x y) ∧
      256 * flag + result = state.register x + state.register y := by
  have ha : state.register x < 256 := h.read_lt (by decide) x
  have hb : state.register y < 256 := h.read_lt (by decide) y
  refine ⟨_, _, computes_setFlag h.size_eq hx ?_ _, ?_⟩
  · rw [and_FF]
    exact Nat.mod_lt _ (by decide)
  · rw [and_FF]
    -- The flag is decided on the sum itself, before it is cut to a byte.
    simp only [decide_eq_true_eq]
    split <;> omega

/-- The flag of a difference says that the first operand is the larger one. -/
theorem subtract_computes (hsize : state.registers.size = 16) (hx : x < 16) {minuend subtrahend : Nat}
    (hminuend : minuend < 256) (hsubtrahend : subtrahend < 256) :
    ∃ result flag, state.Computes x result flag (state.subtract x minuend subtrahend) ∧
      (result : Int) = ((minuend : Int) - subtrahend) % 256 ∧ (flag = 1 ↔ minuend > subtrahend) := by
  refine ⟨_, _, computes_setFlag hsize hx ?_ _, ?_, ?_⟩
  · rw [and_FF]
    exact Nat.mod_lt _ (by decide)
  · rw [and_FF]
    omega
  · simp

/-- The flag of a shift to the right is the lowest bit. -/
theorem shiftRight_computes (h : state.registers.Fits 16 256) (hx : x < 16) :
    ∃ result flag, state.Computes x result flag (state.shiftRight x) ∧
      2 * result + flag = state.register x := by
  have ha : state.register x < 256 := h.read_lt (by decide) x
  refine ⟨_, _, computes_setFlag h.size_eq hx ?_ _, ?_⟩
  · exact Nat.lt_of_le_of_lt (Nat.shiftRight_le _ 1) ha
  · rw [Nat.shiftRight_eq_div_pow, Nat.and_one_is_mod]
    simp only [beq_iff_eq]
    split <;> omega

/-- The flag of a shift to the left is the highest bit. -/
theorem shiftLeft_computes (h : state.registers.Fits 16 256) (hx : x < 16) :
    ∃ result flag, state.Computes x result flag (state.shiftLeft x) ∧
      256 * flag + result = 2 * state.register x := by
  have ha : state.register x < 256 := h.read_lt (by decide) x
  refine ⟨_, _, computes_setFlag h.size_eq hx ?_ _, ?_⟩
  · rw [and_FF]
    exact Nat.mod_lt _ (by decide)
  · rw [and_FF, Nat.shiftLeft_eq, Nat.shiftRight_eq_div_pow, Nat.and_one_is_mod]
    simp only [beq_iff_eq]
    split <;> omega

/-- The flag of an index that is moved is its thirteenth bit, where the dialect has such a flag. -/
theorem addToIndex_computes {dialect : Dialect} (hdialect : dialect.indexOverflowFlag = true)
    (h : state.registers.Fits 16 256) (hindex : state.index < 4096) (x : Nat) :
    4096 * (state.addToIndex dialect x).register flagRegister + (state.addToIndex dialect x).index =
        state.index + state.register x ∧
      (state.addToIndex dialect x).index < 4096 := by
  have ha : state.register x < 256 := h.read_lt (by decide) x
  have hflag : (state.addToIndex dialect x).register flagRegister =
      if state.index + state.register x > 0xFFF then 1 else 0 := by
    rw [addToIndex]
    simp only [hdialect, if_true]
    rw [setFlag, register_setRegister]
    dsimp only
    rw [h.size_eq, if_pos ⟨rfl, by decide⟩]
    simp
  have hmoved : (state.addToIndex dialect x).index = (state.index + state.register x) % 4096 := by
    rw [addToIndex]
    simp only [hdialect, if_true]
    rfl
  rw [hflag, hmoved]
  refine ⟨?_, Nat.mod_lt _ (by decide)⟩
  -- The sum is below twice the size of memory, so its quotient is the flag.
  split <;> omega

/-- The two differences of the same operands are opposite bytes, and at most one of them has a flag. -/
theorem differences_compute (h : state.registers.Fits 16 256) (hx : x < 16) (y : Nat) :
    let a := state.register x
    let b := state.register y
    ∃ result flag result' flag',
      state.Computes x result flag (state.subtract x a b) ∧
        (result : Int) = ((a : Int) - b) % 256 ∧ (flag = 1 ↔ a > b) ∧
      state.Computes x result' flag' (state.subtract x b a) ∧
        (result' : Int) = ((b : Int) - a) % 256 ∧ (flag' = 1 ↔ b > a) ∧
      (result + result') % 256 = 0 ∧ ¬ (flag = 1 ∧ flag' = 1) := by
  intro a b
  have ha : a < 256 := h.read_lt (by decide) x
  have hb : b < 256 := h.read_lt (by decide) y
  obtain ⟨result, flag, hcomputes, hresult, hflag⟩ := state.subtract_computes h.size_eq hx ha hb
  -- For the opposite difference the operands change places, and register `x` stays the target.
  obtain ⟨result', flag', hcomputes', hresult', hflag'⟩ := state.subtract_computes h.size_eq hx hb ha
  refine ⟨result, flag, result', flag', hcomputes, hresult, hflag, hcomputes', hresult', hflag', ?_, ?_⟩
  · omega
  · rw [hflag, hflag']
    omega

/-- A subtraction undoes an addition, where neither of them has the flag's register as an operand. -/
theorem register_subtract_add (h : state.registers.Fits 16 256) (hx : x < 16) (hne : x ≠ y)
    (hxflag : x ≠ flagRegister) (hyflag : y ≠ flagRegister) :
    let sum := state.add x y
    (sum.subtract x (sum.register x) (sum.register y)).register x = state.register x := by
  intro sum
  have ha : state.register x < 256 := h.read_lt (by decide) x
  have hb : state.register y < 256 := h.read_lt (by decide) y
  have hsize : sum.registers.size = 16 := by
    simp [sum, add, setFlag, setRegister, h.size_eq]
  obtain ⟨result, flag, hsum, hequation⟩ := state.add_computes h hx y
  rw [hsum.result_eq hxflag, hsum.register_eq y (Ne.symm hne) hyflag]
  -- The difference starts from the sum as it was stored, that is modulo 256.
  obtain ⟨restored, _, hdifference, hresult, -⟩ := sum.subtract_computes hsize hx hsum.result_lt hb
  rw [hdifference.result_eq hxflag]
  have hbyte := hdifference.result_lt
  omega

/-! ## Their words

The equations so far are about functions of the state. Here each of them is reached through the word
that stands in memory, for all registers that the word can name. -/

/-- What the word of an entry with two registers does. -/
theorem carryOut_xy (host : Host) (usage : Usage) (state : State) (hx : x < 16) (hy : y < 16)
    (pattern : Nat) (meaning : Nat → Nat → Instruction)
    (hmem : ⟨0xF00F, pattern, fun word => meaning (Word.x word) (Word.y word)⟩ ∈ Instruction.table)
    (hpattern : pattern < 0x10000) (hfree : pattern / 0x10 % 0x100 = 0) :
    let word := pattern + 0x100 * x + 0x10 * y
    state.carryOut host usage word = (execute host word (meaning x y) state usage).state :=
  carryOut_of_decode (Instruction.decode_xy hx hy hpattern hfree hmem) host usage state

theorem carryOut_flagged (host : Host) (usage : Usage) (state : State) (hx : x < 16) (hy : y < 16) :
    let after (pattern : Nat) := state.carryOut host usage (pattern + 0x100 * x + 0x10 * y)
    after 0x8004 = state.add x y ∧
      after 0x8005 = state.subtract x (state.register x) (state.register y) ∧
      after 0x8006 = state.shiftRight x ∧
      after 0x8007 = state.subtract x (state.register y) (state.register x) ∧
      after 0x800E = state.shiftLeft x := by
  have hxy := state.carryOut_xy host usage hx hy
  refine ⟨?_, ?_, ?_, ?_, ?_⟩
  · exact hxy 0x8004 .add (by simp [Instruction.table]) (by decide) (by decide)
  · exact hxy 0x8005 .sub (by simp [Instruction.table]) (by decide) (by decide)
  · exact hxy 0x8006 (fun x _ => .shiftRight x) (by simp [Instruction.table]) (by decide) (by decide)
  · exact hxy 0x8007 .subFrom (by simp [Instruction.table]) (by decide) (by decide)
  · exact hxy 0x800E (fun x _ => .shiftLeft x) (by simp [Instruction.table]) (by decide) (by decide)

/-- The other instructions of this group have no flag. -/
theorem carryOut_plain (host : Host) (usage : Usage) (state : State) (hx : x < 16) (hy : y < 16) :
    ∀ pattern ∈ [0x8000, 0x8001, 0x8002, 0x8003], ∃ value,
      state.carryOut host usage (pattern + 0x100 * x + 0x10 * y) = state.setRegister x value := by
  have hxy := state.carryOut_xy host usage hx hy
  simp only [List.forall_mem_cons, List.not_mem_nil, false_implies, implies_true, and_true]
  refine ⟨⟨state.register y, ?_⟩, ⟨state.register x ||| state.register y, ?_⟩,
    ⟨state.register x &&& state.register y, ?_⟩, ⟨state.register x ^^^ state.register y, ?_⟩⟩
  · exact hxy 0x8000 .copy (by simp [Instruction.table]) (by decide) (by decide)
  · exact hxy 0x8001 .or (by simp [Instruction.table]) (by decide) (by decide)
  · exact hxy 0x8002 .and (by simp [Instruction.table]) (by decide) (by decide)
  · exact hxy 0x8003 .xor (by simp [Instruction.table]) (by decide) (by decide)

end State

/-- Whatever registers the instructions name, the flag's among them: an addition, a subtraction and a
shift leave a byte in register `x` and a flag in register F, the flag written last, that satisfy an
equation of the operands as they were before. The instructions that have no flag change register `x`
alone. Moving the index carries into the flag where the dialect has it so. It follows that a subtraction
undoes an addition, and that the two differences of the same operands are opposite bytes and never have
both flags. -/
theorem results_and_flags {state : State} (hregisters : state.registers.Fits 16 256) {x y : Nat}
    (hx : x < 16) (hy : y < 16) (host : Host) (usage : Usage) :
    let a := state.register x
    let b := state.register y
    let after (state : State) (pattern : Nat) : State :=
      state.carryOut host usage (pattern + 0x100 * x + 0x10 * y)
    (∃ result flag, state.Computes x result flag (after state 0x8004) ∧ 256 * flag + result = a + b) ∧
    (∃ result flag result' flag',
      state.Computes x result flag (after state 0x8005) ∧
        (result : Int) = ((a : Int) - b) % 256 ∧ (flag = 1 ↔ a > b) ∧
      state.Computes x result' flag' (after state 0x8007) ∧
        (result' : Int) = ((b : Int) - a) % 256 ∧ (flag' = 1 ↔ b > a) ∧
      (result + result') % 256 = 0 ∧ ¬ (flag = 1 ∧ flag' = 1)) ∧
    (∃ result flag, state.Computes x result flag (after state 0x8006) ∧ 2 * result + flag = a) ∧
    (∃ result flag, state.Computes x result flag (after state 0x800E) ∧
      256 * flag + result = 2 * a) ∧
    (∀ pattern ∈ [0x8000, 0x8001, 0x8002, 0x8003], ∀ i ≠ x,
      (after state pattern).register i = state.register i) ∧
    (∀ byte < 256, ∀ i ≠ x,
      (state.carryOut host usage (0x7000 + 0x100 * x + byte)).register i = state.register i) ∧
    (host.dialect.indexOverflowFlag = true → state.index < 4096 →
      let moved := state.carryOut host usage (0xF01E + 0x100 * x)
      4096 * moved.register 0xF + moved.index = state.index + a ∧ moved.index < 4096) ∧
    (x ≠ y → x ≠ 0xF → y ≠ 0xF → (after (after state 0x8004) 0x8005).register x = a) := by
  intro a b after
  obtain ⟨hadd, hsub, hright, hsubFrom, hleft⟩ := state.carryOut_flagged host usage hx hy
  refine ⟨?_, ?_, ?_, ?_, ?_, ?_, ?_, ?_⟩
  · -- the sum and its carry
    rw [show after state 0x8004 = _ from hadd]
    exact state.add_computes hregisters hx y
  · -- the two differences
    rw [show after state 0x8005 = _ from hsub, show after state 0x8007 = _ from hsubFrom]
    exact state.differences_compute hregisters hx y
  · -- the shift to the right
    rw [show after state 0x8006 = _ from hright]
    exact state.shiftRight_computes hregisters hx
  · -- the shift to the left
    rw [show after state 0x800E = _ from hleft]
    exact state.shiftLeft_computes hregisters hx
  · -- instructions without a flag, with two registers
    intro pattern hpattern i hi
    obtain ⟨value, hvalue⟩ := state.carryOut_plain host usage hx hy pattern hpattern
    rw [show after state pattern = _ from hvalue, State.register_setRegister_of_ne hi]
  · -- the addition of a byte
    intro byte hbyte i hi
    have hd : Encoding.decode Instruction.table (0x7000 + 0x100 * x + byte) = some (.addByte x byte) :=
      Instruction.decode_xbyte hx hbyte (by decide) (by decide) (by simp [Instruction.table])
    rw [State.carryOut_of_decode hd]
    exact State.register_setRegister_of_ne hi state _
  · -- the index
    intro hdialect hindex
    have hd : Encoding.decode Instruction.table (0xF01E + 0x100 * x) = some (.addToIndex x) :=
      Instruction.decode_x hx (by decide) (by decide) (by simp [Instruction.table])
    rw [State.carryOut_of_decode hd]
    exact State.addToIndex_computes hdialect hregisters hindex x
  · -- The difference is taken in the state that the addition has left, so its word is decoded
    -- there.
    intro hne hxflag hyflag
    have hdifference := ((state.add x y).carryOut_flagged host usage hx hy).2.1
    rw [show after state 0x8004 = _ from hadd,
      show after (state.add x y) 0x8005 = _ from hdifference]
    exact State.register_subtract_add hregisters hx hne hxflag hyflag

/-- A program that puts a byte into the flag's register and another one into register 3, and the index
at the top of memory. -/
def operands : Rom := [0x6F, 0xC8, 0x63, 0x64, 0xAF, 0xFF]

theorem flag_register_as_operand :
    let host : Host := { dialect := { indexOverflowFlag := true } }
    let computer := (Computer.new {}).calls host [.load operands, .step 0, .step 0, .step 0]
    let after (word : Nat) : State := computer.state.carryOut host {} word
    computer.state.registers.Fits 16 256 ∧ computer.state.index = 0xFFF ∧
      computer.state.register 3 = 100 ∧ computer.state.register 0xF = 200 ∧
      (after 0x83F4).register 3 = 44 ∧ (after 0x83F4).register 0xF = 1 ∧
      (after 0x8F35).register 0xF = 1 ∧
      (after 0xFF1E).index = 199 ∧ (after 0xFF1E).register 0xF = 1 := by
  intro host computer after
  have hreachable : Computer.Reachable host computer := ⟨{}, _, rfl⟩
  have hregisters : computer.state.registers.Fits 16 256 := hreachable.wellFormed.registers
  have hindex : computer.state.index = 0xFFF := by decide +kernel
  have hthree : computer.state.register 3 = 100 := by decide +kernel
  have hflag : computer.state.register 0xF = 200 := by decide +kernel
  -- once with the flag's register as the second operand, once as the first
  obtain ⟨⟨sum, carry, hsum, hequation⟩, -⟩ :=
    results_and_flags hregisters (by decide : 3 < 16) (by decide : 0xF < 16) host {}
  obtain ⟨-, ⟨_, larger, _, _, hdifference, -, hlarger, -⟩, -, -, -, -, hindexed, -⟩ :=
    results_and_flags hregisters (by decide : 0xF < 16) (by decide : 3 < 16) host {}
  have hmoved : 4096 * (after 0xFF1E).register 0xF + (after 0xFF1E).index =
        computer.state.index + computer.state.register 0xF ∧ (after 0xFF1E).index < 4096 :=
    hindexed rfl (by rw [hindex]; decide)
  rw [hthree, hflag] at hequation hlarger
  rw [hindex, hflag] at hmoved
  have hcarry : (after 0x83F4).register 0xF = carry := hsum.flag_eq
  have hresult : (after 0x83F4).register 3 = sum := hsum.result_eq (by decide)
  have hlast : (after 0x8F35).register 0xF = larger := hdifference.flag_eq
  have hbyte := hsum.result_lt
  refine ⟨hregisters, hindex, hthree, hflag, by omega, by omega, ?_, by omega, by omega⟩
  rw [hlast, hlarger]
  decide

end ChipEight
