import Mathlib.Algebra.Group.Nat.Defs
import ChipEight.Instruction

/-!
# Decoding

What `Encoding.decode Instruction.table` makes of an instruction word.

* The operands of a word are its digits (`Word.x_eq` and the lemmas next to it), so decoded operands
  are in range (`decode_inRange`).
* No word is accepted by two entries (`table_pairwise`). So a meaning is found wherever its entry
  stands (`decode_eq_some_iff`), and the order of a table is of no consequence (`decode_perm`).
* The words without a meaning are the ones of `Word.Unassigned` (`decode_eq_none_iff`).
-/

namespace ChipEight

/-! ## Operands as digits

A word of four hexadecimal digits is taken apart by shifts and masks. The proofs need its digits as
remainders of quotients instead, because these are what linear arithmetic can work with. -/

namespace Word

variable {word : Nat}

theorem x_eq (word : Nat) : x word = word / 0x100 % 0x10 := by
  rw [x, Nat.shiftRight_eq_div_pow]
  exact Nat.and_two_pow_sub_one_eq_mod _ 4

theorem y_eq (word : Nat) : y word = word / 0x10 % 0x10 := by
  rw [y, Nat.shiftRight_eq_div_pow]
  exact Nat.and_two_pow_sub_one_eq_mod _ 4

theorem nibble_eq (word : Nat) : nibble word = word % 0x10 :=
  Nat.and_two_pow_sub_one_eq_mod word 4

theorem byte_eq (word : Nat) : byte word = word % 0x100 :=
  Nat.and_two_pow_sub_one_eq_mod word 8

theorem address_eq (word : Nat) : address word = word % 0x1000 :=
  Nat.and_two_pow_sub_one_eq_mod word 12

/-! ## Masks

All masks of the table keep the first digit and some of the lowest bits. -/

/-- A mask can be moved down to the lowest bits, and what it keeps back up. -/
theorem and_shiftLeft (word mask k : Nat) :
    word &&& (mask <<< k) = ((word >>> k) &&& mask) <<< k := by
  apply Nat.eq_of_testBit_eq
  intro i
  -- A bit from the shift on is one of the mask that was moved there, and the bits below it are
  -- cleared on both sides.
  by_cases hi : k ≤ i
  · simp [Nat.testBit_shiftLeft, hi, Nat.add_sub_cancel' hi]
  · simp [Nat.testBit_shiftLeft, hi]

/-- Keeping the first digit of a word. -/
theorem and_first (h : word < 0x10000) : word &&& 0xF000 = (word / 0x1000) <<< 12 := by
  have hdigit : word / 0x1000 % 2 ^ 4 = word / 0x1000 := by omega
  calc word &&& 0xF000
      = ((word >>> 12) &&& (2 ^ 4 - 1)) <<< 12 := and_shiftLeft word 0xF 12
    _ = (word / 0x1000 % 2 ^ 4) <<< 12 := by
        rw [Nat.and_two_pow_sub_one_eq_mod, Nat.shiftRight_eq_div_pow]
    _ = (word / 0x1000) <<< 12 := by rw [hdigit]

/-- Keeping the first digit of a word and its `k` lowest bits. -/
theorem and_first_or_low (h : word < 0x10000) {k : Nat} (hk : k ≤ 12) :
    word &&& (0xF000 ||| (2 ^ k - 1)) = word / 0x1000 * 0x1000 + word % 2 ^ k := by
  have hlow : word % 2 ^ k < 2 ^ 12 :=
    Nat.lt_of_lt_of_le (Nat.mod_lt _ (Nat.two_pow_pos k)) (Nat.pow_le_pow_right Nat.two_pos hk)
  rw [Nat.and_or_distrib_left, and_first h, Nat.and_two_pow_sub_one_eq_mod,
    ← Nat.shiftLeft_add_eq_or_of_lt hlow, Nat.shiftLeft_eq]

/-- The kept bits are given by a pattern if the first digit and the lowest bits are. -/
theorem and_eq_iff (h : word < 0x10000) {k : Nat} (hk : k ≤ 12) (pattern : Nat) :
    word &&& (0xF000 ||| (2 ^ k - 1)) = pattern ↔
      word / 0x1000 = pattern / 0x1000 ∧ word % 2 ^ k = pattern % 0x1000 := by
  have hlow : word % 2 ^ k < 2 ^ 12 :=
    Nat.lt_of_lt_of_le (Nat.mod_lt _ (Nat.two_pow_pos k)) (Nat.pow_le_pow_right Nat.two_pos hk)
  rw [and_first_or_low h hk]
  -- Both sides are numbers with the first digit in front of 12 bits, so they are equal digit by
  -- digit.
  omega

theorem and_F000_eq_iff (h : word < 0x10000) (pattern : Nat) :
    word &&& 0xF000 = pattern ↔ word / 0x1000 = pattern / 0x1000 ∧ pattern % 0x1000 = 0 := by
  have := and_eq_iff h (Nat.zero_le 12) pattern
  simpa [Nat.mod_one, eq_comm] using this

theorem and_F00F_eq_iff (h : word < 0x10000) (pattern : Nat) :
    word &&& 0xF00F = pattern ↔
      word / 0x1000 = pattern / 0x1000 ∧ word % 0x10 = pattern % 0x1000 :=
  and_eq_iff h (by decide : 4 ≤ 12) pattern

theorem and_F0FF_eq_iff (h : word < 0x10000) (pattern : Nat) :
    word &&& 0xF0FF = pattern ↔
      word / 0x1000 = pattern / 0x1000 ∧ word % 0x100 = pattern % 0x1000 :=
  and_eq_iff h (by decide : 8 ≤ 12) pattern

theorem and_FFFF (h : word < 0x10000) : word &&& 0xFFFF = word := by
  have hmod : word &&& 0xFFFF = word % 0x10000 := Nat.and_two_pow_sub_one_eq_mod word 16
  rw [hmod, Nat.mod_eq_of_lt h]

end Word

/-! ## Tables without overlap

The table is searched from its beginning. That the first entry found is the only one that could be
found is a property of the patterns and the masks alone: two entries exclude each other if their
patterns differ in a bit that both of them look at. It is decided once, for the whole table. -/

namespace Encoding

/-- No word is accepted by both entries, because their patterns differ where both masks look. -/
def Excludes (a b : Encoding) : Prop := a.pattern &&& b.mask ≠ b.pattern &&& a.mask

instance (a b : Encoding) : Decidable (a.Excludes b) :=
  inferInstanceAs (Decidable (a.pattern &&& b.mask ≠ b.pattern &&& a.mask))

theorem accepts_iff {e : Encoding} {word : Nat} :
    e.accepts word = true ↔ word &&& e.mask = e.pattern := by
  simp [accepts]

theorem Excludes.symm {a b : Encoding} (h : a.Excludes b) : b.Excludes a := Ne.symm h

theorem Excludes.not_accepts {a b : Encoding} {word : Nat} (h : a.Excludes b)
    (ha : a.accepts word = true) : b.accepts word = false := by
  rw [Bool.eq_false_iff, ne_eq, accepts_iff]
  intro hb
  -- A word that both accepted would have the bits of both patterns where both masks look.
  rw [accepts_iff] at ha
  apply h
  rw [← ha, ← hb, Nat.and_assoc, Nat.and_assoc, Nat.and_comm a.mask]

variable {table : List Encoding}

/-- In a table without overlap a meaning is found wherever its entry stands. -/
theorem decode_eq_some_iff (h : table.Pairwise Excludes) {word : Nat} {i : Instruction} :
    decode table word = some i ↔ ∃ e ∈ table, e.accepts word = true ∧ e.meaning word = i := by
  induction table with
  | nil => simp [decode]
  | cons e rest ih =>
      rw [List.pairwise_cons] at h
      cases ha : e.accepts word with
      | true =>
          -- This entry decides, and no entry behind it accepts the word too.
          have hfirst : decode (e :: rest) word = some (e.meaning word) := by simp [decode, ha]
          have hrest : ∀ e' ∈ rest, e'.accepts word = false := by
            intro e' he'
            exact (h.1 e' he').not_accepts ha
          rw [hfirst]
          constructor
          · intro hi
            exact ⟨e, by simp, ha, Option.some.inj hi⟩
          · rintro ⟨e', hmem, hacc, hi⟩
            rcases List.mem_cons.mp hmem with rfl | hmem
            · rw [hi]
            · rw [hrest e' hmem] at hacc
              cases hacc
      | false =>
          have hskip : decode (e :: rest) word = decode rest word := by simp [decode, ha]
          rw [hskip, ih h.2]
          simp [ha]

/-- A word without a meaning is accepted by no entry. -/
theorem decode_eq_none_iff {word : Nat} :
    decode table word = none ↔ ∀ e ∈ table, e.accepts word = false := by
  simp [decode]

/-- The order of a table without overlap is of no consequence. -/
theorem decode_perm {table' : List Encoding} (h : table.Pairwise Excludes)
    (hperm : table'.Perm table) (word : Nat) : decode table' word = decode table word := by
  have h' : table'.Pairwise Excludes :=
    (hperm.pairwise_iff fun hab => hab.symm).mpr h
  apply Option.ext
  -- Whether a word has a meaning is told by what is in the table, and a permutation has the same in
  -- it.
  intro i
  simp only [decode_eq_some_iff h, decode_eq_some_iff h', hperm.mem_iff]

/-- A word is accepted at most once by a table without overlap. -/
theorem length_filter_accepts (h : table.Pairwise Excludes) (word : Nat) :
    (table.filter (·.accepts word)).length = if (decode table word).isSome then 1 else 0 := by
  induction table with
  | nil => rfl
  | cons e rest ih =>
      rw [List.pairwise_cons] at h
      cases ha : e.accepts word with
      | true =>
          have hrest : rest.filter (·.accepts word) = [] := by
            rw [List.filter_eq_nil_iff]
            intro e' he'
            simp [(h.1 e' he').not_accepts ha]
          simp [decode, ha, hrest]
      | false =>
          have hskip : decode (e :: rest) word = decode rest word := by simp [decode, ha]
          rw [hskip, ← ih h.2]
          simp [ha]

end Encoding

/-! ## The table of all instructions

The entries come in groups. All words of a group begin with the same digit, and the members of a
group are told apart by their last digit or by their last two. So a word has no meaning if its last
digits are none of those that its group knows. -/

namespace Instruction

/-- No word is accepted by two entries of the table. -/
theorem table_pairwise : table.Pairwise Encoding.Excludes := by decide +kernel

end Instruction

/-- The words that have no meaning: the first digit is that of a group of instructions, and the digits
that tell the members of the group apart are none of theirs. -/
def Word.Unassigned (word : Nat) : Prop :=
  (word / 0x1000 = 0x0 ∧ word ≠ 0x00E0 ∧ word ≠ 0x00EE) ∨
  (word / 0x1000 = 0x5 ∧ word % 0x10 ≠ 0) ∨
  (word / 0x1000 = 0x8 ∧ word % 0x10 ∉ [0x0, 0x1, 0x2, 0x3, 0x4, 0x5, 0x6, 0x7, 0xE]) ∨
  (word / 0x1000 = 0x9 ∧ word % 0x10 ≠ 0) ∨
  (word / 0x1000 = 0xE ∧ word % 0x100 ∉ [0x9E, 0xA1]) ∨
  (word / 0x1000 = 0xF ∧
    word % 0x100 ∉ [0x07, 0x0A, 0x15, 0x18, 0x1E, 0x29, 0x33, 0x55, 0x65])

instance : DecidablePred Word.Unassigned := fun word => by
  unfold Word.Unassigned
  exact inferInstance

namespace Instruction

variable {word : Nat}

/-- The words without a meaning are the unassigned ones. -/
theorem decode_eq_none_iff (h : word < 0x10000) :
    Encoding.decode table word = none ↔ Word.Unassigned word := by
  rw [Encoding.decode_eq_none_iff]
  simp only [table, List.forall_mem_cons, Encoding.accepts, beq_eq_false_iff_ne, ne_eq,
    Word.and_FFFF h, Word.and_F000_eq_iff h, Word.and_F00F_eq_iff h, Word.and_F0FF_eq_iff h,
    Word.Unassigned]
  -- The first digit decides which entries are left to compare.
  -- Only the group of the first digit 0 tells its words apart by all of their digits.
  have hdigit : word / 0x1000 < 16 := by omega
  have hzero : word / 0x1000 ≠ 0 → ¬ word = 0x00E0 ∧ ¬ word = 0x00EE := by omega
  generalize word / 0x1000 = digit at hdigit hzero ⊢
  match digit with
  | 0 => simp
  | 1 | 2 | 3 | 4 | 6 | 7 | 10 | 11 | 12 | 13 => simp
  | 5 | 9 => simp [hzero]
  | 8 => simp [hzero]
  | 14 | 15 => simp [hzero]
  | n + 16 => omega

/-- A word with a meaning is accepted by a single entry. -/
theorem length_filter_accepts (h : word < 0x10000) :
    (table.filter (·.accepts word)).length = if Word.Unassigned word then 0 else 1 := by
  rw [Encoding.length_filter_accepts table_pairwise]
  by_cases hnone : Word.Unassigned word
  · rw [if_pos hnone, (decode_eq_none_iff h).mpr hnone]
    rfl
  · have hsome : (Encoding.decode table word).isSome = true := by
      rw [Option.isSome_iff_ne_none]
      exact fun hd => hnone ((decode_eq_none_iff h).mp hd)
    rw [if_neg hnone, if_pos hsome]

/-- Every entry gives its words their meaning. -/
theorem decode_of_mem {entry : Encoding} (hmem : entry ∈ table)
    (haccepts : word &&& entry.mask = entry.pattern) :
    Encoding.decode table word = some (entry.meaning word) :=
  (Encoding.decode_eq_some_iff table_pairwise).mpr
    ⟨entry, hmem, Encoding.accepts_iff.mpr haccepts, rfl⟩

/-- The words of an entry that names one register. -/
theorem decode_x {x pattern : Nat} {meaning : Nat → Instruction} (hx : x < 16)
    (hpattern : pattern < 0x10000) (hfree : pattern / 0x100 % 0x10 = 0)
    (hmem : ⟨0xF0FF, pattern, fun word => meaning (Word.x word)⟩ ∈ table) :
    Encoding.decode table (pattern + 0x100 * x) = some (meaning x) := by
  have hword : pattern + 0x100 * x < 0x10000 := by omega
  -- The digit of the register is none of those that the mask keeps.
  have haccepts : (pattern + 0x100 * x) &&& 0xF0FF = pattern := by
    rw [Word.and_F0FF_eq_iff hword]
    omega
  have hdigit : Word.x (pattern + 0x100 * x) = x := by
    rw [Word.x_eq]
    omega
  have hd := decode_of_mem hmem haccepts
  dsimp only at hd
  rw [hd, hdigit]

/-- The words of an entry that names two registers and tells its instruction by the last digit. -/
theorem decode_xy {x y pattern : Nat} {meaning : Nat → Nat → Instruction} (hx : x < 16) (hy : y < 16)
    (hpattern : pattern < 0x10000) (hfree : pattern / 0x10 % 0x100 = 0)
    (hmem : ⟨0xF00F, pattern, fun word => meaning (Word.x word) (Word.y word)⟩ ∈ table) :
    Encoding.decode table (pattern + 0x100 * x + 0x10 * y) = some (meaning x y) := by
  have hword : pattern + 0x100 * x + 0x10 * y < 0x10000 := by omega
  have haccepts : (pattern + 0x100 * x + 0x10 * y) &&& 0xF00F = pattern := by
    rw [Word.and_F00F_eq_iff hword]
    omega
  have hfirst : Word.x (pattern + 0x100 * x + 0x10 * y) = x := by
    rw [Word.x_eq]
    omega
  have hsecond : Word.y (pattern + 0x100 * x + 0x10 * y) = y := by
    rw [Word.y_eq]
    omega
  have hd := decode_of_mem hmem haccepts
  dsimp only at hd
  rw [hd, hfirst, hsecond]

/-- The words of an entry that names a register and a byte. -/
theorem decode_xbyte {x byte pattern : Nat} {meaning : Nat → Nat → Instruction} (hx : x < 16)
    (hbyte : byte < 256) (hpattern : pattern < 0x10000) (hfree : pattern % 0x1000 = 0)
    (hmem : ⟨0xF000, pattern, fun word => meaning (Word.x word) (Word.byte word)⟩ ∈ table) :
    Encoding.decode table (pattern + 0x100 * x + byte) = some (meaning x byte) := by
  have hword : pattern + 0x100 * x + byte < 0x10000 := by omega
  have haccepts : (pattern + 0x100 * x + byte) &&& 0xF000 = pattern := by
    rw [Word.and_F000_eq_iff hword]
    omega
  have hfirst : Word.x (pattern + 0x100 * x + byte) = x := by
    rw [Word.x_eq]
    omega
  have hlast : Word.byte (pattern + 0x100 * x + byte) = byte := by
    rw [Word.byte_eq]
    omega
  have hd := decode_of_mem hmem haccepts
  dsimp only at hd
  rw [hd, hfirst, hlast]

/-- A return has a single word. -/
theorem decode_eq_ret_iff (h : word < 0x10000) :
    Encoding.decode table word = some .ret ↔ word = 0x00EE := by
  rw [Encoding.decode_eq_some_iff table_pairwise]
  simp [table, Encoding.accepts, Word.and_FFFF h]

/-- The words of calls start with the digit 2. -/
theorem decode_eq_call_iff (h : word < 0x10000) {address : Nat} :
    Encoding.decode table word = some (.call address) ↔
      word / 0x1000 = 0x2 ∧ word % 0x1000 = address := by
  rw [Encoding.decode_eq_some_iff table_pairwise]
  simp [table, Encoding.accepts, Word.and_F000_eq_iff h, Word.address_eq]

/-- The words of drawing instructions start with the digit D. -/
theorem decode_eq_draw_iff (h : word < 0x10000) {x y rows : Nat} :
    Encoding.decode table word = some (.draw x y rows) ↔
      word / 0x1000 = 0xD ∧ word / 0x100 % 0x10 = x ∧ word / 0x10 % 0x10 = y ∧
        word % 0x10 = rows := by
  rw [Encoding.decode_eq_some_iff table_pairwise]
  simp [table, Encoding.accepts, Word.and_F000_eq_iff h, Word.x_eq, Word.y_eq, Word.nibble_eq]

/-- The words of waits for a key. -/
theorem decode_eq_awaitKey_iff (h : word < 0x10000) {x : Nat} :
    Encoding.decode table word = some (.awaitKey x) ↔
      word / 0x1000 = 0xF ∧ word % 0x100 = 0x0A ∧ word / 0x100 % 0x10 = x := by
  rw [Encoding.decode_eq_some_iff table_pairwise]
  simp [table, Encoding.accepts, Word.and_F0FF_eq_iff h, Word.x_eq, and_assoc]

/-- What holds of the meaning that every accepting entry gives a word holds of the word's meaning. -/
theorem of_decode {P : Instruction → Prop} {i : Instruction}
    (hd : Encoding.decode table word = some i)
    (h : ∀ e ∈ table, e.accepts word = true → P (e.meaning word)) : P i := by
  obtain ⟨e, hmem, haccepts, rfl⟩ := (Encoding.decode_eq_some_iff table_pairwise).mp hd
  exact h e hmem haccepts

/-! ## Operands in range -/

/-- The operands of an instruction are in range: registers below 16, bytes below 256, addresses below
4096, and at most 15 sprite rows. -/
def InRange : Instruction → Prop
  | clear | ret => True
  | jump address | call address | setIndex address | jumpOffset address => address < 4096
  | skipIfByte x byte | skipUnlessByte x byte | setByte x byte | addByte x byte
  | random x byte => x < 16 ∧ byte < 256
  | skipIfSame x y | copy x y | or x y | and x y | xor x y | add x y | sub x y | subFrom x y
  | skipUnlessSame x y => x < 16 ∧ y < 16
  | draw x y rows => x < 16 ∧ y < 16 ∧ rows < 16
  | shiftRight x | shiftLeft x | skipIfDown x | skipUnlessDown x | readDelay x | awaitKey x
  | setDelay x | setSound x | addToIndex x | glyph x | digits x | store x | load x => x < 16

/-- Whatever is decoded has its operands in range. -/
theorem decode_inRange {i : Instruction} (h : Encoding.decode table word = some i) :
    i.InRange := by
  have hx : Word.x word < 16 := by rw [Word.x_eq]; omega
  have hy : Word.y word < 16 := by rw [Word.y_eq]; omega
  have hnibble : Word.nibble word < 16 := by rw [Word.nibble_eq]; omega
  have hbyte : Word.byte word < 256 := by rw [Word.byte_eq]; omega
  have haddress : Word.address word < 4096 := by rw [Word.address_eq]; omega
  -- The meaning of an entry is in range for every word, also for those that it does not accept.
  have hall : ∀ e ∈ table, (e.meaning word).InRange := by
    simp [table, InRange, hx, hy, hnibble, hbyte, haddress]
  obtain ⟨e, hmem, -, rfl⟩ := (Encoding.decode_eq_some_iff table_pairwise).mp h
  exact hall e hmem

end Instruction

end ChipEight
