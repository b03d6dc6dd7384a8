import Mathlib.Algebra.GroupWithZero.Nat
import ChipEight.Proofs.Pixels
import ChipEight.Proofs.WellFormed

/-!
# Sprites as row words

A sprite is drawn pixel by pixel, and the two coordinates of each pixel wrap around by themselves. It
could as well be drawn row by row: a byte at the left end of a row word, rotated to its column
(`Sprite.rowWord`), has the pixels of one row of the sprite (`Sprite.rowLit_rowWord`), and the row of
the screen is xored with it (`Screen.read_draw`). The flag tells whether one of these words has a pixel
in common with its row as it was before, because no pixel is drawn on twice
(`sprites_are_drawn_by_rows`).
-/

namespace ChipEight

/-! ## Rows as words

A coordinate on the screen can be reached from another one by going to the right, or down, and
around the edge. `distance` is how far, and its two lemmas say that going there and looking back are
inverse to each other. -/

namespace Screen

theorem rowLit_and (row row' x : Nat) : rowLit (row &&& row') x = (rowLit row x && rowLit row' x) := by
  rcases Nat.lt_or_ge x width with hx | hx
  · simp only [rowLit_eq_testBit _ hx, Nat.testBit_and]
  · simp only [rowLit_eq_false _ hx, Bool.and_self]

/-- Two row words have a pixel in common. -/
theorem and_ne_zero_iff {row : Nat} (h : row < 2 ^ 64) (row' : Nat) :
    row &&& row' ≠ 0 ↔ ∃ x, rowLit row x = true ∧ rowLit row' x = true := by
  constructor
  · intro hne
    apply Classical.byContradiction
    intro hnone
    apply hne
    -- Without a common pixel all pixels of the conjunction are dark, so it is the zero word.
    apply row_ext (Nat.lt_of_le_of_lt Nat.and_le_left h) (by decide)
    intro x
    have hx : ¬ (rowLit row x = true ∧ rowLit row' x = true) := fun hboth => hnone ⟨x, hboth⟩
    rw [rowLit_and]
    simpa [rowLit] using hx
  · rintro ⟨x, hlit, hlit'⟩ hzero
    have hboth : rowLit (row &&& row') x = true := by rw [rowLit_and, hlit, hlit', Bool.and_self]
    rw [hzero] at hboth
    simp [rowLit] at hboth

/-- How far `b` is behind `a`, where one goes on at 0 past the end of a row or a column of `size`
pixels. -/
def distance (size a b : Nat) : Nat := (((b : Int) - a) % size).toNat

theorem distance_lt {size : Nat} (h : 0 < size) (a b : Nat) : distance size a b < size := by
  have hlt := Int.emod_lt_of_pos ((b : Int) - a) (by omega : (0 : Int) < size)
  unfold distance
  omega

theorem natCast_distance {size : Nat} (h : 0 < size) (a b : Nat) :
    (distance size a b : Int) = ((b : Int) - a) % size :=
  Int.toNat_of_nonneg (Int.emod_nonneg _ (by omega))

/-- Going as far as `b` is behind `a` leads from `a` to `b`. -/
theorem add_distance {size a b : Nat} (h : b < size) : (a + distance size a b) % size = b := by
  apply Int.natCast_inj.mp
  have hthere : (a : Int) + (b - a) = b := by omega
  rw [Int.natCast_emod, Int.natCast_add, natCast_distance (by omega), Int.add_emod_emod, hthere]
  exact Int.emod_eq_of_lt (by omega) (by omega)

/-- What is so many steps behind `a` is as far behind it. -/
theorem distance_add {size steps : Nat} (a : Nat) (h : steps < size) :
    distance size a ((a + steps) % size) = steps := by
  apply Int.natCast_inj.mp
  have hback : (a : Int) + steps - a = steps := by omega
  rw [natCast_distance (by omega), Int.natCast_emod, Int.natCast_add, Int.emod_sub_emod, hback]
  exact Int.emod_eq_of_lt (by omega) (by omega)

end Screen

/-! ## Rows of a sprite

The word of a row is given by a rotation of 64 bits, without any mention of pixels. What has to be
shown is that its bits are the pixels that the drawing loop computes, column by column and with both
coordinates wrapped around. -/

namespace Sprite

/-- The row word of one row of a sprite that is drawn at column `x`: the byte at the left end, rotated
to the right. -/
def rowWord (x byte : Nat) : Nat :=
  ((BitVec.ofNat 64 (byte * 2 ^ 56)).rotateRight (x % 64)).toNat

theorem rowWord_lt (x byte : Nat) : rowWord x byte < 2 ^ 64 := BitVec.isLt _

theorem rowSet_eq_testBit (byte : Nat) {bit : Nat} (h : bit < width) :
    rowSet byte bit = byte.testBit (width - 1 - bit) := by
  have hmask : 0x80 >>> bit = 2 ^ (width - 1 - bit) := by
    match bit, h with
    | 0, _ | 1, _ | 2, _ | 3, _ | 4, _ | 5, _ | 6, _ | 7, _ => rfl
  rw [rowSet, hmask, Screen.and_two_pow_bne_zero]

/-- A byte at the left end of a row word, bit by bit from the left. -/
theorem getLsbD_leftEnd (byte : Nat) {bit : Nat} (h : bit < 64) :
    (BitVec.ofNat 64 (byte * 2 ^ 56)).getLsbD (63 - bit) =
      (decide (bit < width) && rowSet byte bit) := by
  have hword : 63 - bit < 64 := by omega
  rw [BitVec.getLsbD_ofNat, Nat.testBit_mul_two_pow, decide_eq_true hword, Bool.true_and]
  by_cases hbit : bit < width
  · have hbit' : bit < 8 := hbit
    have hbyte : 56 ≤ 63 - bit := by omega
    -- The byte is 56 bits further to the left.
    have hindex : 63 - bit - 56 = width - 1 - bit := by
      simp only [width]
      omega
    rw [rowSet_eq_testBit byte hbit, decide_eq_true hbit, decide_eq_true hbyte, hindex]
  · have hbit' : ¬ bit < 8 := hbit
    have hbyte : ¬ 56 ≤ 63 - bit := by omega
    rw [decide_eq_false hbit, decide_eq_false hbyte, Bool.false_and, Bool.false_and]

/-- A row word has at each column the bit of the byte that is as far to the right. -/
theorem rowLit_rowWord (x byte : Nat) {c : Nat} (hc : c < Screen.width) :
    Screen.rowLit (rowWord x byte) c =
      (decide (Screen.distance Screen.width x c < width) &&
        rowSet byte (Screen.distance Screen.width x c)) := by
  have hc' : c < 64 := hc
  have hx : x % 64 < 64 := Nat.mod_lt _ (by decide)
  have hdistance : Screen.distance Screen.width x c < 64 := Screen.distance_lt (by decide) x c
  have hsum : (x + Screen.distance Screen.width x c) % 64 = c := Screen.add_distance hc
  rw [← getLsbD_leftEnd byte hdistance, Screen.rowLit_eq_testBit _ hc, rowWord, BitVec.testBit_toNat,
    BitVec.getLsbD_rotateRight, Nat.mod_mod]
  show (bif decide (63 - c < 64 - x % 64) then _ else decide (63 - c < 64) && _) = _
  -- The columns to the left of `x` have the bits that went out at the right end.
  rcases Nat.lt_or_ge c (x % 64) with hleft | hright
  · have hout : ¬ 63 - c < 64 - x % 64 := by omega
    have hword : 63 - c < 64 := by omega
    have hbit : 63 - c - (64 - x % 64) = 63 - Screen.distance Screen.width x c := by omega
    rw [decide_eq_false hout, cond_false, decide_eq_true hword, Bool.true_and]
    exact congrArg _ hbit
  · -- The others were only moved.
    have hin : 63 - c < 64 - x % 64 := by omega
    have hbit : x % 64 + (63 - c) = 63 - Screen.distance Screen.width x c := by omega
    rw [decide_eq_true hin, cond_true]
    exact congrArg _ hbit

/-- The word that a sprite has in row `t` of the screen, which is 0 if none of its rows is there. -/
def wordAt (x y : Nat) (bytes : List Nat) (t : Nat) : Nat :=
  (bytes[Screen.distance Screen.height y t]?).elim 0 (rowWord x)

theorem wordAt_lt (x y : Nat) (bytes : List Nat) (t : Nat) : wordAt x y bytes t < 2 ^ 64 := by
  unfold wordAt
  cases bytes[Screen.distance Screen.height y t]? with
  | none =>
      rw [Option.elim_none]
      exact Nat.two_pow_pos 64
  | some byte =>
      rw [Option.elim_some]
      exact rowWord_lt x byte

/-- The pixels of a sprite in a row are the ones of its word there. -/
theorem mem_points_iff (x y : Nat) {bytes : List Nat} (hlength : bytes.length ≤ Screen.height)
    {c t : Nat} (hc : c < Screen.width) (ht : t < Screen.height) :
    (c, t) ∈ points x y bytes ↔ Screen.rowLit (wordAt x y bytes t) c = true := by
  constructor
  · -- A point comes from a bit of a row, and the distances lead back to both.
    intro hmem
    obtain ⟨⟨byte, row⟩, hbyte, hrow⟩ := List.mem_flatMap.mp hmem
    obtain ⟨bit, hbit, hset, hpoint⟩ := mem_row.mp hrow
    obtain ⟨rfl, rfl⟩ := Prod.mk.inj hpoint
    have hrow' : row < Screen.height :=
      Nat.lt_of_lt_of_le (List.snd_lt_of_mem_zipIdx hbyte) hlength
    have hbit' : bit < Screen.width := Nat.lt_trans hbit (by decide)
    rw [wordAt, Screen.distance_add y hrow', List.mk_mem_zipIdx_iff_getElem?.mp hbyte,
      Option.elim_some, rowLit_rowWord x byte hc, Screen.distance_add x hbit', hset,
      decide_eq_true hbit, Bool.and_self]
  · -- A lit column is at a distance from the left end of the sprite, which is the number of a bit.
    intro hlit
    cases hbyte : bytes[Screen.distance Screen.height y t]? with
    | none =>
        rw [wordAt, hbyte] at hlit
        simp [Screen.rowLit] at hlit
    | some byte =>
        rw [wordAt, hbyte, Option.elim_some, rowLit_rowWord x byte hc, Bool.and_eq_true,
          decide_eq_true_eq] at hlit
        obtain ⟨hbit, hset⟩ := hlit
        have hcolumn := Screen.add_distance (a := x) hc
        have hline := Screen.add_distance (a := y) ht
        apply List.mem_flatMap.mpr
        refine ⟨(byte, _), List.mk_mem_zipIdx_iff_getElem?.mpr hbyte, ?_⟩
        exact mem_row.mpr ⟨_, hbit, hset, by rw [hcolumn, hline]⟩

/-- How many bits of a byte are set. -/
def ones (byte : Nat) : Nat := (List.range 8).countP byte.testBit

theorem countP_rowSet (byte : Nat) : (List.range width).countP (rowSet byte) = ones byte := by
  -- The bits are counted from the other end.
  have hreverse : List.range 8 = ((List.range 8).map (7 - ·)).reverse := rfl
  have hset : ∀ bit ∈ List.range 8, rowSet byte bit = true ↔ byte.testBit (7 - bit) = true := by
    intro bit hbit
    rw [rowSet_eq_testBit byte (List.mem_range.mp hbit)]
    rfl
  rw [ones, hreverse, List.countP_reverse, List.countP_map]
  exact List.countP_congr hset

/-- A sprite has a pixel for every bit that is set in its bytes. -/
theorem length_points (x y : Nat) (bytes : List Nat) :
    (points x y bytes).length = (bytes.map ones).sum := by
  have hrow : ∀ entry : Nat × Nat, ((List.range width).filterMap fun bit =>
      if rowSet entry.1 bit then
        some ((x + bit) % Screen.width, (y + entry.2) % Screen.height)
      else none).length = ones entry.1 := by
    intro entry
    rw [List.length_filterMap_eq_countP, ← countP_rowSet]
    apply List.countP_congr
    intro bit hbit
    split <;> simp [*]
  have hbytes : bytes.zipIdx.map (fun entry => ones entry.1) = bytes.map ones := by
    show bytes.zipIdx.map (ones ∘ Prod.fst) = bytes.map ones
    rw [← List.map_map, List.zipIdx_map_fst]
  rw [points, List.length_flatMap, List.map_congr_left fun entry _ => hrow entry, hbytes]

end Sprite

/-! ## Drawing by rows

No two points of a sprite coincide, so a pixel is turned over if and only if it is a point, which is
what the xor with the word of its row does. -/

namespace Screen

variable {screen : Screen} {bytes : List Nat}

/-- A sprite is drawn by xoring each row with the word that the sprite has there. -/
theorem read_draw (h : screen.rows.Fits 32 (2 ^ 64)) (x y : Nat) (hlength : bytes.length ≤ height)
    {t : Nat} (ht : t < height) :
    (screen.draw (Sprite.points x y bytes)).screen.rows.read t =
      screen.rows.read t ^^^ Sprite.wordAt x y bytes t := by
  have hdrawn : (screen.draw (Sprite.points x y bytes)).screen.rows.Fits 32 (2 ^ 64) :=
    foldl_flip_fits _ h
  have hword := Sprite.wordAt_lt x y bytes t
  apply row_ext (hdrawn.read_lt (by decide) t)
    (Nat.xor_lt_two_pow (h.read_lt (by decide) t) hword)
  intro c
  rcases Nat.lt_or_ge c width with hc | hc
  · have hlit := lit_draw h.size_eq (Sprite.points_nodup x y hlength)
      (fun _ => Sprite.onScreen_of_mem_points) c t
    have hpoint : decide ((c, t) ∈ Sprite.points x y bytes) =
        rowLit (Sprite.wordAt x y bytes t) c := by
      rw [Bool.eq_iff_iff, decide_eq_true_eq]
      exact Sprite.mem_points_iff x y hlength hc ht
    rw [rowLit_xor, ← hpoint]
    exact hlit
  · rw [rowLit_eq_false _ hc, rowLit_eq_false _ hc]

/-- A sprite hits a lit pixel in a row that has a pixel in common with its word there. -/
theorem collision_draw_points (h : screen.rows.Fits 32 (2 ^ 64)) (x y : Nat)
    (hlength : bytes.length ≤ height) :
    (screen.draw (Sprite.points x y bytes)).collision = true ↔
      ∃ t < height, screen.rows.read t &&& Sprite.wordAt x y bytes t ≠ 0 := by
  have hpoints : ∀ p ∈ Sprite.points x y bytes, OnScreen p :=
    fun _ => Sprite.onScreen_of_mem_points
  have hnodup := Sprite.points_nodup x y hlength
  rw [collision_draw h.size_eq hpoints, changes_draw h.size_eq hnodup hpoints]
  constructor
  · -- A pixel that was turned off was lit before, and the sprite has it.
    rintro ⟨change, hmem, hoff⟩
    obtain ⟨⟨c, t⟩, hpoint, rfl⟩ := List.mem_map.mp hmem
    obtain ⟨hc, ht⟩ := hpoints _ hpoint
    refine ⟨t, ht, (and_ne_zero_iff (h.read_lt (by decide) t) _).mpr ⟨c, ?_, ?_⟩⟩
    · rw [Bool.not_eq_false'] at hoff
      exact hoff
    · exact (Sprite.mem_points_iff x y hlength hc ht).mp hpoint
  · -- A common pixel is a point of the sprite, and drawing turns it off.
    rintro ⟨t, ht, hcommon⟩
    obtain ⟨c, hlit, hword⟩ := (and_ne_zero_iff (h.read_lt (by decide) t) _).mp hcommon
    have hc : c < width := by
      apply Nat.lt_of_not_le
      intro hout
      rw [rowLit_eq_false _ hout] at hlit
      cases hlit
    have hpoint := (Sprite.mem_points_iff x y hlength hc ht).mpr hword
    refine ⟨⟨c, t, !screen.lit c t⟩, List.mem_map.mpr ⟨(c, t), hpoint, rfl⟩, ?_⟩
    show (!rowLit (screen.rows.read t) c) = false
    rw [hlit]
    rfl

end Screen

/-! ## The instruction

The instruction takes the bytes of the sprite from memory, around its top if it has to, and puts the
collision into the flag. What was said of bytes is said again of addresses. -/

theorem Memory.getElem?_bytes (memory : Memory) (start : Nat) {count r : Nat} :
    (bytes memory start count)[r]? =
      if r < count then some (memory.read (wrap (start + r))) else none := by
  by_cases h : r < count
  · simp [bytes, window, h]
  · simp [bytes, window, h]

/-- The word in a row of the screen, for a sprite in memory. -/
theorem Sprite.wordAt_bytes (x y : Nat) (memory : Memory) (start rows t : Nat) :
    let r := Screen.distance Screen.height y t
    wordAt x y (Memory.bytes memory start rows) t =
      if r < rows then rowWord x (memory.read (Memory.wrap (start + r))) else 0 := by
  dsimp only
  rw [wordAt, Memory.getElem?_bytes]
  split
  · rw [Option.elim_some]
  · rw [Option.elim_none]

namespace Screen

variable {screen : Screen} {rows : Nat}

theorem read_draw_bytes (h : screen.rows.Fits 32 (2 ^ 64)) (x y : Nat) (memory : Memory)
    (start : Nat) (hrows : rows ≤ height) {t : Nat} (ht : t < height) :
    let r := distance height y t
    (screen.draw (Sprite.points x y (Memory.bytes memory start rows))).screen.rows.read t =
      if r < rows then
        screen.rows.read t ^^^ Sprite.rowWord x (memory.read (Memory.wrap (start + r)))
      else screen.rows.read t := by
  dsimp only
  rw [read_draw h x y (by rwa [Memory.length_bytes]) ht, Sprite.wordAt_bytes]
  split
  · rfl
  · exact Nat.xor_zero _

theorem collision_draw_bytes (h : screen.rows.Fits 32 (2 ^ 64)) (x y : Nat) (memory : Memory)
    (start : Nat) (hrows : rows ≤ height) :
    (screen.draw (Sprite.points x y (Memory.bytes memory start rows))).collision = true ↔
      ∃ r < rows, screen.rows.read ((y + r) % height) &&&
        Sprite.rowWord x (memory.read (Memory.wrap (start + r))) ≠ 0 := by
  rw [collision_draw_points h x y (by rwa [Memory.length_bytes])]
  constructor
  · rintro ⟨t, ht, hcommon⟩
    rw [Sprite.wordAt_bytes] at hcommon
    by_cases hr : distance height y t < rows
    · rw [if_pos hr] at hcommon
      refine ⟨distance height y t, hr, ?_⟩
      rwa [add_distance ht]
    · rw [if_neg hr, Nat.and_zero] at hcommon
      exact absurd rfl hcommon
  · rintro ⟨r, hr, hcommon⟩
    refine ⟨(y + r) % height, Nat.mod_lt _ (by decide), ?_⟩
    rwa [Sprite.wordAt_bytes, distance_add y (Nat.lt_of_lt_of_le hr hrows), if_pos hr]

end Screen

/-- Drawing a sprite does what could be done by rows. Each row of the screen that has a row of the
sprite is xored with its word, and the others stay as they are. The flag says whether one of the words
had a pixel in common with its row, which is whether a pixel was turned off. A change is reported for
every bit that is set in the sprite, and nothing else is different afterwards. -/
theorem sprites_are_drawn_by_rows (host : Host) (usage : Usage) {state : State}
    (hrange : state.InRange) {x y n : Nat} (hx : x < 16) (hy : y < 16) (hn : n < 16) :
    let word := 0xD000 + 0x100 * x + 0x10 * y + n
    let cycle := execute host word (.draw x y n) state usage
    let after := cycle.state
    let byte (r : Nat) := state.memory.read ((state.index + r) % 4096)
    let sprite (r : Nat) := Sprite.rowWord (state.register x) (byte r)
    Encoding.decode Instruction.table word = some (.draw x y n) ∧ cycle.outcome = .completed ∧
      (∀ t : Nat, t < 32 →
        let r := (((t : Int) - state.register y) % 32).toNat
        after.screen.rows.read t =
          if r < n then state.screen.rows.read t ^^^ sprite r else state.screen.rows.read t) ∧
      (after.register 0xF = 1 ↔
        ∃ r < n, state.screen.rows.read ((state.register y + r) % 32) &&& sprite r ≠ 0) ∧
      (after.register 0xF = 1 ↔ ∃ change ∈ after.changes, change.lit = false) ∧
      (after.register 0xF = 0 ∨ after.register 0xF = 1) ∧
      after.changes.length = ((List.range n).map fun r => Sprite.ones (byte r)).sum ∧
      after.redrawn = true ∧
      after =
        { state with
          screen := after.screen
          registers := state.registers.write 0xF (after.register 0xF)
          redrawn := after.redrawn
          changes := after.changes } := by
  intro word cycle after byte sprite
  let points := Sprite.points (state.register x) (state.register y)
    (Memory.bytes state.memory state.index n)
  let drawing := state.screen.draw points
  have hrows : n ≤ Screen.height := Nat.le_of_lt (Nat.lt_trans hn (by decide))
  have hsize := hrange.rows.size_eq
  have hpoints : ∀ p ∈ points, Screen.OnScreen p := fun _ => Sprite.onScreen_of_mem_points
  have hnodup : points.Nodup := Sprite.points_nodup _ _ (by rwa [Memory.length_bytes])
  have hflag : after.register 0xF = if drawing.collision then 1 else 0 := by
    show (state.registers.write 0xF (if drawing.collision then 1 else 0)).read 0xF = _
    rw [Bank.read_write, hrange.registers.size_eq, if_pos (by decide)]
  have hcollision : after.register 0xF = 1 ↔ drawing.collision = true := by
    rw [hflag]
    split <;> simp [*]
  refine ⟨?_, rfl, ?_, ?_, ?_, ?_, ?_, rfl, ?_⟩
  · -- the word
    have hword : word < 0x10000 := by omega
    rw [Instruction.decode_eq_draw_iff hword]
    omega
  · -- the rows
    intro t ht r
    exact Screen.read_draw_bytes hrange.rows _ _ state.memory state.index hrows ht
  · -- the flag by words
    rw [hcollision]
    exact Screen.collision_draw_bytes hrange.rows _ _ state.memory state.index hrows
  · -- and by changes
    rw [hcollision]
    exact Screen.collision_draw hsize hpoints
  · rw [hflag]
    split <;> simp
  · -- the number of changes
    show drawing.changes.length = _
    rw [Screen.changes_draw hsize hnodup hpoints, List.length_map, Sprite.length_points,
      Memory.bytes, Memory.window, List.map_map, List.map_map]
    rfl
  · rw [hflag]
    rfl

/-- A program that stores a byte at the end of memory and draws two rows from there on in the lower
right corner. After that it is a pixel further to the right. -/
def corner : Rom :=
  [0x60, 0xC3, 0xAF, 0xFF, 0xF0, 0x55, 0x61, 0x3C, 0x62, 0x1F, 0xD1, 0x22, 0x71, 0x01, 0xD1, 0x22]

theorem corner_is_drawn_by_rows :
    let computer := (Computer.new {}).calls {} (.load corner :: List.replicate 7 (.step 0))
    let state := computer.state
    let after := (execute {} 0xD122 (.draw 1 2 2) state {}).state
    state.InRange ∧ state.index = 0xFFF ∧ state.register 1 = 61 ∧ state.register 2 = 31 ∧
      Encoding.decode Instruction.table state.nextWord = some (.draw 1 2 2) ∧
      after.screen.rows.read 31 = state.screen.rows.read 31 ^^^ Sprite.rowWord 61 0xC3 ∧
      after.screen.rows.read 0 = state.screen.rows.read 0 ^^^ Sprite.rowWord 61 0xF0 ∧
      after.screen.rows.read 1 = state.screen.rows.read 1 ∧
      after.register 0xF = 1 ∧ (∃ change ∈ after.changes, change.lit = false) ∧
      after.changes.length = 8 := by
  intro computer state after
  have hreachable : Computer.Reachable {} computer := ⟨{}, _, rfl⟩
  have hrange : state.InRange := hreachable.wellFormed.toInRange
  have hstate : state.nextWord = 0xD122 ∧ state.index = 0xFFF ∧ state.register 1 = 61 ∧
      state.register 2 = 31 ∧ state.memory.read 0xFFF = 0xC3 ∧ state.memory.read 0 = 0xF0 ∧
      state.screen.rows.read 31 &&& Sprite.rowWord 61 0xC3 ≠ 0 := by
    decide +kernel
  obtain ⟨hword, hindex, hx, hy, hlast, hfirst, hmet⟩ := hstate
  obtain ⟨hdecoded, -, hrows, hcommon, hoff, -, hlength, -⟩ :=
    sprites_are_drawn_by_rows {} {} hrange (by decide : 1 < 16) (by decide : 2 < 16)
      (by decide : 2 < 16)
  have hflag : after.register 0xF = 1 := by
    apply hcommon.mpr
    exact ⟨0, by decide, by simpa [hx, hy, hindex, hlast] using hmet⟩
  refine ⟨hrange, hindex, hx, hy, ?_, ?_, ?_, ?_, hflag, hoff.mp hflag, ?_⟩
  · rw [hword]
    exact hdecoded
  · simpa [hx, hy, hindex, hlast] using hrows 31 (by decide)
  · simpa [hx, hy, hindex, hfirst] using hrows 0 (by decide)
  · simpa [hy] using hrows 1 (by decide)
  · have hones : Sprite.ones 0xC3 + Sprite.ones 0xF0 = 8 := by decide
    simpa [List.range_succ, hindex, hlast, hfirst, hones] using hlength

end ChipEight
