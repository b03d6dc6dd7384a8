import ChipEight.Desktop.PixelBlock
import Mathlib.Tactic.Ring
import Mathlib.Tactic.SplitIfs

/-!
# Room for an image

The counts of a block go round beyond 64 bits, but a block that has been reserved for a positive scale has
the counts that it should have: more pixels would have been copied than it has room for, had the count of
its rows gone round, and rows that could be reserved are too few for the count of columns to do so. So
there is a block for a scale just when its bytes can be counted and are in memory
(`PixelBlock.exists_ofScale_iff`), and it has room for every pixel of the screen enlarged by that scale.
-/

namespace ChipEight.PixelBlock

variable {memory : Option Nat} {block : PixelBlock} {scale : Nat}

/-! ## Reserving a block

A block is refused for one of three reasons, which are looked at one after the other: a negative count,
too many bytes to be counted, and more bytes than there are in memory. -/

/-- A block is reserved if no count is negative and its bytes can be counted and are in memory. -/
theorem reserve_eq_ok_iff {block' : PixelBlock} :
    reserve memory block = .ok block' ↔
      block' = block ∧ 0 ≤ block.rows ∧ 0 ≤ block.columns ∧ block.bytes < 2 ^ 63 ∧
        ∀ available ∈ memory, block.bytes < available := by
  have hfits : fits block.bytes = true ↔ block.bytes < 2 ^ 63 := by
    rw [fits, Bool.and_eq_true, decide_eq_true_iff, decide_eq_true_iff]
    omega
  have hroom : memory.any (· ≤ block.bytes) = true ↔
      ¬ ∀ available ∈ memory, block.bytes < available := by
    simp [Option.any_eq_true]
  rw [reserve]
  -- in the order in which the reasons for a refusal are looked at
  split_ifs with hnegative huncountable hfull
  · constructor
    · nofun
    · rintro ⟨-, hrows, hcolumns, -⟩
      omega
  · constructor
    · nofun
    · rintro ⟨-, -, -, hbytes, -⟩
      rw [hfits.mpr hbytes] at huncountable
      cases huncountable
  · constructor
    · nofun
    · rintro ⟨-, -, -, -, henough⟩
      exact absurd henough (hroom.mp hfull)
  · constructor
    · intro h
      have hbytes : fits block.bytes = true := by simpa using huncountable
      exact ⟨(Except.ok.inj h).symm, by omega, by omega, hfits.mp hbytes,
        not_not.mp fun hless => hfull (hroom.mpr hless)⟩
    · rintro ⟨rfl, -⟩
      rfl

/-- Where only the rows of a block have been reserved, their bytes can be counted. -/
theorem rows_of_reserve {tall : PixelBlock} {columns : Int}
    (h : reserve memory { block with columns := columns } = .ok tall) :
    tall.rows = block.rows ∧ bytes ⟨block.rows, columns⟩ < 2 ^ 63 := by
  obtain ⟨rfl, -, -, hbytes, -⟩ := reserve_eq_ok_iff.mp h
  exact ⟨rfl, hbytes⟩

/-! ## Counts that go round

For a positive scale a count that goes round is less than it should be, and the copied rows are compared
with the count of rows. -/

/-- A count that fits 64 bits with a sign does not go round. -/
theorem wrapped_of_lt {n : Int} (hpositive : 0 ≤ n) (h : n < 2 ^ 63) : wrapped n = n := by
  rw [wrapped, Int.bmod]
  omega

/-- A count that has gone round is less than it was. -/
theorem eq_of_le_wrapped {n : Int} (hpositive : 0 ≤ n) (h : n ≤ wrapped n) : wrapped n = n := by
  rw [wrapped, Int.bmod] at h ⊢
  omega

theorem rows_enlarged (scale : Int) : (enlarged scale).rows = wrapped (32 * scale) := rfl

/-- The block of a scale whose counts do not go round. -/
theorem enlarged_of_lt (h : scale < 2 ^ 57) : enlarged scale = ⟨32 * scale, 64 * scale⟩ := by
  have hrows : wrapped (32 * scale : Int) = 32 * scale := wrapped_of_lt (by omega) (by omega)
  have hcolumns : wrapped (64 * scale : Int) = 64 * scale := wrapped_of_lt (by omega) (by omega)
  rw [enlarged]
  exact congrArg₂ PixelBlock.mk hrows hcolumns

theorem bytes_of_pos (hscale : 1 ≤ scale) :
    bytes ⟨32 * scale, 64⟩ = 4 * (64 * (32 * scale)) ∧
      bytes ⟨32 * scale, 64 * scale⟩ = 4 * (64 * scale * (32 * scale)) := by
  -- Counts of zero count as one, but there are none here.
  have hrows : max (32 * scale : Int).natAbs 1 = 32 * scale := by omega
  have hcolumns : max (64 * scale : Int).natAbs 1 = 64 * scale := by omega
  refine ⟨?_, ?_⟩
  · rw [bytes, hrows, pixelSize, show max (64 : Int).natAbs 1 = 64 from rfl]
    ring
  · rw [bytes, hrows, hcolumns, pixelSize]
    ring

/-! ## Scales

The screen is enlarged in two steps, first its rows and then the columns of these, and a block is reserved
for each step. The one for the rows tells that the scale is so small that the counts of the other are
right. -/

/-- A scale that enlarges the screen has a block if the rows fit and the block does, and no count of rows has
gone round. -/
theorem ofScale_of_one_lt (hscale : 1 < scale) :
    ofScale memory scale = .ok block ↔
      fits scale = true ∧ Screen.height * scale ≤ (enlarged scale).rows ∧
        (∃ tall, reserve memory { enlarged scale with columns := Screen.width } = .ok tall) ∧
        reserve memory (enlarged scale) = .ok block := by
  rw [ofScale, if_neg (by omega)]
  constructor
  · intro h
    split at h
    · cases h
    · next hfits =>
      split at h
      · cases h
      · next tall htall =>
        split at h
        · cases h
        · next hroom =>
          rw [(rows_of_reserve htall).1, Int.not_lt] at hroom
          exact ⟨by simpa using hfits, hroom, ⟨tall, htall⟩, h⟩
  · rintro ⟨hfits, hroom, ⟨tall, htall⟩, hblock⟩
    have hcopied : ¬ tall.rows < Screen.height * scale := by
      rw [(rows_of_reserve htall).1]
      exact Int.not_lt.mpr hroom
    rw [hfits, htall]
    simp only [Bool.not_true, Bool.false_eq_true, if_false, if_neg hcopied]
    exact hblock

/-- There is a block for such a scale just when its bytes can be counted and are in memory. It has the counts
that it should have. -/
theorem ofScale_eq_ok_iff (hscale : 1 < scale) :
    ofScale memory scale = .ok block ↔
      block = ⟨32 * scale, 64 * scale⟩ ∧ 4 * (64 * scale * (32 * scale)) < 2 ^ 63 ∧
        ∀ available ∈ memory, 4 * (64 * scale * (32 * scale)) < available := by
  obtain ⟨hlines, hbytes⟩ := bytes_of_pos hscale.le
  have hpositive : (0 : Int) ≤ 32 * scale ∧ (0 : Int) ≤ 64 * scale := by omega
  rw [ofScale_of_one_lt hscale]
  constructor
  · rintro ⟨-, hroom, ⟨tall, htall⟩, hblock⟩
    -- The rows alone are too many bytes to be counted long before any count goes round.
    have hsmall : scale < 2 ^ 57 := by
      have hcounted := (rows_of_reserve htall).2
      rw [rows_enlarged] at hroom hcounted
      rw [eq_of_le_wrapped hpositive.1 hroom, show (Screen.width : Int) = 64 from rfl, hlines]
        at hcounted
      omega
    rw [enlarged_of_lt hsmall, reserve_eq_ok_iff, hbytes] at hblock
    exact ⟨hblock.1, hblock.2.2.2⟩
  · -- The whole block can be counted, so the rows can, and the scale.
    rintro ⟨rfl, hcountable, henough⟩
    have hless : 4 * (64 * (32 * scale)) ≤ 4 * (64 * scale * (32 * scale)) := by
      have := Nat.mul_le_mul_right (32 * scale) (Nat.le_mul_of_pos_right 64 (by omega : 0 < scale))
      omega
    have hsmall : scale < 2 ^ 57 := by omega
    rw [enlarged_of_lt hsmall]
    refine ⟨?_, le_rfl, ⟨⟨32 * scale, 64⟩, ?_⟩, ?_⟩
    · rw [fits, Bool.and_eq_true, decide_eq_true_iff, decide_eq_true_iff]
      omega
    · refine reserve_eq_ok_iff.mpr ⟨rfl, hpositive.1, show (0 : Int) ≤ 64 by decide, ?_, ?_⟩
      · exact (hlines.trans_le hless).trans_lt hcountable
      · exact fun available havailable =>
          (hlines.trans_le hless).trans_lt (henough available havailable)
    · rw [reserve_eq_ok_iff, hbytes]
      exact ⟨rfl, hpositive.1, hpositive.2, hcountable, henough⟩

theorem exists_ofScale_iff (hscale : 1 ≤ scale) :
    (∃ block, ofScale memory scale = .ok block) ↔
      scale = 1 ∨ (4 * (64 * scale * (32 * scale)) < 2 ^ 63 ∧
        ∀ available ∈ memory, 4 * (64 * scale * (32 * scale)) < available) := by
  rcases Nat.eq_or_lt_of_le hscale with rfl | hlarge
  · -- Scale 1 enlarges nothing, and no memory is reserved for it.
    exact iff_of_true ⟨_, rfl⟩ (.inl rfl)
  · rw [or_iff_right (by omega)]
    constructor
    · rintro ⟨block, hblock⟩
      exact ((ofScale_eq_ok_iff hlarge).mp hblock).2
    · intro hroom
      exact ⟨_, (ofScale_eq_ok_iff hlarge).mpr ⟨rfl, hroom⟩⟩

/-- A block that there is has room for every pixel. -/
theorem size_enlarged (hscale : 1 ≤ scale) (h : ofScale memory scale = .ok block) :
    (enlarged scale).size = 4 * (64 * scale * (32 * scale)) := by
  -- Where there is a block, the counts do not go round.
  have hsmall : scale < 2 ^ 57 := by
    rcases (exists_ofScale_iff hscale).mp ⟨block, h⟩ with rfl | ⟨hcountable, -⟩
    · decide
    · have hless : 64 * scale ≤ 64 * scale * (32 * scale) := Nat.le_mul_of_pos_right _ (by omega)
      omega
  have hrows : (32 * scale : Int).toNat = 32 * scale := by omega
  have hcolumns : (64 * scale : Int).toNat = 64 * scale := by omega
  rw [enlarged_of_lt hsmall, size, hrows, hcolumns, pixelSize]
  ring

end ChipEight.PixelBlock
