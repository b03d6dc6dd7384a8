import Mathlib.Algebra.BigOperators.Ring.Finset
import Mathlib.Data.List.GetD
import Mathlib.Data.List.Induction
import ChipEight.Proofs.Pixels

/-!
# Three views of the screen

The screen can be read pixel by pixel, where it repeats in all directions (`Screen.pixel`), as a table of
zeros and ones (`Screen.bitmap`), and as the words of its rows (`Screen.frame`). Each view takes a bit out
of a word by a formula of its own: a mask that is moved down from the top, a shift to the right by a
descending distance, and the bit itself. They agree for all words of 64 bits and all whole coordinates
(`Screen.views_agree`).

The word of a row is the sum of the powers of two at its lit pixels (`Screen.rowWord_eq_sum`), so the table
tells one screen from another.
-/

namespace ChipEight.Screen

/-! ## Rows

A row is read in two directions: the pixels are taken out of its word, and the sum of the pixels
with the powers of two of their columns is the word again. That the second undoes the first is why
no two rows have the same pixels. -/

/-- The word of a row is a sum in which each pixel counts with the power of two of its column. -/
theorem rowWord_eq_sum (bits : List Nat) :
    rowWord bits =
      ∑ x ∈ Finset.range bits.length, bits.getD x 0 * 2 ^ (bits.length - 1 - x) := by
  -- One more pixel on the right moves all others up by one place.
  induction bits using List.reverseRecOn with
  | nil => rfl
  | append_singleton bits last ih =>
      have hword : rowWord (bits ++ [last]) = 2 * rowWord bits + last := List.foldl_append
      have hmoved : ∀ x ∈ Finset.range bits.length,
          2 * (bits.getD x 0 * 2 ^ (bits.length - 1 - x)) =
            (bits ++ [last]).getD x 0 * 2 ^ (bits.length - x) := by
        intro x hx
        have hx' : x < bits.length := Finset.mem_range.mp hx
        rw [List.getD_append _ _ _ _ hx', Nat.mul_left_comm, ← Nat.pow_succ',
          show Nat.succ (bits.length - 1 - x) = bits.length - x by omega]
      rw [hword, ih, Finset.mul_sum, Finset.sum_congr rfl hmoved, List.length_append,
        List.length_singleton, Finset.sum_range_succ, Nat.add_sub_cancel, Nat.sub_self,
        List.getD_append_right _ _ _ _ (Nat.le_refl _), Nat.sub_self]
      simp

@[simp] theorem length_rowBits (row : Nat) : (rowBits row).length = 64 := by
  simp [rowBits, width]

/-- The pixels of a row are zeros and ones. -/
theorem eq_zero_or_one_of_mem_rowBits {row entry : Nat} (h : entry ∈ rowBits row) :
    entry = 0 ∨ entry = 1 := by
  rw [rowBits_eq] at h
  obtain ⟨x, -, rfl⟩ := List.mem_map.mp h
  split
  · exact .inr rfl
  · exact .inl rfl

/-- The word of a row is found again in its pixels. -/
theorem sum_rowBits {row : Nat} (h : row < 2 ^ 64) :
    ∑ x ∈ Finset.range 64, (rowBits row).getD x 0 * 2 ^ (63 - x) = row := by
  have hword := rowWord_eq_sum (rowBits row)
  rw [rowWord_rowBits h, length_rowBits] at hword
  exact hword.symm

/-! ## Screens

The rows of the table and the words of the frame are the rows of the screen, so whatever holds
between a word and its pixels holds on every line. A pixel can be asked for at any whole numbers,
which the other two views have no entry for: there the coordinates are first brought onto the
screen. -/

variable {screen : Screen}

theorem getElem?_bitmap {y : Nat} (h : y < screen.rows.size) :
    screen.bitmap[y]? = some (rowBits (screen.rows.read y)) := by
  rw [bitmap, List.getElem?_map, getElem?_frame h]
  rfl

/-- A pixel is a bit of the word of its row, also where the screen is repeated. -/
theorem pixel_eq_testBit (screen : Screen) (x y : Int) :
    screen.pixel x y =
      (screen.rows.read (y % 32).toNat).testBit (63 - (x % 64).toNat) := by
  have hcolumn : (x % 64).toNat < width := by
    show (x % 64).toNat < 64
    omega
  exact rowLit_eq_testBit _ hcolumn

/-- Screens with the same table are the same. -/
theorem ext_bitmap {other : Screen} (hrows : screen.rows.Fits 32 (2 ^ 64))
    (hother : other.rows.Fits 32 (2 ^ 64)) (h : other.bitmap = screen.bitmap) : other = screen := by
  have hread : ∀ y, other.rows.read y = screen.rows.read y := by
    intro y
    -- On the screen the rows are the sums of equal pixels, and beyond it both read the default.
    rcases Nat.lt_or_ge y 32 with hy | hy
    · have hbits : rowBits (other.rows.read y) = rowBits (screen.rows.read y) := by
        apply Option.some.inj
        rw [← getElem?_bitmap (by rwa [hother.size_eq]), h, getElem?_bitmap (by rwa [hrows.size_eq])]
      rw [← sum_rowBits (hother.read_lt (by decide) y), hbits,
        sum_rowBits (hrows.read_lt (by decide) y)]
    · rw [Bank.read_eq_default (by rwa [hother.size_eq]), Bank.read_eq_default (by rwa [hrows.size_eq])]
  obtain ⟨rows⟩ := screen
  obtain ⟨rows'⟩ := other
  congr 1
  exact Bank.ext_read (hother.size_eq.trans hrows.size_eq.symm) hread

/-- Whatever the words of the 32 rows are, and whatever whole numbers the coordinates: the pixel, the
entry of the table and the bit of the row word are the same, where coordinates count modulo the size of
the screen. The table has 32 rows of 64 zeros and ones. Each row word is the sum of its entries with the
powers of two of their columns, so different screens have different tables. -/
theorem views_agree (hrows : screen.rows.Fits 32 (2 ^ 64)) :
    (∀ x y : Int, ∃ word entries,
      screen.frame[(y % 32).toNat]? = some word ∧
      screen.bitmap[(y % 32).toNat]? = some entries ∧
      screen.pixel x y = word.testBit (63 - (x % 64).toNat) ∧
      entries[(x % 64).toNat]? = some (if screen.pixel x y then 1 else 0)) ∧
    screen.frame.length = 32 ∧ screen.bitmap.length = 32 ∧
    (∀ entries ∈ screen.bitmap,
      entries.length = 64 ∧ ∀ entry ∈ entries, entry = 0 ∨ entry = 1) ∧
    (∀ (y : Nat) (entries : List Nat), screen.bitmap[y]? = some entries →
      screen.frame[y]? = some (∑ x ∈ Finset.range 64, entries.getD x 0 * 2 ^ (63 - x))) ∧
    ∀ other : Screen, other.rows.Fits 32 (2 ^ 64) → other.bitmap = screen.bitmap →
      other = screen := by
  have hheight : screen.bitmap.length = 32 := by
    rw [bitmap, List.length_map, length_frame, hrows.size_eq]
  refine ⟨?_, ?_, hheight, ?_, ?_, fun other hother h => ext_bitmap hrows hother h⟩
  · -- the three views at one pixel
    intro x y
    have hline : (y % 32).toNat < screen.rows.size := by
      rw [hrows.size_eq]
      omega
    have hcolumn : (x % 64).toNat < width := by
      show (x % 64).toNat < 64
      omega
    exact ⟨_, _, getElem?_frame hline, getElem?_bitmap hline, pixel_eq_testBit screen x y,
      getElem?_rowBits _ hcolumn⟩
  · rw [length_frame, hrows.size_eq]
  · -- the shape of the table
    intro entries hmem
    obtain ⟨row, -, rfl⟩ := List.mem_map.mp hmem
    exact ⟨length_rowBits row, fun entry h => eq_zero_or_one_of_mem_rowBits h⟩
  · -- a row word from its entries
    intro y entries hentries
    have hline : y < screen.rows.size := by
      rw [hrows.size_eq, ← hheight]
      exact (List.getElem?_eq_some_iff.mp hentries).1
    rw [getElem?_bitmap hline] at hentries
    obtain rfl := Option.some.inj hentries
    rw [sum_rowBits (hrows.read_lt (by decide) y), getElem?_frame hline]

/-- A screen on which the two lowest corners are lit. -/
def cornered : Screen := ⟨(Bank.replicate 32 0).write 31 0x8000000000000001⟩

theorem views_of_cornered_agree :
    cornered.rows.Fits 32 (2 ^ 64) ∧ cornered.pixel (-1) (-1) = true ∧
      cornered.pixel (64 * 10 ^ 30) (-97) = true ∧ cornered.pixel (-2) 31 = false ∧
      cornered.bitmap[31]? = some (1 :: List.replicate 62 0 ++ [1]) ∧
      ∑ x ∈ Finset.range 64, (1 :: List.replicate 62 0 ++ [1]).getD x 0 * 2 ^ (63 - x) =
        0x8000000000000001 ∧
      cornered.bitmap ≠ blank.bitmap := by
  have hrows : cornered.rows.Fits 32 (2 ^ 64) := (Bank.Fits.replicate (by decide)).write 31 (by decide)
  obtain ⟨hviews, -, -, -, hsum, hdistinct⟩ := views_agree hrows
  have hframe : cornered.frame[31]? = some 0x8000000000000001 := by decide +kernel
  have hpixel : ∀ x y : Int, (y % 32).toNat = 31 →
      cornered.pixel x y = Nat.testBit 0x8000000000000001 (63 - (x % 64).toNat) := by
    intro x y hy
    -- The general statement gives the pixel as a bit of the one word that is not zero.
    obtain ⟨word, entries, hword, -, hbit, -⟩ := hviews x y
    rw [hy, hframe] at hword
    obtain rfl := Option.some.inj hword
    exact hbit
  have hentries : cornered.bitmap[31]? = some (1 :: List.replicate 62 0 ++ [1]) := by decide +kernel
  have hword := hsum 31 _ hentries
  rw [hframe] at hword
  refine ⟨hrows, ?_, ?_, ?_, hentries, (Option.some.inj hword).symm, ?_⟩
  · rw [hpixel (-1) (-1) (by decide)]
    decide +kernel
  · rw [hpixel (64 * 10 ^ 30) (-97) (by decide)]
    decide +kernel
  · rw [hpixel (-2) 31 (by decide)]
    decide +kernel
  · -- If the tables agreed, the screens would, and then their last row words.
    intro hsame
    have hblank : blank = cornered := hdistinct blank blank_fits hsame.symm
    have hrow := congrArg (fun screen => screen.frame[31]?) hblank
    rw [hframe] at hrow
    revert hrow
    decide +kernel

end ChipEight.Screen
