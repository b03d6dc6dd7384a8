import ChipEight.Proofs.Ranges

/-!
# Single pixels

A screen is stored as row words, but it is read and drawn on pixel by pixel. Column `x` of a row is
bit `63 - x` of its word (`rowLit_eq_testBit`), so flipping a pixel changes that pixel and no other
(`lit_flip`), and two screens with the same pixels are the same screen (`ext_lit`). The word of a row can
be read off its pixels (`rowWord_rowBits`).

A sprite covers every pixel at most once: its rows and columns are fewer than those of the screen, so
the two moduli under which it wraps around do not bring two of its pixels together
(`Sprite.points_nodup`).
-/

namespace ChipEight

/-! ## Reading and flipping

A pixel is read with the mask of its column, and flipped with the same mask. The mask of a column on
the screen has exactly one bit and that of any other column none, so both are statements about
single bits of a word. -/

namespace Screen

/-- A mask with a single bit tests that bit. -/
theorem and_two_pow_bne_zero (row k : Nat) : (row &&& 2 ^ k != 0) = row.testBit k := by
  have hmasked : ∀ i, (row &&& 2 ^ k).testBit i = (row.testBit i && decide (k = i)) := by
    intro i
    rw [Nat.testBit_and, Nat.testBit_two_pow]
  cases hbit : row.testBit k with
  | true =>
      have hk : (row &&& 2 ^ k).testBit k = true := by simp [hmasked, hbit]
      apply bne_iff_ne.mpr
      intro hzero
      rw [hzero, Nat.zero_testBit] at hk
      cases hk
  | false =>
      have hzero : row &&& 2 ^ k = 0 := by
        apply Nat.eq_of_testBit_eq
        intro i
        rw [hmasked, Nat.zero_testBit]
        by_cases hi : k = i
        · rw [← hi, hbit, Bool.false_and]
        · simp [hi]
      simp [hzero]

theorem column_eq_two_pow {x : Nat} (hx : x < width) : column x = 2 ^ (width - 1 - x) := by
  have hx' : x < 64 := hx
  apply Nat.eq_of_testBit_eq
  intro i
  show ((1 <<< 63) >>> x).testBit i = (2 ^ (63 - x)).testBit i
  rw [Nat.testBit_shiftRight, Nat.one_shiftLeft, Nat.testBit_two_pow, Nat.testBit_two_pow,
    decide_eq_decide]
  omega

/-- The leftmost pixel is the highest of the 64 bits. -/
theorem rowLit_eq_testBit (row : Nat) {x : Nat} (hx : x < width) :
    rowLit row x = row.testBit (width - 1 - x) := by
  rw [rowLit, column_eq_two_pow hx, and_two_pow_bne_zero]

theorem column_eq_zero {x : Nat} (hx : width ≤ x) : column x = 0 := by
  rw [column, Nat.shiftRight_eq_div_pow]
  apply Nat.div_eq_of_lt
  exact Nat.lt_of_lt_of_le (by decide : leftmost < 2 ^ width) (Nat.pow_le_pow_right (by decide) hx)

theorem rowLit_eq_false (row : Nat) {x : Nat} (hx : width ≤ x) : rowLit row x = false := by
  simp [rowLit, column_eq_zero hx]

theorem rowLit_xor (row row' x : Nat) : rowLit (row ^^^ row') x = (rowLit row x ^^ rowLit row' x) := by
  rcases Nat.lt_or_ge x width with hx | hx
  · simp only [rowLit_eq_testBit _ hx, Nat.testBit_xor]
  · simp only [rowLit_eq_false _ hx, Bool.xor_self]

theorem rowLit_column {x : Nat} (hx : x < width) (i : Nat) : rowLit (column x) i = decide (x = i) := by
  rcases Nat.lt_or_ge i width with hi | hi
  · rw [rowLit_eq_testBit _ hi, column_eq_two_pow hx, Nat.testBit_two_pow, decide_eq_decide]
    omega
  · rw [rowLit_eq_false _ hi, decide_eq_false (by omega)]

theorem rowLit_xor_column (row : Nat) {x : Nat} (hx : x < width) (i : Nat) :
    rowLit (row ^^^ column x) i = (rowLit row i ^^ decide (x = i)) := by
  rw [rowLit_xor, rowLit_column hx]

/-- Row words with the same pixels are equal. -/
theorem row_ext {row row' : Nat} (hrow : row < 2 ^ 64) (hrow' : row' < 2 ^ 64)
    (h : ∀ x, rowLit row x = rowLit row' x) : row = row' := by
  apply Nat.eq_of_testBit_eq
  intro i
  -- A bit of a row is one of its pixels, or it is too high for a row to have it.
  rcases Nat.lt_or_ge i width with hi | hi
  · have hcolumn : width - 1 - i < width := by omega
    have hlit := h (width - 1 - i)
    rw [rowLit_eq_testBit _ hcolumn, rowLit_eq_testBit _ hcolumn] at hlit
    rwa [show width - 1 - (width - 1 - i) = i by omega] at hlit
  · have hpow : 2 ^ 64 ≤ 2 ^ i := Nat.pow_le_pow_right (by decide) hi
    rw [Nat.testBit_lt_two_pow (Nat.lt_of_lt_of_le hrow hpow),
      Nat.testBit_lt_two_pow (Nat.lt_of_lt_of_le hrow' hpow)]

/-- The point is one of the 64 times 32 pixels. -/
def OnScreen (point : Nat × Nat) : Prop := point.1 < width ∧ point.2 < height

instance : DecidablePred OnScreen := fun point =>
  inferInstanceAs (Decidable (point.1 < width ∧ point.2 < height))

theorem lit_eq_false {screen : Screen} (hsize : screen.rows.size = height) {x y : Nat}
    (h : ¬ OnScreen (x, y)) : screen.lit x y = false := by
  rcases Nat.lt_or_ge x width with hx | hx
  · -- The column is on the screen, so the line is not.
    have hy : height ≤ y := by
      apply Nat.not_lt.mp
      intro hy
      exact h ⟨hx, hy⟩
    rw [lit, Bank.read_eq_default (by omega)]
    simp [rowLit]
  · exact rowLit_eq_false _ hx

/-- A flip changes the pixel it is at and no other. -/
theorem lit_flip {screen : Screen} (hsize : screen.rows.size = height) {point : Nat × Nat}
    (h : OnScreen point) (i j : Nat) :
    (screen.flip point.1 point.2).lit i j = (screen.lit i j ^^ decide (point = (i, j))) := by
  obtain ⟨x, y⟩ := point
  obtain ⟨hx, hy⟩ := h
  simp only [lit, flip, Bank.read_write, hsize]
  -- Only the row of the flip is written, and there only the bit of its column.
  by_cases hrow : y = j
  · subst hrow
    rw [if_pos ⟨rfl, hy⟩, rowLit_xor_column _ hx]
    simp
  · rw [if_neg (fun h => hrow h.1)]
    simp [hrow]

/-- Screens whose pixels agree are equal, given that their rows are 64-bit words. -/
theorem ext_lit {a b : Screen} (ha : a.rows.Fits 32 (2 ^ 64)) (hb : b.rows.Fits 32 (2 ^ 64))
    (h : ∀ x y, a.lit x y = b.lit x y) : a = b := by
  have hread : ∀ y, a.rows.read y = b.rows.read y := by
    intro y
    exact row_ext (ha.read_lt (by decide) y) (hb.read_lt (by decide) y) fun x => h x y
  obtain ⟨rows⟩ := a
  obtain ⟨rows'⟩ := b
  congr 1
  exact Bank.ext_read (ha.size_eq.trans hb.size_eq.symm) hread

@[simp] theorem lit_blank (x y : Nat) : blank.lit x y = false := by
  have hread : blank.rows.read y = 0 := by
    simp only [blank, Bank.read, Bank.replicate, Array.getD_eq_getD_getElem?,
      Array.getElem?_replicate]
    split <;> rfl
  simp [lit, hread, rowLit]

/-! ## Rows read off their pixels

The frame of a screen is the list of its row words, and the pixels of a row are its bits from the
left. Reading them as binary digits gives the word again. -/

theorem length_frame (screen : Screen) : screen.frame.length = screen.rows.size :=
  Bank.length_toList screen.rows

theorem getElem?_frame {screen : Screen} {y : Nat} (h : y < screen.rows.size) :
    screen.frame[y]? = some (screen.rows.read y) := by
  have hy : y < screen.rows.cells.size := h
  simp [frame, Bank.toList, Bank.read, Array.getD_eq_getD_getElem?, hy]

/-- Screens with the same rows are equal. -/
theorem ext_frame {a b : Screen} (h : a.frame = b.frame) : a = b := by
  obtain ⟨⟨cells⟩⟩ := a
  obtain ⟨⟨cells'⟩⟩ := b
  have hcells : cells = cells' := Array.toList_inj.mp h
  rw [hcells]

theorem rowBits_eq (row : Nat) :
    rowBits row = (List.range width).map fun x => if rowLit row x then 1 else 0 := by
  apply List.map_congr_left
  intro x hx
  have hx' := List.mem_range.mp hx
  have hbit : (row >>> (width - 1 - x)) &&& 1 = (row.testBit (width - 1 - x)).toNat := by
    rw [Nat.and_one_is_mod, Nat.shiftRight_eq_div_pow, Nat.toNat_testBit]
  rw [hbit, rowLit_eq_testBit row hx']
  cases row.testBit (width - 1 - x) <;> rfl

theorem getElem?_rowBits (row : Nat) {x : Nat} (hx : x < width) :
    (rowBits row)[x]? = some (if rowLit row x then 1 else 0) := by
  rw [rowBits_eq, List.getElem?_map, List.getElem?_range hx]
  rfl

/-- The row word of pixels from left to right, 1 for a lit one and 0 for a dark one. -/
def rowWord (bits : List Nat) : Nat := bits.foldl (fun word bit => 2 * word + bit) 0

/-- The pixels of a row make its word again. -/
theorem rowWord_rowBits {row : Nat} (h : row < 2 ^ width) : rowWord (rowBits row) = row := by
  -- After so many pixels from the left, the word is what stands in front of the others.
  have hfirst : ∀ count, count ≤ width →
      rowWord ((List.range count).map fun x => (row >>> (width - 1 - x)) &&& 1) =
        row >>> (width - count) := by
    intro count hcount
    induction count with
    | zero =>
        rw [Nat.sub_zero, Nat.shiftRight_eq_div_pow, Nat.div_eq_of_lt h]
        rfl
    | succ count ih =>
        have hshift : row >>> (width - count) = (row >>> (width - 1 - count)) / 2 := by
          rw [show width - count = width - 1 - count + 1 by omega, Nat.shiftRight_succ]
        rw [List.range_succ, List.map_append, rowWord, List.foldl_append, ← rowWord,
          ih (by omega), hshift, show width - (count + 1) = width - 1 - count by omega,
          List.map_singleton, List.foldl_cons, List.foldl_nil, Nat.and_one_is_mod]
        exact Nat.div_add_mod (row >>> (width - 1 - count)) 2
  exact (hfirst width (Nat.le_refl _)).trans (by rw [Nat.sub_self, Nat.shiftRight_zero])

theorem pixel_natCast (screen : Screen) {x y : Nat} (hx : x < width) (hy : y < height) :
    screen.pixel x y = screen.lit x y := by
  have hx' : (x : Int) % width = x := Int.emod_eq_of_lt (by omega) (by omega)
  have hy' : (y : Int) % height = y := Int.emod_eq_of_lt (by omega) (by omega)
  rw [pixel, hx', hy', Int.toNat_natCast, Int.toNat_natCast]

/-! ## Drawing

A drawing goes through a list of points and flips one after the other. What it has done to the
screen depends only on how often each point comes up, and the report can be read off the first
screen as long as no point comes up twice. -/

theorem lit_drawing_flip {drawing : Drawing} (hsize : drawing.screen.rows.size = height)
    {point : Nat × Nat} (h : OnScreen point) (i j : Nat) :
    (drawing.flip point).screen.lit i j =
      (drawing.screen.lit i j ^^ decide (point = (i, j))) := lit_flip hsize h i j

theorem size_drawing_flip (drawing : Drawing) (point : Nat × Nat) :
    (drawing.flip point).screen.rows.size = drawing.screen.rows.size := Bank.size_write _ _ _

/-- Drawing turns over the pixels that are flipped an odd number of times. -/
theorem lit_foldl_flip {points : List (Nat × Nat)} (hpoints : ∀ p ∈ points, OnScreen p)
    {drawing : Drawing} (hsize : drawing.screen.rows.size = height) (i j : Nat) :
    (points.foldl Drawing.flip drawing).screen.lit i j =
      (drawing.screen.lit i j ^^ decide (points.count (i, j) % 2 = 1)) := by
  induction points generalizing drawing with
  | nil => simp
  | cons p ps ih =>
      have hrest : ∀ q ∈ ps, OnScreen q := fun q hq => hpoints q (by simp [hq])
      have hflipped : (drawing.flip p).screen.rows.size = height := by
        rw [size_drawing_flip, hsize]
      rw [List.foldl_cons, ih hrest hflipped, lit_drawing_flip hsize (hpoints p (by simp)),
        List.count_cons]
      -- One flip more changes the parity.
      by_cases hhere : p = (i, j)
      · have hparity : decide ((ps.count (i, j) + 1) % 2 = 1) =
            !decide (ps.count (i, j) % 2 = 1) := by
          rw [← decide_not, decide_eq_decide]
          omega
        rw [if_pos (beq_iff_eq.mpr hhere), hparity, decide_eq_true hhere]
        simp
      · simp [hhere]

/-- Drawing on pixels that are all different reports each of them with its new value. A pixel that was
passed is not looked at again, so its value is still the one of the report. -/
theorem changes_foldl_flip {points : List (Nat × Nat)} (hnodup : points.Nodup)
    (hpoints : ∀ p ∈ points, OnScreen p) {drawing : Drawing}
    (hsize : drawing.screen.rows.size = height) :
    (points.foldl Drawing.flip drawing).changes =
      drawing.changes ++ points.map fun p => ⟨p.1, p.2, !drawing.screen.lit p.1 p.2⟩ := by
  induction points generalizing drawing with
  | nil => simp
  -- The first point does not come up again, so the later ones find their pixels as they were.
  | cons p ps ih =>
      obtain ⟨hfresh, hrest⟩ := List.nodup_cons.mp hnodup
      have hlit := lit_drawing_flip hsize (hpoints p (by simp))
      have hflipped : (drawing.flip p).screen.rows.size = height := by
        rw [size_drawing_flip, hsize]
      have hnew : (drawing.flip p).changes =
          drawing.changes ++ [⟨p.1, p.2, !drawing.screen.lit p.1 p.2⟩] := by
        show drawing.changes ++ [⟨p.1, p.2, (drawing.flip p).screen.lit p.1 p.2⟩] = _
        rw [hlit]
        simp
      have hold : ∀ q ∈ ps, (⟨q.1, q.2, !(drawing.flip p).screen.lit q.1 q.2⟩ : Change) =
          ⟨q.1, q.2, !drawing.screen.lit q.1 q.2⟩ := by
        intro q hq
        have hne : p ≠ q := by
          intro hsame
          exact hfresh (hsame ▸ hq)
        rw [hlit]
        simp [hne]
      rw [List.foldl_cons, ih hrest (fun q hq => hpoints q (by simp [hq])) hflipped, hnew,
        List.map_congr_left hold]
      simp

/-- While pixels are flipped, a lit one was hit just when one was turned off. -/
theorem collision_foldl_flip {points : List (Nat × Nat)} (hpoints : ∀ p ∈ points, OnScreen p)
    {drawing : Drawing} (hsize : drawing.screen.rows.size = height)
    (h : drawing.collision = drawing.changes.any (!·.lit)) :
    let after := points.foldl Drawing.flip drawing
    after.collision = after.changes.any (!·.lit) := by
  induction points generalizing drawing with
  | nil => exact h
  | cons p ps ih =>
      -- What is added to both sides is whether the flipped pixel was lit.
      apply ih (fun q hq => hpoints q (by simp [hq])) (by rw [size_drawing_flip, hsize])
      have hlit := lit_drawing_flip hsize (hpoints p (by simp)) p.1 p.2
      have hchanges : (drawing.flip p).changes =
          drawing.changes ++ [⟨p.1, p.2, (drawing.flip p).screen.lit p.1 p.2⟩] := rfl
      rw [hchanges, List.any_append, ← h, hlit]
      simp [Drawing.flip]

theorem collision_draw {screen : Screen} (hsize : screen.rows.size = height)
    {points : List (Nat × Nat)} (hpoints : ∀ p ∈ points, OnScreen p) :
    (screen.draw points).collision = true ↔
      ∃ change ∈ (screen.draw points).changes, change.lit = false := by
  rw [draw, collision_foldl_flip hpoints hsize rfl]
  simp

/-- Drawing on pixels that are all different turns these over. -/
theorem lit_draw {screen : Screen} (hsize : screen.rows.size = height) {points : List (Nat × Nat)}
    (hnodup : points.Nodup) (hpoints : ∀ p ∈ points, OnScreen p) (x y : Nat) :
    (screen.draw points).screen.lit x y = (screen.lit x y ^^ decide ((x, y) ∈ points)) := by
  rw [Screen.draw, lit_foldl_flip hpoints hsize, hnodup.count]
  by_cases hpoint : (x, y) ∈ points <;> simp [hpoint]

theorem changes_draw {screen : Screen} (hsize : screen.rows.size = height) {points : List (Nat × Nat)}
    (hnodup : points.Nodup) (hpoints : ∀ p ∈ points, OnScreen p) :
    (screen.draw points).changes = points.map fun p => ⟨p.1, p.2, !screen.lit p.1 p.2⟩ :=
  changes_foldl_flip hnodup hpoints hsize

/-- The lit pixels of a frame of any number of rows, row by row from the top. -/
def framePoints (frame : List Nat) : List (Nat × Nat) :=
  frame.zipIdx.flatMap fun (row, y) => (litColumns row).map (·, y)

theorem mem_framePoints {frame : List Nat} {x y : Nat} :
    (x, y) ∈ framePoints frame ↔ x < width ∧ ∃ row, frame[y]? = some row ∧ rowLit row x = true := by
  simp only [framePoints, List.mem_flatMap, List.mem_map, Prod.exists, List.mk_mem_zipIdx_iff_getElem?,
    litColumns_eq_filter, List.mem_filter, List.mem_range, Prod.mk.injEq]
  constructor
  · rintro ⟨row, _, hmem, _, ⟨hx, hlit⟩, rfl, rfl⟩
    exact ⟨hx, row, hmem, hlit⟩
  · rintro ⟨hx, row, hmem, hlit⟩
    exact ⟨row, y, hmem, x, ⟨hx, hlit⟩, rfl, rfl⟩

/-- The list of lit pixels has every lit pixel and no other. -/
theorem mem_litPoints {screen : Screen} (hsize : screen.rows.size = height) {x y : Nat} :
    (x, y) ∈ screen.litPoints ↔ OnScreen (x, y) ∧ screen.lit x y = true := by
  have hpoints : screen.litPoints = framePoints screen.frame := rfl
  rw [hpoints, mem_framePoints]
  constructor
  · rintro ⟨hx, row, hrow, hlit⟩
    have hy : y < screen.rows.size := by
      rw [← Bank.length_toList]
      exact (List.getElem?_eq_some_iff.mp hrow).1
    rw [getElem?_frame hy] at hrow
    obtain rfl := Option.some.inj hrow
    exact ⟨⟨hx, hsize ▸ hy⟩, hlit⟩
  · rintro ⟨⟨hx, hy⟩, hlit⟩
    exact ⟨hx, screen.rows.read y, getElem?_frame (hsize ▸ hy), hlit⟩

/-- Numbering a list gives different numbers. -/
theorem zipIdx_pairwise {α : Type} (l : List α) : l.zipIdx.Pairwise fun a b => a.2 ≠ b.2 := by
  apply List.pairwise_map.mp
  rw [List.zipIdx_map_snd]
  exact List.nodup_range'

theorem litPoints_nodup (screen : Screen) : screen.litPoints.Nodup := by
  apply List.pairwise_flatMap.mpr
  -- Columns of one row differ, and points of different rows have different lines.
  constructor
  · rintro ⟨row, y⟩ -
    apply List.pairwise_map.mpr
    rw [litColumns_eq_filter]
    exact (List.nodup_range.filter _).imp (fun hne h => hne (congrArg Prod.fst h))
  · apply (zipIdx_pairwise screen.frame).imp
    rintro ⟨row, y⟩ ⟨row', y'⟩ hne p hp q hq rfl
    obtain ⟨x, -, rfl⟩ := List.mem_map.mp hp
    obtain ⟨x', -, hq⟩ := List.mem_map.mp hq
    exact hne (congrArg Prod.snd hq).symm

end Screen

/-! ## Sprites

The points of a sprite are given by the rows of its bytes, each wrapped around on its own. Two of
them coincide only if both coordinates do, so lines and columns can be told apart separately. -/

namespace Sprite

/-- The pixels that one row of a sprite covers. -/
theorem mem_row {x y row byte : Nat} {p : Nat × Nat} :
    (p ∈ (List.range width).filterMap fun bit =>
      if rowSet byte bit then some ((x + bit) % Screen.width, (y + row) % Screen.height)
      else none) ↔
    ∃ bit, bit < width ∧ rowSet byte bit = true ∧
      p = ((x + bit) % Screen.width, (y + row) % Screen.height) := by
  simp [List.mem_filterMap, eq_comm (a := p)]

theorem onScreen_of_mem_points {x y : Nat} {bytes : List Nat} {p : Nat × Nat}
    (h : p ∈ points x y bytes) : Screen.OnScreen p := by
  obtain ⟨⟨byte, row⟩, -, hrow⟩ := List.mem_flatMap.mp h
  obtain ⟨bit, -, -, rfl⟩ := mem_row.mp hrow
  exact ⟨Nat.mod_lt _ (by decide), Nat.mod_lt _ (by decide)⟩

/-- A sprite of at most 32 rows covers no pixel twice. -/
theorem points_nodup (x y : Nat) {bytes : List Nat} (h : bytes.length ≤ Screen.height) :
    (points x y bytes).Nodup := by
  apply List.pairwise_flatMap.mpr
  constructor
  · rintro ⟨byte, row⟩ -
    apply List.pairwise_filterMap.mpr
    -- within a row, the columns differ because 8 bits do not reach around 64 columns
    apply List.nodup_range.imp_of_mem
    intro bit bit' hbit hbit' hne p hp q hq hsame
    have hcolumns : (x + bit) % 64 = (x + bit') % 64 := by
      simp only [Option.ite_none_right_eq_some, Option.some.injEq] at hp hq
      exact congrArg Prod.fst (hp.2.trans (hsame.trans hq.2.symm))
    have hlt : bit < 8 := List.mem_range.mp hbit
    have hlt' : bit' < 8 := List.mem_range.mp hbit'
    omega
  · -- between rows, because there are no more of them than the screen has
    apply (Screen.zipIdx_pairwise bytes).imp_of_mem
    rintro ⟨byte, row⟩ ⟨byte', row'⟩ hmem hmem' hne p hp q hq hsame
    obtain ⟨bit, -, -, rfl⟩ := mem_row.mp hp
    obtain ⟨bit', -, -, rfl⟩ := mem_row.mp hq
    have hrows : (y + row) % 32 = (y + row') % 32 := congrArg Prod.snd hsame
    have hlt := List.snd_lt_of_mem_zipIdx hmem
    have hlt' := List.snd_lt_of_mem_zipIdx hmem'
    simp only [Screen.height] at h hlt hlt' hne
    omega

end Sprite

end ChipEight
