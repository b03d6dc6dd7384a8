import ChipEight.Animation
import ChipEight.Proofs.Pixels

/-!
# The pictures of an animation

A frame is painted lit pixel by lit pixel on a canvas of the size of the screen. So it can be painted if
and only if none of its lit pixels is outside, however many rows it has and whatever bits they have
beyond those of the screen (`Animation.paintFrame_eq`), and the canvas is white where the frame is lit and
black everywhere else.

A picture is the canvas with every pixel enlarged to a square (`Image.ShowsFrame`). One pixel of each
square is enough to find the rows of a screen in it again (`Image.ShowsFrame.readRows_eq`), so different
screens have different pictures.
-/

namespace ChipEight

/-! ## Painting

A pixel outside the canvas cannot be painted, and the painting ends there. So a list of pixels is
painted if and only if all of them are inside, and then the canvas is the old one with the cells of
these pixels written over. The order does not matter, because all are painted in one color. -/

theorem foldlM_flatMap {α β γ : Type} (step : γ → β → Option γ) (f : α → List β) (items : List α)
    (start : γ) :
    (items.flatMap f).foldlM step start =
      items.foldlM (fun before item => (f item).foldlM step before) start := by
  induction items generalizing start with
  | nil => rfl
  | cons first rest ih =>
      rw [List.flatMap_cons, List.foldlM_append, List.foldlM_cons]
      congr 1
      funext after
      exact ih after

namespace Canvas

variable {α : Type}

/-- The canvas with some pixels painted in one color. -/
def painted (canvas : Canvas α) (points : List (Nat × Nat)) (color : α) : Canvas α :=
  { canvas with
    cells := canvas.cells.writeAll (points.map fun p => (p.2 * canvas.width + p.1, color)) }

/-- Pixels are painted one after the other if none of them is outside. -/
theorem foldlM_paint? (canvas : Canvas α) (points : List (Nat × Nat)) (color : α) :
    points.foldlM (fun canvas p => canvas.paint? p.1 p.2 color) canvas =
      if ∀ p ∈ points, p.1 < canvas.width ∧ p.2 < canvas.height then some (canvas.painted points color)
      else none := by
  induction points generalizing canvas with
  | nil => rfl
  | cons p ps ih =>
      rw [List.foldlM_cons, paint?]
      by_cases hp : p.1 < canvas.width ∧ p.2 < canvas.height
      · rw [if_pos hp]
        show ps.foldlM _ _ = _
        rw [ih]
        simp only [List.forall_mem_cons, hp, true_and]
        rfl
      · -- One pixel outside ends the painting, whatever comes after it.
        rw [if_neg hp, if_neg fun hall => hp (hall p (by simp))]
        rfl

/-- Different pixels of a canvas are in different cells. -/
theorem cell_eq_iff {width x y x' y' : Nat} (hx : x < width) (hx' : x' < width) :
    y * width + x = y' * width + x' ↔ x = x' ∧ y = y' := by
  constructor
  · intro h
    -- The column is the remainder by the width, and with equal columns the rows are equal.
    have hcolumn : x = x' :=
      calc x = (y * width + x) % width := (Nat.mul_add_mod_of_lt hx).symm
        _ = (y' * width + x') % width := by rw [h]
        _ = x' := Nat.mul_add_mod_of_lt hx'
    refine ⟨hcolumn, ?_⟩
    rw [hcolumn, Nat.add_right_cancel_iff] at h
    exact Nat.eq_of_mul_eq_mul_right (Nat.lt_of_le_of_lt (Nat.zero_le x) hx) h
  · rintro ⟨rfl, rfl⟩
    rfl

theorem pixel_painted [Inhabited α] {canvas : Canvas α}
    (hcells : canvas.cells.size = canvas.width * canvas.height) {points : List (Nat × Nat)}
    (hinside : ∀ p ∈ points, p.1 < canvas.width) {x y : Nat} (hx : x < canvas.width)
    (hy : y < canvas.height) (color : α) :
    (canvas.painted points color).image.pixel x y =
      if (x, y) ∈ points then color else canvas.image.pixel x y := by
  have hcell : y * canvas.width + x < canvas.cells.size := by
    have hrow : (y + 1) * canvas.width ≤ canvas.height * canvas.width :=
      Nat.mul_le_mul_right _ hy
    rw [hcells, Nat.mul_comm canvas.width]
    rw [Nat.succ_mul] at hrow
    omega
  have hpainted : y * canvas.width + x ∈
      (points.map fun p => (p.2 * canvas.width + p.1, color)).map Prod.fst ↔ (x, y) ∈ points := by
    rw [List.map_map, List.mem_map]
    constructor
    · rintro ⟨p, hp, hsame⟩
      obtain ⟨rfl, rfl⟩ := (cell_eq_iff (hinside p hp) hx).mp hsame
      exact hp
    · intro hp
      exact ⟨(x, y), hp, rfl⟩
  have hcolor : ∀ w ∈ points.map fun p => (p.2 * canvas.width + p.1, color), w.2 = color := by
    intro w hw
    obtain ⟨p, -, rfl⟩ := List.mem_map.mp hw
    rfl
  show (canvas.cells.writeAll _).read (y * canvas.width + x) = _
  rw [Bank.read_writeAll_const hcolor hcell]
  simp only [hpainted]
  rfl

end Canvas

/-! ## Frames

The rows of a frame are numbered from the top, and its lit columns are tried from the left. Bits
beyond the 64 columns are never looked at, and a row without lit pixels may lie below the screen. -/

namespace Animation

/-- The canvas of the size of the screen, with the lit pixels of a frame painted white. -/
def canvasOf (frame : List Nat) : Canvas Nat :=
  (Canvas.blank Screen.width Screen.height black).painted (Screen.framePoints frame) white

/-- A frame can be painted if none of its lit pixels is outside. -/
theorem paintFrame_eq (frame : List Nat) :
    paintFrame frame =
      if ∀ p ∈ Screen.framePoints frame, Screen.OnScreen p then some (canvasOf frame) else none := by
  have hpoints : paintFrame frame =
      (Screen.framePoints frame).foldlM (fun canvas p => canvas.paint? p.1 p.2 white)
        (Canvas.blank Screen.width Screen.height black) := by
    rw [Screen.framePoints, foldlM_flatMap, paintFrame]
    congr 1
    funext canvas cell
    obtain ⟨row, y⟩ := cell
    rw [List.foldlM_map]
    rfl
  rw [hpoints, Canvas.foldlM_paint?]
  rfl

/-- A frame has a lit pixel outside just if a row below the last one of the screen has one. -/
theorem exists_outside_iff {frame : List Nat} :
    (∃ p ∈ Screen.framePoints frame, ¬ Screen.OnScreen p) ↔
      ∃ y ≥ 32, ∃ row, frame[y]? = some row ∧ ∃ bit < 64, row.testBit bit = true := by
  constructor
  · rintro ⟨⟨x, y⟩, hp, houtside⟩
    obtain ⟨hx, row, hrow, hlit⟩ := Screen.mem_framePoints.mp hp
    -- The columns are always on the screen, so it is the row that is too far down.
    have hy : 32 ≤ y := Nat.not_lt.mp fun hy => houtside ⟨hx, hy⟩
    rw [Screen.rowLit_eq_testBit row hx] at hlit
    exact ⟨y, hy, row, hrow, 63 - x, by omega, hlit⟩
  · rintro ⟨y, hy, row, hrow, bit, hbit, hlit⟩
    have hx : 63 - bit < Screen.width := show 63 - bit < 64 by omega
    refine ⟨(63 - bit, y), Screen.mem_framePoints.mpr ⟨hx, row, hrow, ?_⟩, ?_⟩
    · rw [Screen.rowLit_eq_testBit row hx]
      rwa [show Screen.width - 1 - (63 - bit) = bit by simp only [Screen.width]; omega]
    · exact fun honScreen => Nat.not_lt.mpr hy honScreen.2

/-- What a pixel of the canvas is. -/
theorem pixel_canvasOf (frame : List Nat) {x y : Nat} (hx : x < Screen.width)
    (hy : y < Screen.height) :
    (canvasOf frame).image.pixel x y =
      if frame[y]?.any (·.testBit (63 - x)) then white else black := by
  have hinside : ∀ p ∈ Screen.framePoints frame, p.1 < Screen.width := by
    rintro ⟨x, y⟩ hp
    exact (Screen.mem_framePoints.mp hp).1
  have hlit : (x, y) ∈ Screen.framePoints frame ↔ frame[y]?.any (·.testBit (63 - x)) = true := by
    rw [Screen.mem_framePoints, Option.any_eq_true]
    constructor
    · rintro ⟨-, row, hrow, hlit⟩
      exact ⟨row, hrow, (Screen.rowLit_eq_testBit row hx).symm.trans hlit⟩
    · rintro ⟨row, hrow, hlit⟩
      exact ⟨hx, row, hrow, (Screen.rowLit_eq_testBit row hx).trans hlit⟩
  have hblank : (Canvas.blank Screen.width Screen.height black).image.pixel x y = black := by
    simp only [Canvas.image, Canvas.blank, Bank.read, Bank.replicate, Array.getD_eq_getD_getElem?,
      Array.getElem?_replicate]
    split <;> rfl
  rw [canvasOf, Canvas.pixel_painted (Bank.size_replicate _ _) hinside hx hy, hblank]
  simp only [hlit]

/-- A frame of no more rows than the screen has can always be painted. -/
theorem onScreen_of_length_le {frame : List Nat} (h : frame.length ≤ 32) :
    ∀ p ∈ Screen.framePoints frame, Screen.OnScreen p := by
  rintro ⟨x, y⟩ hp
  obtain ⟨hx, row, hrow, -⟩ := Screen.mem_framePoints.mp hp
  exact ⟨hx, Nat.lt_of_lt_of_le (List.getElem?_eq_some_iff.mp hrow).1 h⟩

variable {animation : Animation} {frame : List Nat}

theorem draw_of_onScreen (h : ∀ p ∈ Screen.framePoints frame, Screen.OnScreen p)
    (hscale : 0 < animation.scale) :
    animation.draw frame =
      ({ animation with frames := animation.frames.push (canvasOf frame) }, none) := by
  rw [draw, paintFrame_eq, if_pos h]
  exact if_neg (by omega)

/-- A frame with a lit pixel outside is refused before the size of the pictures is looked at. -/
theorem draw_cases (animation : Animation) (frame : List Nat) :
    ((∃ p ∈ Screen.framePoints frame, ¬ Screen.OnScreen p) ∧
      animation.draw frame = (animation, some .outside)) ∨
    ((∀ p ∈ Screen.framePoints frame, Screen.OnScreen p) ∧ animation.scale ≤ 0 ∧
      animation.draw frame = (animation, some .emptySize)) ∨
    ((∀ p ∈ Screen.framePoints frame, Screen.OnScreen p) ∧ 0 < animation.scale ∧
      animation.draw frame =
        ({ animation with frames := animation.frames.push (canvasOf frame) }, none)) := by
  -- The canvas is painted first, and only then the size of the pictures is looked at.
  by_cases hall : ∀ p ∈ Screen.framePoints frame, Screen.OnScreen p
  · right
    rcases Int.lt_or_le 0 animation.scale with hscale | hscale
    · exact .inr ⟨hall, hscale, draw_of_onScreen hall hscale⟩
    · refine .inl ⟨hall, hscale, ?_⟩
      rw [draw, paintFrame_eq, if_pos hall]
      exact if_pos hscale
  · left
    refine ⟨by simpa using hall, ?_⟩
    rw [draw, paintFrame_eq, if_neg hall]

theorem draw_outside_iff : (animation.draw frame).2 = some .outside ↔
    ∃ y ≥ 32, ∃ row, frame[y]? = some row ∧ ∃ bit < 64, row.testBit bit = true := by
  rw [← exists_outside_iff]
  rcases animation.draw_cases frame with ⟨houtside, hdraw⟩ | ⟨hall, -, hdraw⟩ | ⟨hall, -, hdraw⟩
  · simp only [hdraw, houtside]
  · simpa [hdraw] using hall
  · simpa [hdraw] using hall

theorem draw_emptySize_iff : (animation.draw frame).2 = some .emptySize ↔
    (animation.draw frame).2 ≠ some .outside ∧ animation.scale ≤ 0 := by
  rcases animation.draw_cases frame with ⟨-, hdraw⟩ | ⟨-, hscale, hdraw⟩ | ⟨-, hscale, hdraw⟩
  · simp [hdraw]
  · simp [hdraw, hscale]
  · simpa [hdraw] using hscale

/-- A refused frame leaves the animation as it is. -/
theorem draw_of_error {error : Error} (h : (animation.draw frame).2 = some error) :
    (error = .outside ∨ error = .emptySize) ∧ (animation.draw frame).1 = animation := by
  rcases animation.draw_cases frame with ⟨-, hdraw⟩ | ⟨-, -, hdraw⟩ | ⟨-, -, hdraw⟩
  · rw [hdraw] at h ⊢
    exact ⟨.inl (Option.some.inj h).symm, rfl⟩
  · rw [hdraw] at h ⊢
    exact ⟨.inr (Option.some.inj h).symm, rfl⟩
  · rw [hdraw] at h
    cases h

theorem draw_of_none (h : (animation.draw frame).2 = none) :
    0 < animation.scale ∧
      (animation.draw frame).1 =
        { animation with frames := animation.frames.push (canvasOf frame) } := by
  rcases animation.draw_cases frame with ⟨-, hdraw⟩ | ⟨-, -, hdraw⟩ | ⟨-, hscale, hdraw⟩
  · rw [hdraw] at h
    cases h
  · rw [hdraw] at h
    cases h
  · exact ⟨hscale, by rw [hdraw]⟩

theorem pictures_push (animation : Animation) (canvas : Canvas Nat) :
    { animation with frames := animation.frames.push canvas }.pictures =
      animation.pictures ++ [canvas.image.enlarge animation.scale.toNat] := by
  rw [pictures, Array.toList_push, List.map_append]
  rfl

/-- A screen is always drawn, if pictures are enlarged at all. -/
theorem pictures_draw_screen {screen : Screen} (hsize : screen.rows.size = 32)
    (hscale : 0 < animation.scale) :
    (animation.draw screen.frame).1.pictures =
      animation.pictures ++ [(canvasOf screen.frame).image.enlarge animation.scale.toNat] := by
  have hlength : screen.frame.length ≤ 32 := Nat.le_of_eq (screen.length_frame.trans hsize)
  rw [draw_of_onScreen (onScreen_of_length_le hlength) hscale, pictures_push]

end Animation

/-! ## Pictures

The square of a pixel is found by dividing the coordinates of the picture by the scale. Going back, the
corner of the square is at the coordinates of the pixel times the scale, which is why the scale has to be
positive for a frame to be read off its picture. -/

namespace Image

/-- The picture has the pixels of a frame, each enlarged to a square, in white and black. -/
structure ShowsFrame (picture : Image Nat) (scale : Nat) (frame : List Nat) : Prop where
  width_eq : picture.width = 64 * scale
  height_eq : picture.height = 32 * scale
  pixel_eq : ∀ column < 64 * scale, ∀ row < 32 * scale, picture.pixel column row =
    if frame[row / scale]?.any (·.testBit (63 - column / scale)) then 255 else 0

/-- The row words of a screen as they can be read off its picture, given by its rows of pixels. -/
def readRows (scale : Nat) (rows : List (List Nat)) : List Nat :=
  (List.range 32).map fun y =>
    Screen.rowWord ((List.range 64).map fun x =>
      if rows[y * scale]?.bind (·[x * scale]?) = some 255 then 1 else 0)

theorem getElem?_rows (image : Image Nat) {column row : Nat} (hcolumn : column < image.width)
    (hrow : row < image.height) :
    image.rows[row]?.bind (·[column]?) = some (image.pixel column row) := by
  rw [rows, List.getElem?_map, List.getElem?_range hrow, Option.map_some, Option.bind_some, Image.row,
    List.getElem?_map, List.getElem?_range hcolumn]
  rfl

namespace ShowsFrame

variable {picture : Image Nat} {scale : Nat} {frame : List Nat}

theorem enlarged (scale : Nat) (frame : List Nat) :
    ((Animation.canvasOf frame).image.enlarge scale).ShowsFrame scale frame where
  width_eq := rfl
  height_eq := rfl
  pixel_eq column hcolumn row hrow :=
    Animation.pixel_canvasOf frame (Nat.div_lt_of_lt_mul (by rwa [Nat.mul_comm]))
      (Nat.div_lt_of_lt_mul (by rwa [Nat.mul_comm]))

/-- The picture of a screen agrees with it in every pixel. -/
theorem pixel_eq_screen {screen : Screen} (h : picture.ShowsFrame scale screen.frame)
    (hsize : screen.rows.size = 32) {column row : Nat} (hcolumn : column < 64 * scale)
    (hrow : row < 32 * scale) :
    picture.pixel column row =
      if screen.pixel (column / scale : Nat) (row / scale : Nat) then 255 else 0 := by
  have hx : column / scale < Screen.width := Nat.div_lt_of_lt_mul (by rwa [Nat.mul_comm])
  have hy : row / scale < Screen.height := Nat.div_lt_of_lt_mul (by rwa [Nat.mul_comm])
  rw [h.pixel_eq column hcolumn row hrow, Screen.pixel_natCast screen hx hy,
    Screen.getElem?_frame (by rw [hsize]; exact hy), Option.any_some, Screen.lit,
    Screen.rowLit_eq_testBit _ hx]
  rfl

/-- The rows are found again in the picture. -/
theorem readRows_eq (h : picture.ShowsFrame scale frame) (hscale : 1 ≤ scale)
    (hlength : frame.length = 32) (hrows : ∀ row ∈ frame, row < 2 ^ 64) :
    readRows scale picture.rows = frame := by
  apply List.ext_getElem?
  intro y
  rcases Nat.lt_or_ge y 32 with hy | hy
  · obtain ⟨row, hrow⟩ : ∃ row, frame[y]? = some row :=
      ⟨_, List.getElem?_eq_getElem (by rwa [hlength])⟩
    have hword : row < 2 ^ Screen.width := hrows row (List.mem_of_getElem? hrow)
    rw [readRows, List.getElem?_map, List.getElem?_range hy, hrow, Option.map_some,
      ← Screen.rowWord_rowBits hword, Screen.rowBits_eq]
    congr 2
    apply List.map_congr_left
    intro x hx
    have hx' : x < 64 := List.mem_range.mp hx
    -- The corner of the square that the pixel of the frame was enlarged to.
    have hcolumn : x * scale < 64 * scale := Nat.mul_lt_mul_of_pos_right hx' hscale
    have hline : y * scale < 32 * scale := Nat.mul_lt_mul_of_pos_right hy hscale
    rw [getElem?_rows picture (by rwa [h.width_eq]) (by rwa [h.height_eq]),
      h.pixel_eq _ hcolumn _ hline, Nat.mul_div_cancel _ hscale, Nat.mul_div_cancel _ hscale, hrow,
      Option.any_some, Screen.rowLit_eq_testBit row hx']
    show _ = if row.testBit (63 - x) = true then 1 else 0
    cases row.testBit (63 - x) <;> rfl
  · rw [List.getElem?_eq_none (by simpa [readRows] using hy), List.getElem?_eq_none (by omega)]

end ShowsFrame

end Image

/-- Screens with the same picture are equal. -/
theorem Screen.eq_of_rows_eq {screen screen' : Screen} (h : screen.rows.Fits 32 (2 ^ 64))
    (h' : screen'.rows.Fits 32 (2 ^ 64)) {scale : Nat} (hscale : 1 ≤ scale)
    (hsame : ((Animation.canvasOf screen'.frame).image.enlarge scale).rows =
      ((Animation.canvasOf screen.frame).image.enlarge scale).rows) : screen' = screen := by
  have hread := (Image.ShowsFrame.enlarged scale screen.frame).readRows_eq hscale
    (screen.length_frame.trans h.size_eq) h.lt_of_mem
  have hread' := (Image.ShowsFrame.enlarged scale screen'.frame).readRows_eq hscale
    (screen'.length_frame.trans h'.size_eq) h'.lt_of_mem
  apply ext_frame
  rw [← hread, ← hread', hsame]

/-- A frame of any number of rows, each with any number of bits, is refused if a row below the last one
of the screen has a lit pixel, and otherwise if pictures are not enlarged by a positive factor. A refused
frame leaves the animation as it is. Any other frame adds one picture, with every pixel of the screen
enlarged to a square, white where the frame has a row with that bit and black elsewhere. The picture of a
screen agrees with it at every pixel, and its rows can be read off the picture, so different screens have
different pictures. -/
theorem pictures_show_frames (animation : Animation) (frame : List Nat) :
    let drawn := animation.draw frame
    (drawn.2 = some .outside ↔
      ∃ y ≥ 32, ∃ row, frame[y]? = some row ∧ ∃ bit < 64, row.testBit bit = true) ∧
    (drawn.2 = some .emptySize ↔ drawn.2 ≠ some .outside ∧ animation.scale ≤ 0) ∧
    (∀ error, drawn.2 = some error →
      (error = .outside ∨ error = .emptySize) ∧ drawn.1 = animation) ∧
    (drawn.2 = none → ∃ (scale : Nat) (picture : Image Nat),
      animation.scale = scale ∧ drawn.1.scale = scale ∧
      drawn.1.pictures = animation.pictures ++ [picture] ∧ picture.ShowsFrame scale frame ∧
      (∀ screen : Screen, screen.rows.size = 32 → screen.frame = frame →
        ∀ column < 64 * scale, ∀ row < 32 * scale, picture.pixel column row =
          if screen.pixel (column / scale : Nat) (row / scale : Nat) then 255 else 0) ∧
      (frame.length = 32 → (∀ row ∈ frame, row < 2 ^ 64) →
        Image.readRows scale picture.rows = frame)) ∧
    (∀ screen screen' : Screen, screen.rows.Fits 32 (2 ^ 64) → screen'.rows.Fits 32 (2 ^ 64) →
      0 < animation.scale →
      (animation.draw screen'.frame).1.pictures.map Image.rows =
        (animation.draw screen.frame).1.pictures.map Image.rows → screen' = screen) := by
  intro drawn
  refine ⟨Animation.draw_outside_iff, Animation.draw_emptySize_iff,
    fun error => Animation.draw_of_error, ?_, ?_⟩
  · intro hdrawn
    obtain ⟨hscale, hframes⟩ := Animation.draw_of_none hdrawn
    have hshows := Image.ShowsFrame.enlarged animation.scale.toNat frame
    have hnatural : animation.scale = animation.scale.toNat := by omega
    refine ⟨animation.scale.toNat, _, hnatural, ?_, ?_, hshows, ?_, ?_⟩
    · show (animation.draw frame).1.scale = _
      rw [hframes]
      exact hnatural
    · show (animation.draw frame).1.pictures = _
      rw [hframes, Animation.pictures_push]
    · rintro screen hsize rfl column hcolumn row hrow
      exact hshows.pixel_eq_screen hsize hcolumn hrow
    · intro hlength hrows
      exact hshows.readRows_eq (by omega) hlength hrows
  · -- The last pictures are equal, and with them the rows that are read off.
    intro screen screen' hfits hfits' hscale hsame
    rw [Animation.pictures_draw_screen hfits.size_eq hscale,
      Animation.pictures_draw_screen hfits'.size_eq hscale, List.map_append, List.map_append,
      List.append_cancel_left_eq] at hsame
    exact Screen.eq_of_rows_eq hfits hfits' (by omega) (List.head_eq_of_cons_eq hsame)

/-- A frame of one row, with a bit too many at the left and the rightmost pixel lit. -/
theorem wide_row_is_pictured :
    let animation : Animation := { scale := 3 }
    let drawn := animation.draw [2 ^ 64 + 1]
    drawn.2 = none ∧ ∃ picture, drawn.1.pictures = [picture] ∧
      picture.width = 192 ∧ picture.height = 96 ∧
      picture.pixel 188 2 = 0 ∧ picture.pixel 189 2 = 255 ∧ picture.pixel 189 3 = 0 := by
  intro animation drawn
  obtain ⟨-, -, -, hadded, -⟩ := pictures_show_frames animation [2 ^ 64 + 1]
  have hdrawn : drawn.2 = none := by decide +kernel
  obtain ⟨scale, picture, hscale, -, hpictures, hshows, -⟩ := hadded hdrawn
  obtain rfl : scale = 3 := Int.ofNat.inj hscale.symm
  refine ⟨hdrawn, picture, hpictures, hshows.width_eq, hshows.height_eq, ?_, ?_, ?_⟩
  · exact hshows.pixel_eq 188 (by decide) 2 (by decide)
  · exact hshows.pixel_eq 189 (by decide) 2 (by decide)
  · exact hshows.pixel_eq 189 (by decide) 3 (by decide)

end ChipEight
