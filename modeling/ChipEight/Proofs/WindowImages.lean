import ChipEight.Proofs.Pixels
import ChipEight.Proofs.Windows

/-!
# The image of a window

The image shows the screen enlarged, upside down, since its first row is the bottom one. That holds from
the beginning and is kept whatever happens to the window (`Window.Shown`): only a cycle that has painted
changes the screen, and it hands the new one to the panel.

`Image.buffer` is the image as it lies in memory, with four bytes a pixel. `Window.buffer_shows_screen`
says what is in it at every place, and that `Screen.readBack` finds the screen in it again. Whenever an
image was handed over, it was declared to have as many bytes (`Window.imageSet_after`).
-/

namespace ChipEight

/-! ## Buffers

A byte of the buffer is found by the row of its pixel, by its place in the row and by its place
among the four bytes of a color. Both the rows and the colors are lists of the same length that
follow one another, so one lemma is enough. -/

/-- An entry of rows of the same length that follow one another. -/
theorem getElem?_flatten_of_length {α : Type} {rows : List (List α)} (width : Nat)
    (h : ∀ row ∈ rows, row.length = width) {x : Nat} (hx : x < width) (y : Nat) :
    rows.flatten[y * width + x]? = rows[y]?.bind (·[x]?) := by
  induction rows generalizing y with
  | nil => simp
  | cons first rest ih =>
      have hfirst : first.length = width := h first (by simp)
      rw [List.flatten_cons]
      cases y with
      | zero =>
          rw [Nat.zero_mul, Nat.zero_add, List.getElem?_append_left (by omega)]
          rfl
      | succ y =>
          -- It lies behind the first row, where the others are one row nearer.
          have hbehind : (y + 1) * width + x = first.length + (y * width + x) := by
            rw [Nat.succ_mul, hfirst]
            omega
          rw [hbehind, List.getElem?_append_right (by omega), Nat.add_sub_cancel_left,
            ih (fun row hrow => h row (by simp [hrow]))]
          rfl

theorem length_flatten_of_length {α : Type} {rows : List (List α)} (width : Nat)
    (h : ∀ row ∈ rows, row.length = width) : rows.flatten.length = rows.length * width := by
  rw [List.length_flatten, List.map_eq_replicate_iff.mpr h, List.sum_replicate_nat]

/-- The bytes of a color. -/
def Rgba.bytes (color : Rgba) : List Nat := [color.red, color.green, color.blue, color.alpha]

/-- The image as it lies in memory: row by row, and four bytes a pixel. -/
def Image.buffer (image : Image Rgba) : List Nat := (image.rows.flatten.map Rgba.bytes).flatten

namespace Image

theorem length_of_mem_rows {image : Image Rgba} {row : List Rgba} (h : row ∈ image.rows) :
    row.length = image.width := by
  obtain ⟨y, -, rfl⟩ := List.mem_map.mp h
  simp [Image.row]

theorem length_of_mem_bytes {pixels : List Rgba} {bytes : List Nat}
    (h : bytes ∈ pixels.map Rgba.bytes) : bytes.length = 4 := by
  obtain ⟨color, -, rfl⟩ := List.mem_map.mp h
  rfl

theorem length_buffer (image : Image Rgba) :
    image.buffer.length = 4 * (image.width * image.height) := by
  have hrows : image.rows.length = image.height := by simp [rows]
  rw [buffer, length_flatten_of_length 4 fun _ => length_of_mem_bytes, List.length_map,
    length_flatten_of_length image.width fun _ => length_of_mem_rows, hrows,
    Nat.mul_comm image.height, Nat.mul_comm 4]

/-- The bytes of a pixel in the buffer. -/
theorem getElem?_buffer (image : Image Rgba) {x y k : Nat} (hx : x < image.width)
    (hy : y < image.height) (hk : k < 4) :
    image.buffer[4 * (y * image.width + x) + k]? = (image.pixel x y).bytes[k]? := by
  have hpixel : image.rows.flatten[y * image.width + x]? = some (image.pixel x y) := by
    rw [getElem?_flatten_of_length image.width (fun _ => length_of_mem_rows) hx]
    simp [rows, row, hx, hy]
  rw [buffer, Nat.mul_comm 4, getElem?_flatten_of_length 4 (fun _ => length_of_mem_bytes) hk,
    List.getElem?_map, hpixel]
  rfl

end Image

/-! ## Paintings

A painting is what the panel paints on, one cell for a pixel of the screen. Painting changes the
gray values and keeps the opacity, so it is enough that all cells were opaque in the beginning. -/

namespace Screen

/-- The row words, top row first, as they can be read off the image of a window. The image has its bottom
row first, and one pixel of the square that a pixel was enlarged to is enough. -/
def readBack (scale : Nat) (buffer : List Nat) : List Nat :=
  (List.range height).map fun y =>
    rowWord ((List.range width).map fun x =>
      if buffer[4 * ((height - 1 - y) * scale * (width * scale) + x * scale)]? = some 255 then 1
      else 0)

end Screen

namespace Painting

/-- The color of a pixel of the screen. -/
def color (lit : Bool) : Rgba := Rgba.black.withGray (if lit then 255 else 0)

/-- The painting shows the screen, with the bottom row first. -/
structure Shows (painting : Painting) (screen : Screen) : Prop where
  width_eq : painting.width = Screen.width
  height_eq : painting.height = Screen.height
  size_eq : painting.cells.size = Screen.width * Screen.height
  pixel_eq : ∀ x y, x < Screen.width → y < Screen.height →
    painting.image.pixel x y = color (screen.lit x (Screen.height - 1 - y))

variable {painting : Painting} {screen : Screen}

theorem shows_dark : dark.Shows Screen.blank where
  width_eq := rfl
  height_eq := rfl
  size_eq := Bank.size_replicate _ _
  pixel_eq x y hx hy := by
    have hplace : y * Screen.width + x < Screen.width * Screen.height := by
      simp only [Screen.width, Screen.height] at hx hy ⊢
      omega
    rw [Screen.lit_blank]
    simp [Canvas.image, dark, Canvas.blank, Bank.read, Bank.replicate,
      Array.getD_eq_getD_getElem?, hplace]
    rfl

theorem length_of_mem_reverse_rowBits {frame bits : List Nat}
    (h : bits ∈ (frame.map Screen.rowBits).reverse) : bits.length = Screen.width := by
  obtain ⟨row, -, rfl⟩ := List.mem_map.mp (List.mem_reverse.mp h)
  simp [Screen.rowBits]

/-- The gray value of a place in the painting. -/
theorem getElem?_grays (hrows : screen.rows.size = Screen.height) {x y : Nat}
    (hx : x < Screen.width) (hy : y < Screen.height) :
    (grays screen.frame)[y * Screen.width + x]? =
      some (if screen.lit x (Screen.height - 1 - y) then 255 else 0) := by
  have hlength : (screen.frame.map Screen.rowBits).length = Screen.height := by
    rw [List.length_map, Screen.length_frame, hrows]
  have hrow : screen.frame[Screen.height - 1 - y]? =
      some (screen.rows.read (Screen.height - 1 - y)) :=
    Screen.getElem?_frame (by omega)
  rw [grays, List.getElem?_map,
    getElem?_flatten_of_length Screen.width (fun _ => length_of_mem_reverse_rowBits) hx,
    List.getElem?_reverse (by omega), hlength, List.getElem?_map, hrow, Option.map_some,
    Option.bind_some, Screen.getElem?_rowBits _ hx, Option.map_some, Screen.lit]
  cases Screen.rowLit _ x <;> rfl

theorem length_grays (hrows : screen.rows.size = Screen.height) :
    (grays screen.frame).length = Screen.width * Screen.height := by
  rw [grays, List.length_map,
    length_flatten_of_length Screen.width fun _ => length_of_mem_reverse_rowBits,
    List.length_reverse, List.length_map, Screen.length_frame, hrows]
  exact Nat.mul_comm _ _

/-- Painting the frame of a screen makes the painting show it, whatever it has shown before. -/
theorem Shows.paint {before : Screen} (h : painting.Shows before)
    (hrows : screen.rows.size = Screen.height) : (painting.paint screen.frame).Shows screen where
  width_eq := h.width_eq
  height_eq := h.height_eq
  size_eq := by
    have hcells : painting.cells.toList.length = Screen.width * Screen.height := by
      rw [Bank.length_toList, h.size_eq]
    rw [Painting.paint, Bank.size, List.size_toArray, List.length_zipWith, hcells,
      length_grays hrows, Nat.min_self]
  pixel_eq x y hx hy := by
    -- Only the gray value is new, and the opacity is that of the color which was there.
    have hplace : y * Screen.width + x < painting.cells.size := by
      rw [h.size_eq]
      simp only [Screen.width, Screen.height] at hx hy ⊢
      omega
    have hold : painting.cells.toList[y * Screen.width + x]? =
        some (color (before.lit x (Screen.height - 1 - y))) := by
      rw [← h.pixel_eq x y hx hy, Canvas.image, h.width_eq]
      have hplace' : y * Screen.width + x < painting.cells.cells.size := hplace
      simp [Bank.toList, Bank.read, Array.getD_eq_getD_getElem?, hplace']
    have hnew : (painting.cells.toList.zipWith Rgba.withGray
        (grays screen.frame))[y * Screen.width + x]? =
          some (color (screen.lit x (Screen.height - 1 - y))) := by
      rw [List.getElem?_zipWith, hold, getElem?_grays hrows hx hy]
      rfl
    rw [Canvas.image, Painting.paint, h.width_eq]
    simp [Bank.read, Array.getD_eq_getD_getElem?, hnew]

/-- The painting enlarged is the painting with its places divided by the scale. -/
theorem pixel_upscaled (painting : Painting) (scale x y : Nat) :
    (painting.upscaled scale).width = painting.width * scale ∧
      (painting.upscaled scale).height = painting.height * scale ∧
      (painting.upscaled scale).pixel x y = painting.image.pixel (x / scale) (y / scale) := by
  rw [upscaled]
  split
  · next hone =>
    rw [hone]
    simp [Canvas.image]
  · exact ⟨rfl, rfl, rfl⟩

end Painting

/-! ## Panels

Signals and the closing of the window touch the tone and the events of a panel, but not its
painting. -/

namespace Panel

variable {panel : Panel}

/-- Tones do not matter to the image. -/
theorem stopTone_eq : panel.stopTone =
    { panel with sounding := panel.stopTone.sounding, events := panel.stopTone.events } := by
  rw [stopTone]
  split <;> rfl

theorem shutDown_eq : panel.shutDown =
    { panel with sounding := panel.shutDown.sounding, events := panel.shutDown.events } := by
  rw [shutDown, stopTone_eq]
  rfl

theorem tell_eq (due : Option Signal) : panel.tell due =
    { panel with sounding := (panel.tell due).sounding, events := (panel.tell due).events } := by
  cases due with
  | none => rfl
  | some tone =>
      cases tone with
      | start =>
          rfl
      | stop => exact stopTone_eq

end Panel

/-- A cycle that fails or does not paint leaves the screen as it is. -/
theorem Computer.screen_call_step (host : Host) (computer : Computer) (patience : Nat)
    (h : ((computer.cycle host patience).outcome.goesOn &&
      (computer.cycle host patience).state.redrawn) = false) :
    (computer.call host (.step patience)).state.screen = computer.state.screen := by
  apply screen_of_frame?_none (by simp)
  rw [frame?_step, if_neg (by simp [h])]

/-! ## Windows

`Shown` is kept by each of the four things that can become of a window. All but a cycle that is
presented leave both the screen and the painting as they are. -/

namespace Window

/-- The image of a window shows its screen. -/
structure Shown (scale : Int) (window : Window) : Prop where
  scale_eq : window.console.devices.scale = scale
  shows : window.console.devices.painting.Shows window.console.state.screen
  image_eq : window.image = window.console.devices.painting.upscaled scale.toNat
  wellFormed : window.console.state.WellFormed

variable {setup : Setup} {rom : Rom} {scale : Int} {window : Window}

theorem shown_of_opened (h : Opened setup rom window) : Shown setup.scale window := by
  obtain ⟨interval, -, hdevices⟩ := h.devices_eq
  have hstate : window.console.state = (rom.started window.host).state :=
    congrArg Computer.state h.computer_eq
  refine ⟨by rw [hdevices]; rfl, ?_, by rw [image, hdevices]; rfl, ?_⟩
  · rw [hdevices, hstate, Rom.started_of_le h.fits]
    exact Painting.shows_dark
  · rw [hstate]
    exact (rom.reachable_started window.host).wellFormed

/-- A window whose screen has not changed and whose panel was at most told of tones. -/
theorem Shown.of_same {after : Window} {sounding : Bool} {events : Array Event}
    (h : Shown scale window) (hscreen : after.console.state.screen = window.console.state.screen)
    (hwell : after.console.state.WellFormed)
    (hdevices : after.console.devices =
      { window.console.devices with sounding := sounding, events := events }) :
    Shown scale after := by
  refine ⟨?_, ?_, ?_, hwell⟩
  · rw [hdevices]
    exact h.scale_eq
  · rw [hdevices, hscreen]
    exact h.shows
  · rw [image, hdevices]
    exact h.image_eq

/-- The screen is the same after a cycle of the window that fails or does not paint. -/
theorem screen_cycle (h : (window.cycle.outcome.goesOn && window.cycle.state.redrawn) = false) :
    window.cycle.state.screen = window.console.state.screen :=
  Computer.screen_call_step window.host window.console.computer window.console.usage.patience h

theorem Shown.present {after : Window} (h : Shown scale window)
    (hconsole : after.console = window.presented) : Shown scale after := by
  have hwell : window.cycle.state.WellFormed := h.wellFormed.step window.host window.console.usage
  have hstate : after.console.state = window.cycle.state := congrArg Console.state hconsole
  have hdevices : after.console.devices =
      (wiring.hand window.console.devices window.cycle.state).1.tell
        (Signal.due window.console.playing window.cycle.state.beeping) :=
    congrArg Console.devices hconsole
  rw [Panel.tell_eq] at hdevices
  cases hredrawn : window.cycle.state.redrawn with
  | false =>
      rw [Devices.hand, if_neg (by simp [hredrawn])] at hdevices
      apply h.of_same _ (by rw [hstate]; exact hwell) hdevices
      rw [hstate]
      exact screen_cycle (by rw [hredrawn, Bool.and_false])
  | true =>
      rw [Devices.hand, if_pos hredrawn] at hdevices
      refine ⟨?_, ?_, ?_, by rw [hstate]; exact hwell⟩
      · rw [hdevices]
        exact h.scale_eq
      · rw [hdevices, hstate]
        exact h.shows.paint hwell.rows.size_eq
      · rw [image, hdevices, ← h.scale_eq]
        rfl

theorem Shown.step {happening : Happening} {after : Window} (h : Shown scale window)
    (hstep : Step window happening after) : Shown scale after := by
  cases hstep with
  | idle events no_tick shows console_eq failure_eq closings_eq =>
      apply h.of_same (by rw [console_eq]) (by rw [console_eq]; exact h.wellFormed)
      rw [console_eq]
      rfl
  | closed no_tick console_eq failure_eq closings_eq =>
      apply h.of_same (by rw [console_eq]) (by rw [console_eq]; exact h.wellFormed)
      rw [console_eq]
      exact Panel.shutDown_eq
  | presented awaited goes_on console_eq failure_eq closings_eq => exact h.present console_eq
  | failed awaited traps console_eq failure_eq closings_eq =>
      have hfails : window.cycle.outcome.goesOn = false :=
        Outcome.goesOn_of_stop? (Outcome.stop?_of_trap? (ε := Empty) traps)
      apply h.of_same
      · rw [console_eq]
        exact screen_cycle (by rw [hfails, Bool.false_and])
      · rw [console_eq]
        exact h.wellFormed.step window.host window.console.usage
      · rw [console_eq]
        exact Panel.shutDown_eq

/-- The image shows the screen whatever has happened to the window. -/
theorem shown_after (hopened : Opened setup rom window) (happenings : List Happening) :
    Shown setup.scale (window.after happenings) :=
  after_induction (fun _ _ _ hstep h => h.step hstep) happenings (shown_of_opened hopened)

/-- Only a cycle that is presented hands an image over. -/
theorem Step.imageSet_mem {happening : Happening} {after : Window} {pitch : Int} {size : Nat}
    (hstep : Step window happening after) (h : .imageSet pitch size ∈ after.events.toList) :
    .imageSet pitch size ∈ window.events.toList ∨
      pitch = window.console.devices.width * Rgba.size ∧
        size = (PixelBlock.enlarged window.console.devices.scale).size := by
  have hquiet : .imageSet pitch size ∈ window.console.devices.shutDown.events.toList →
      .imageSet pitch size ∈ window.events.toList := by
    rw [Panel.events_shutDown, Window.events]
    split <;> simp [Panel.ended]
  cases hstep with
  -- Neither showing nor closing hands an image over.
  | idle events no_tick shows console_eq failure_eq closings_eq =>
      rw [Window.events, console_eq] at h
      rcases List.mem_append.mp (Panel.events_act events ▸ h) with hbefore | hshow
      · exact .inl hbefore
      · cases shows _ hshow
  | closed no_tick console_eq failure_eq closings_eq =>
      rw [Window.events, console_eq] at h
      exact .inl (hquiet h)
  | failed awaited traps console_eq failure_eq closings_eq =>
      rw [Window.events, console_eq] at h
      exact .inl (hquiet h)
  | presented awaited goes_on console_eq failure_eq closings_eq =>
      rw [Window.events, console_eq, events_presented, List.mem_append, List.mem_append] at h
      rcases h with hbefore | himage | htone
      · exact .inl hbefore
      · right
        split at himage
        · simpa using himage
        · cases himage
      · have hnone : ∀ due, .imageSet pitch size ∉ window.console.devices.reply due := by
          intro due
          unfold Panel.reply
          split
          · simp [Panel.begun]
          · split <;> simp [Panel.ended]
          · exact List.not_mem_nil
        exact absurd htone (hnone _)

/-- Images that are handed over are of the size of the block that they lie in. -/
theorem imageSet_after (hopened : Opened setup rom window) (happenings : List Happening) {pitch : Int}
    {size : Nat} (h : .imageSet pitch size ∈ (window.after happenings).events.toList) :
    pitch = 4 * (64 * setup.scale) ∧ size = (PixelBlock.enlarged setup.scale).size := by
  refine (after_induction (P := fun window => Shown setup.scale window ∧ ∀ pitch size,
    .imageSet pitch size ∈ window.events.toList →
      pitch = 4 * (64 * setup.scale) ∧ size = (PixelBlock.enlarged setup.scale).size)
    ?_ happenings ⟨shown_of_opened hopened, ?_⟩).2 pitch size h
  · -- That the image shows the screen is carried along, because the scale is known from it.
    rintro window happening after hstep ⟨hshown, hsized⟩
    refine ⟨hshown.step hstep, fun pitch size hmem => ?_⟩
    rcases hstep.imageSet_mem hmem with hbefore | ⟨rfl, rfl⟩
    · exact hsized pitch size hbefore
    · rw [Panel.width, hshown.scale_eq]
      exact ⟨Int.mul_comm _ _, rfl⟩
  · intro pitch size hmem
    obtain ⟨interval, -, hdevices⟩ := hopened.devices_eq
    rw [events, hdevices] at hmem
    simp [Panel.new, openingEvents] at hmem

/-- The color of a place in the image. -/
theorem Shown.pixel_eq {scale : Nat} (h : Shown scale window) {column row : Nat}
    (hcolumn : column < 64 * scale) (hrow : row < 32 * scale) :
    window.image.pixel column row = Painting.color
      (window.console.state.screen.pixel (column / scale : Nat) (31 - (row / scale : Nat))) := by
  have hx : column / scale < Screen.width := Nat.div_lt_of_lt_mul (by rwa [Nat.mul_comm])
  have hy : row / scale < 32 := Nat.div_lt_of_lt_mul (by rwa [Nat.mul_comm])
  rw [h.image_eq, Int.toNat_natCast, (Painting.pixel_upscaled _ scale column row).2.2,
    h.shows.pixel_eq _ _ hx hy]
  generalize row / scale = y at hy
  rw [show (31 : Int) - y = (31 - y : Nat) by omega]
  rw [Screen.pixel_natCast _ hx (show 31 - y < 32 by omega)]
  rfl

theorem Shown.size_eq {scale : Nat} (h : Shown scale window) :
    window.image.width = 64 * scale ∧ window.image.height = 32 * scale := by
  obtain ⟨hwidth, hheight, -⟩ :=
    Painting.pixel_upscaled window.console.devices.painting scale 0 0
  rw [h.image_eq, Int.toNat_natCast, hwidth, hheight, h.shows.width_eq, h.shows.height_eq]
  exact ⟨rfl, rfl⟩

/-- The bytes of a place in the image. -/
theorem Shown.getElem?_buffer {scale : Nat} (h : Shown scale window) {column row k : Nat}
    (hcolumn : column < 64 * scale) (hrow : row < 32 * scale) (hk : k < 4) :
    window.image.buffer[4 * (row * (64 * scale) + column) + k]? =
      (Painting.color (window.console.state.screen.pixel (column / scale : Nat)
        (31 - (row / scale : Nat)))).bytes[k]? := by
  obtain ⟨hwidth, hheight⟩ := h.size_eq
  rw [← h.pixel_eq hcolumn hrow, ← hwidth]
  exact window.image.getElem?_buffer (by rwa [hwidth]) (by rwa [hheight]) hk

/-- The screen is found again in the image. -/
theorem Shown.readBack_eq {scale : Nat} (h : Shown scale window) (hpositive : 1 ≤ scale) :
    Screen.readBack scale window.image.buffer = window.console.state.screen.frame := by
  have hlength : window.console.state.screen.frame.length = Screen.height := by
    rw [Screen.length_frame, h.wellFormed.rows.size_eq]
    rfl
  apply List.ext_getElem?
  intro y
  rcases Nat.lt_or_ge y Screen.height with hy | hy
  · have hrow : window.console.state.screen.frame[y]? =
        some (window.console.state.screen.rows.read y) := by
      apply Screen.getElem?_frame
      rw [h.wellFormed.rows.size_eq]
      exact hy
    rw [Screen.readBack, List.getElem?_map, List.getElem?_range hy, hrow, Option.map_some,
      ← Screen.rowWord_rowBits (h.wellFormed.rows.read_lt (by decide) y), Screen.rowBits_eq]
    congr 2
    apply List.map_congr_left
    intro x hx
    have hx' : x < Screen.width := List.mem_range.mp hx
    -- The corner of the square that the pixel of the screen was enlarged to.
    have hcolumn : x * scale < 64 * scale := Nat.mul_lt_mul_of_pos_right hx' hpositive
    have hrow' : (Screen.height - 1 - y) * scale < 32 * scale :=
      Nat.mul_lt_mul_of_pos_right (show 32 - 1 - y < 32 by omega) hpositive
    have hbyte := h.getElem?_buffer hcolumn hrow' (k := 0) (by decide)
    have hback : (31 : Int) - (Screen.height - 1 - y : Nat) = y := by
      simp only [Screen.height] at hy ⊢
      omega
    rw [Nat.mul_div_cancel _ hpositive, Nat.mul_div_cancel _ hpositive, hback,
      Screen.pixel_natCast _ hx' hy, Screen.lit, Nat.add_zero] at hbyte
    have hgray : window.image.buffer[4 * ((Screen.height - 1 - y) * scale * (Screen.width * scale) +
        x * scale)]? =
          some (if Screen.rowLit (window.console.state.screen.rows.read y) x then 255 else 0) := hbyte
    rw [hgray]
    cases Screen.rowLit (window.console.state.screen.rows.read y) x <;> rfl
  · -- Below the last row there is nothing on either side.
    have hread : (Screen.readBack scale window.image.buffer).length = Screen.height := by
      rw [Screen.readBack, List.length_map, List.length_range]
    rw [List.getElem?_eq_none (by omega), List.getElem?_eq_none (by omega)]

/-- Take a window that has been opened, and anything that happens to it. The image in memory has 64 times
32 pixels enlarged by the scale, with four bytes a pixel. It starts with the bottom row of the screen,
and the bytes of a pixel are white or black, as the pixel of the screen is lit or not, and not
transparent. The screen can be read off the image again, and every image that was handed over was declared
to have that many bytes. -/
theorem buffer_shows_screen {setup : Setup} {rom : Rom} {opened : Window} (scale : Nat)
    (hscale : setup.scale = scale) (hpositive : 1 ≤ scale)
    (hlaunch : (launch setup rom).result = .ok opened) (happenings : List Happening) :
    let window := opened.after happenings
    let screen := window.console.state.screen
    let buffer := window.image.buffer
    window.image.width = 64 * scale ∧ window.image.height = 32 * scale ∧
    buffer.length = 4 * (64 * scale * (32 * scale)) ∧
    (∀ column row, column < 64 * scale → row < 32 * scale →
      let gray := if screen.pixel (column / scale : Nat) (31 - (row / scale : Nat)) then 255 else 0
      let place := 4 * (row * (64 * scale) + column)
      buffer[place]? = some gray ∧ buffer[place + 1]? = some gray ∧
        buffer[place + 2]? = some gray ∧ buffer[place + 3]? = some 255) ∧
    Screen.readBack scale buffer = screen.frame ∧
    (∀ (pitch : Int) (size : Nat), .imageSet pitch size ∈ window.events.toList →
      pitch = 4 * (64 * scale) ∧ size = buffer.length) := by
  intro window screen buffer
  have hshown : Shown scale window := hscale ▸ shown_after (opened_of_launch hlaunch) happenings
  obtain ⟨hwidth, hheight⟩ := hshown.size_eq
  have hlength : buffer.length = 4 * (64 * scale * (32 * scale)) := by
    rw [Image.length_buffer, hwidth, hheight]
  refine ⟨hwidth, hheight, hlength, ?_, hshown.readBack_eq hpositive, ?_⟩
  · intro column row hcolumn hrow gray place
    exact ⟨hshown.getElem?_buffer hcolumn hrow (k := 0) (by decide),
      hshown.getElem?_buffer hcolumn hrow (by decide),
      hshown.getElem?_buffer hcolumn hrow (by decide),
      hshown.getElem?_buffer hcolumn hrow (by decide)⟩
  · intro pitch size hmem
    have hopened := opened_of_launch hlaunch
    obtain ⟨block, hblock⟩ := hopened.reserved
    have hsized := imageSet_after hopened happenings hmem
    rw [hscale] at hblock hsized
    rwa [PixelBlock.size_enlarged hpositive hblock, ← hlength] at hsized

/-- A digit in the upper left corner of a window of twice the size of the screen. The image ends with the
topmost row. -/
theorem buffer_shows_digit :
    let rom : Rom := [0xD0, 0x05, 0x12, 0x02]
    let opened := furnished { scale := 2 } rom standardInterval
    let window := opened.after [.tick, .redraw]
    (launch { scale := 2 } rom).result = .ok opened ∧
      window.image.buffer.length = 32768 ∧
      window.image.buffer[4 * (63 * 128 + 1)]? = some 255 ∧
      Screen.readBack 2 window.image.buffer =
        [0xF0, 0x90, 0x90, 0x90, 0xF0].map (· <<< 56) ++ List.replicate 27 0 := by
  intro rom opened window
  have hlaunch : (launch { scale := 2 } rom).result = .ok opened :=
    launch_at_scale 2 (by decide) (by decide) (by decide)
  obtain ⟨-, -, hlength, hbytes, hread, -⟩ :=
    buffer_shows_screen 2 rfl (by decide) hlaunch [.tick, .redraw]
  obtain ⟨hcorner, -⟩ := hbytes 1 63 (by decide) (by decide)
  refine ⟨hlaunch, hlength, hcorner.trans ?_, hread.trans ?_⟩
  · decide +kernel
  · decide +kernel

end Window

end ChipEight
