import ChipEight.Proofs.Bounds
import ChipEight.Proofs.Decoding
import ChipEight.Proofs.Execution

/-!
# Every cell in its range

`state.InRange` collects the sizes and bounds of all parts of a computer: bytes, 12-bit addresses,
64-bit rows, at most 16 open calls. Each operation on a state keeps it, hence so does each
instruction with operands in range (`InRange.execute`).
-/

namespace ChipEight

/-! ## Addresses

Addresses go round at the top of memory, so whatever is computed from one is below 4096 again. -/

namespace Memory

theorem wrap_lt (address : Nat) : wrap address < 4096 := Nat.mod_lt _ (by decide)

theorem next_lt (address : Nat) : next address < 4096 := wrap_lt _

theorem previous_lt (address : Nat) : previous address < 4096 := wrap_lt _

/-- Going forth and back by an instruction. -/
theorem previous_next {address : Nat} (h : address < 4096) : previous (next address) = address := by
  simp only [previous, next, wrap, capacity]
  omega

theorem lt_of_mem_window {start count a : Nat} (h : a ∈ window start count) : a < 4096 := by
  obtain ⟨j, -, rfl⟩ := List.mem_map.mp h
  exact wrap_lt _

@[simp] theorem length_window (start count : Nat) : (window start count).length = count := by
  simp [window]

@[simp] theorem length_bytes (memory : Memory) (start count : Nat) :
    (bytes memory start count).length = count := by
  simp [bytes]

end Memory

/-! ## Rows of the screen

Rows are words of 64 bits. Flipping a pixel takes the exclusive or with a single bit of such a word. -/

namespace Screen

theorem column_lt (x : Nat) : column x < 2 ^ 64 :=
  Nat.lt_of_le_of_lt (Nat.shiftRight_le leftmost x) (by decide)

theorem blank_fits : blank.rows.Fits 32 (2 ^ 64) := .replicate (by decide)

theorem flip_fits {screen : Screen} (h : screen.rows.Fits 32 (2 ^ 64)) (x y : Nat) :
    (screen.flip x y).rows.Fits 32 (2 ^ 64) :=
  h.write y (Nat.xor_lt_two_pow (h.read_lt (by decide) y) (column_lt x))

theorem foldl_flip_fits (points : List (Nat × Nat)) {drawing : Drawing}
    (h : drawing.screen.rows.Fits 32 (2 ^ 64)) :
    (points.foldl Drawing.flip drawing).screen.rows.Fits 32 (2 ^ 64) := by
  induction points generalizing drawing with
  | nil => exact h
  | cons p ps ih => exact ih (flip_fits h p.1 p.2)

end Screen

/-! ## Keys

There are sixteen keys, and a report says of each of them whether it is down. -/

namespace Keypad

theorem key_lt (number : Int) : key number < 16 := by
  unfold key size
  omega

theorem size_press (keypad : Keypad) (number : Int) :
    (keypad.press number).down.size = keypad.down.size := Bank.size_write _ _ _

theorem size_release (keypad : Keypad) (number : Int) :
    (keypad.release number).down.size = keypad.down.size := Bank.size_write _ _ _

theorem size_foldl_press (numbers : List Int) (keypad : Keypad) :
    (numbers.foldl press keypad).down.size = keypad.down.size := by
  induction numbers generalizing keypad with
  | nil => rfl
  | cons n ns ih => rw [List.foldl_cons, ih, size_press]

theorem size_ofReport (numbers : List Int) : (ofReport numbers).down.size = 16 := by
  rw [ofReport, size_foldl_press]
  exact Bank.size_replicate _ _

theorem lowest_lt {keypad : Keypad} {k : Nat} (h : keypad.lowest = some k) : k < 16 :=
  List.mem_range.mp (List.mem_of_find?_eq_some h)

end Keypad

namespace Host

variable (host : Host) {keys : Keypad}

theorem size_refresh (h : keys.down.size = 16) (usage : Usage) :
    (host.refresh keys usage).1.down.size = 16 := by
  unfold refresh
  split
  · exact Keypad.size_ofReport _
  · exact h

theorem size_of_refresh_eq (h : keys.down.size = 16) {usage after : Usage} {seen : Keypad}
    (hrefresh : host.refresh keys usage = (seen, after)) : seen.down.size = 16 := by
  have hsize := host.size_refresh h usage
  rwa [hrefresh] at hsize

/-- A watch leaves sixteen keys, and the key it ends with is one of them. -/
theorem watchKeys_inRange (deadline : Option Quantity) (patience : Nat)
    (h : keys.down.size = 16) (usage : Usage) :
    (host.watchKeys deadline patience keys usage).keys.down.size = 16 ∧
      ∀ key, (host.watchKeys deadline patience keys usage).wait = .pressed key → key < 16 := by
  -- One case for each way in which a look at the keyboard ends: with a key, without time, without
  -- patience, or with another look.
  fun_induction host.watchKeys deadline patience keys usage with
  | case1 patience keys usage seen after hrefresh key hlowest =>
      have hseen := host.size_of_refresh_eq h hrefresh
      refine ⟨hseen, ?_⟩
      intro k hk
      cases hk
      exact Keypad.lowest_lt hlowest
  | case2 patience keys usage seen after hrefresh hlowest hover =>
      have hseen := host.size_of_refresh_eq h hrefresh
      exact ⟨hseen, by intro k hk; cases hk⟩
  | case3 keys usage seen after hrefresh hlowest hover =>
      have hseen := host.size_of_refresh_eq h hrefresh
      exact ⟨hseen, by intro k hk; cases hk⟩
  | case4 keys usage seen after hrefresh hlowest hover patience ih =>
      have hseen := host.size_of_refresh_eq h hrefresh
      exact ih hseen

/-- A wait leaves sixteen keys, and the key it ends with is one of them. -/
theorem awaitKey_inRange (h : keys.down.size = 16) (usage : Usage) :
    (host.awaitKey keys usage).keys.down.size = 16 ∧
      ∀ key, (host.awaitKey keys usage).wait = .pressed key → key < 16 := by
  unfold awaitKey
  split
  · exact watchKeys_inRange host _ _ h usage
  · exact ⟨h, by intro k hk; cases hk⟩

end Host

namespace State

/-- All parts of the computer have their sizes, and all numbers in it are in their ranges. -/
structure InRange (state : State) : Prop where
  memory : state.memory.Fits 4096 256
  registers : state.registers.Fits 16 256
  index_lt : state.index < 4096
  pc_lt : state.pc < 4096
  stack : state.stack.Fits 16 4096
  depth_le : state.depth ≤ 16
  keys_size : state.keys.down.size = 16
  delay_lt : state.delay < 256
  sound_lt : state.sound < 256
  rows : state.screen.rows.Fits 32 (2 ^ 64)

namespace InRange

variable {state : State}

theorem register_lt (h : state.InRange) (i : Nat) : state.register i < 256 :=
  h.registers.read_lt (by decide) i

theorem memory_lt (h : state.InRange) (a : Nat) : state.memory.read a < 256 :=
  h.memory.read_lt (by decide) a

/-! ### Operations

Each operation replaces some parts of the state, and only for those there is something to prove. -/

theorem setRegister (h : state.InRange) (x : Nat) {value : Nat} (hv : value < 256) :
    (state.setRegister x value).InRange :=
  { h with registers := h.registers.write x hv }

theorem setFlag (h : state.InRange) (flag : Bool) : (state.setFlag flag).InRange := by
  refine h.setRegister _ ?_
  split <;> decide

theorem setPc (h : state.InRange) {pc : Nat} (hpc : pc < 4096) : { state with pc := pc }.InRange :=
  { h with pc_lt := hpc }

theorem setKeypad (h : state.InRange) {keys : Keypad} (hkeys : keys.down.size = 16) :
    { state with keys := keys }.InRange :=
  { h with keys_size := hkeys }

theorem skipIf (h : state.InRange) (condition : Bool) : (state.skipIf condition).InRange := by
  unfold State.skipIf
  split
  · exact h.setPc (Memory.next_lt _)
  · exact h

theorem add (h : state.InRange) (x y : Nat) : (state.add x y).InRange :=
  (h.setRegister x (Nat.and_lt_two_pow _ (n := 8) (by decide))).setFlag _

theorem subtract (h : state.InRange) (x minuend subtrahend : Nat) :
    (state.subtract x minuend subtrahend).InRange :=
  (h.setRegister x (Nat.and_lt_two_pow _ (n := 8) (by decide))).setFlag _

theorem shiftRight (h : state.InRange) (x : Nat) : (state.shiftRight x).InRange :=
  (h.setRegister x (Nat.lt_of_le_of_lt (Nat.shiftRight_le _ 1) (h.register_lt x))).setFlag _

theorem shiftLeft (h : state.InRange) (x : Nat) : (state.shiftLeft x).InRange :=
  (h.setRegister x (Nat.and_lt_two_pow _ (n := 8) (by decide))).setFlag _

theorem addToIndex (h : state.InRange) (dialect : Dialect) (x : Nat) :
    (state.addToIndex dialect x).InRange := by
  have hmoved : { state with index := Memory.wrap (state.index + state.register x) }.InRange :=
    { h with index_lt := Memory.wrap_lt _ }
  unfold State.addToIndex
  dsimp only
  split
  · exact hmoved.setFlag _
  · exact hmoved

theorem passBytes (h : state.InRange) (dialect : Dialect) (count : Nat) :
    (state.passBytes dialect count).InRange := by
  unfold State.passBytes
  split
  · exact { h with index_lt := Memory.wrap_lt _ }
  · exact h

theorem writeMemory (h : state.InRange) {writes : List (Nat × Nat)}
    (hw : ∀ w ∈ writes, w.2 < 256) : (state.writeMemory writes).InRange :=
  { h with memory := h.memory.writeAll hw }

theorem digitWrites_lt (h : state.InRange) (x : Nat) : ∀ w ∈ state.digitWrites x, w.2 < 256 := by
  intro w hw
  -- The digit at the front is the number of hundreds, and a byte has no more than two of them.
  have hvalue := h.register_lt x
  have hdigit := (List.of_mem_zip (a := w.1) (b := w.2) hw).2
  simp only [List.mem_cons, List.not_mem_nil, or_false] at hdigit
  omega

theorem storeWrites_lt (h : state.InRange) (x : Nat) : ∀ w ∈ state.storeWrites x, w.2 < 256 := by
  intro w hw
  obtain ⟨i, -, hi⟩ := List.mem_map.mp (List.of_mem_zip (a := w.1) (b := w.2) hw).2
  rw [← hi]
  exact h.register_lt i

theorem loadWrites_lt (h : state.InRange) (x : Nat) : ∀ w ∈ state.loadWrites x, w.2 < 256 := by
  intro w hw
  obtain ⟨a, -, ha⟩ := List.mem_map.mp (List.of_mem_zip (a := w.1) (b := w.2) hw).2
  rw [← ha]
  exact h.memory_lt a

theorem clearScreen (h : state.InRange) : state.clearScreen.InRange :=
  { h with rows := Screen.blank_fits }

theorem drawSprite (h : state.InRange) (x y rows : Nat) : (state.drawSprite x y rows).InRange := by
  refine setFlag ?_ _
  exact { h with rows := Screen.foldl_flip_fits _ h.rows }

theorem tick (h : state.InRange) : state.tick.InRange :=
  { h with
    delay_lt := Nat.lt_of_le_of_lt (Nat.sub_le _ 1) h.delay_lt
    sound_lt := Nat.lt_of_le_of_lt (Nat.sub_le _ 1) h.sound_lt }

theorem fetched (h : state.InRange) (host : Host) (usage : Usage) :
    (state.fetched host usage).InRange :=
  { h with
    keys_size := Host.size_refresh host h.keys_size usage
    pc_lt := Memory.next_lt _ }

/-! ### Instructions

Operands in range are all that is needed of an instruction: whatever it computes is cut to eight
bits, or taken from a part of the state that is in range itself. -/

/-- An instruction with operands in range keeps everything in range, carried out or not. -/
theorem execute (h : state.InRange) {instruction : Instruction} (hi : instruction.InRange)
    (host : Host) (word : Nat) (usage : Usage) :
    (execute host word instruction state usage).state.InRange := by
  have hr := h.register_lt
  cases instruction with
  | clear => exact h.clearScreen
  | ret =>
      unfold ChipEight.execute
      dsimp only
      split
      · exact h
      · -- What is taken from the stack is an address, also where it is left over from an earlier call.
        exact { h with
          depth_le := Nat.le_trans (Nat.sub_le _ 1) h.depth_le
          pc_lt := h.stack.read_lt (by decide) _ }
  | jump address => exact h.setPc hi
  | call address =>
      unfold ChipEight.execute
      dsimp only
      split
      · exact h
      · next hroom =>
        exact { h with
          stack := h.stack.write _ h.pc_lt
          depth_le := Nat.lt_of_not_le hroom
          pc_lt := hi }
  | skipIfByte x byte => exact h.skipIf _
  | skipUnlessByte x byte => exact h.skipIf _
  | skipIfSame x y => exact h.skipIf _
  | setByte x byte => exact h.setRegister x hi.2
  | addByte x byte => exact h.setRegister x (Nat.and_lt_two_pow _ (n := 8) (by decide))
  | copy x y => exact h.setRegister x (hr y)
  | or x y => exact h.setRegister x (Nat.or_lt_two_pow (n := 8) (hr x) (hr y))
  | and x y => exact h.setRegister x (Nat.lt_of_le_of_lt Nat.and_le_left (hr x))
  | xor x y => exact h.setRegister x (Nat.xor_lt_two_pow (n := 8) (hr x) (hr y))
  | add x y => exact h.add x y
  | sub x y => exact h.subtract x _ _
  | shiftRight x => exact h.shiftRight x
  | subFrom x y => exact h.subtract x _ _
  | shiftLeft x => exact h.shiftLeft x
  | skipUnlessSame x y => exact h.skipIf _
  | setIndex address => exact { h with index_lt := hi }
  | jumpOffset address => exact h.setPc (Memory.wrap_lt _)
  | random x byte => exact h.setRegister x (Nat.lt_of_le_of_lt Nat.and_le_right hi.2)
  | draw x y rows => exact h.drawSprite x y rows
  | skipIfDown x => exact h.skipIf _
  | skipUnlessDown x => exact h.skipIf _
  | readDelay x => exact h.setRegister x h.delay_lt
  | awaitKey x =>
      -- A wait that has a key puts it into a register. Otherwise it goes back to its own address,
      -- or stays behind it when it is given up.
      obtain ⟨hkeys, hkey⟩ := Host.awaitKey_inRange host h.keys_size usage
      have hseen := h.setKeypad hkeys
      unfold ChipEight.execute
      dsimp only
      split
      · next key hpressed =>
        exact hseen.setRegister x (Nat.lt_trans (hkey key hpressed) (by decide))
      · exact hseen.setPc (Memory.previous_lt _)
      · exact hseen
  | setDelay x => exact { h with delay_lt := hr x }
  | setSound x => exact { h with sound_lt := hr x }
  | addToIndex x => exact h.addToIndex host.dialect x
  | glyph x =>
      have hdigit : state.register x &&& 0xF < 16 := Nat.and_lt_two_pow _ (n := 4) (by decide)
      have haddress : Font.address (state.register x) < 4096 := by
        simp only [Font.address, Font.start, Font.glyphSize]
        omega
      exact { h with index_lt := haddress }
  | digits x => exact h.writeMemory (h.digitWrites_lt x)
  | store x => exact (h.writeMemory (h.storeWrites_lt x)).passBytes host.dialect (x + 1)
  | load x =>
      refine InRange.passBytes ?_ host.dialect (x + 1)
      exact { h with registers := h.registers.writeAll (h.loadWrites_lt x) }

/-- A cycle keeps everything in range, however it ends. -/
theorem step (h : state.InRange) (host : Host) (usage : Usage) :
    (state.step host usage).state.InRange := by
  cases hhalt : state.halt with
  | some cause =>
      rw [State.step, stepWith_of_halted hhalt]
      exact h
  | none =>
      have hfetched := h.fetched host usage
      cases step_ends hhalt host usage with
      | completed instruction decoded carried state_eq =>
          rw [state_eq]
          exact (hfetched.execute (Instruction.decode_inRange decoded) _ _ _).tick
      | stalled x decoded result result_eq expired state_eq =>
          have hkeys := (host.awaitKey_inRange hfetched.keys_size (state.fetchUsage host usage)).1
          rw [state_eq, ← result_eq]
          exact (hfetched.setKeypad hkeys).setPc (Memory.previous_lt _)
      | abandoned x decoded result result_eq error given_up state_eq =>
          have hkeys := (host.awaitKey_inRange hfetched.keys_size (state.fetchUsage host usage)).1
          rw [state_eq, ← result_eq]
          exact hfetched.setKeypad hkeys
      | trapped trap traps state_eq =>
          -- `pc` is the one from before the fetch again.
          rw [state_eq]
          exact { hfetched with pc_lt := h.pc_lt }

/-! ### Programs and keys -/

theorem install (h : state.InRange) (rom : Rom) : (state.install rom).value.InRange := by
  refine { h with memory := h.memory.writeAll ?_ }
  intro w hw
  obtain ⟨⟨byte, j⟩, -, rfl⟩ := List.mem_map.mp hw
  exact byte.toNat_lt

theorem powerOn (program : Option Rom) : (State.powerOn program).InRange where
  memory := by
    refine Bank.Fits.writeAll (.replicate (by decide)) ?_
    decide +kernel
  registers := .replicate (by decide)
  index_lt := (by decide : 0 < 4096)
  pc_lt := (by decide : Memory.programStart < 4096)
  stack := .replicate (by decide)
  depth_le := Nat.zero_le 16
  keys_size := Bank.size_replicate _ _
  delay_lt := (by decide : 0 < 256)
  sound_lt := (by decide : 0 < 256)
  rows := Screen.blank_fits

end InRange

end State

end ChipEight
