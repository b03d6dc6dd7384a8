import ChipEight.Proofs.Pixels

/-!
# A strict computer

A read outside a bank gives a default value and a write outside it is lost. The strict computer of
this file does the same work with banks that refuse such accesses, and that refuse numbers too large
for their cells: 8 bits for memory and registers, 12 for return addresses, 64 for rows of the screen.
Where an address or a number is not cut to its range first, it is not cut here either. Apart from
that, each function does what the one of its name does outside `Strict`.

`Strict.step` is a cycle of the strict computer. `Strict.step_eq` says that from a state in range it
refuses nothing and does what `State.step` does.
-/

namespace ChipEight

/-- Why a strict bank refuses an access. -/
inductive Fault
  /-- There is no cell of that number. -/
  | noCell
  /-- The number does not fit the cell. -/
  | tooLarge
  deriving DecidableEq

namespace Strict

/-! ## Banks

Both kinds of access ask for a cell that exists, and a write for a number that fits it. Nothing else
makes a strict computer different. -/

def read {α : Type} [Inhabited α] (bank : Bank α) (i : Nat) : Except Fault α :=
  if i < bank.size then .ok (bank.read i) else .error .noCell

def put {α : Type} (bank : Bank α) (i : Nat) (value : α) : Except Fault (Bank α) :=
  if i < bank.size then .ok (bank.write i value) else .error .noCell

/-- Writes a number to a cell that holds numbers below a limit. -/
def write (limit : Nat) (bank : Bank Nat) (i value : Nat) : Except Fault (Bank Nat) :=
  if value < limit then put bank i value else .error .tooLarge

def writeAll (limit : Nat) (bank : Bank Nat) (writes : List (Nat × Nat)) :
    Except Fault (Bank Nat) :=
  writes.foldlM (fun b w => write limit b w.1 w.2) bank

/-! ## Keys -/

def press (keypad : Keypad) (number : Int) : Except Fault Keypad := do
  return ⟨← put keypad.down (Keypad.key number) true⟩

def ofReport (numbers : List Int) : Except Fault Keypad := numbers.foldlM press Keypad.released

def isDown (keypad : Keypad) (k : Nat) : Except Fault Bool := read keypad.down k

def lowest (keypad : Keypad) : Except Fault (Option Nat) :=
  (List.range Keypad.size).findM? (isDown keypad)

def refresh (host : Host) (keys : Keypad) (usage : Usage) : Except Fault (Keypad × Usage) :=
  match host.reports with
  | some report => do
    let seen ← ofReport (report usage.polls)
    return (seen, { usage with polls := usage.polls + 1 })
  | none => return (keys, usage)

def watchKeys (host : Host) (deadline : Option Quantity) :
    (patience : Nat) → Keypad → Usage → Except Fault Wait.Result
  | patience, keys, usage => do
    let (keys, usage) ← refresh host keys usage
    match ← lowest keys with
    | some key => return ⟨.pressed key, keys, { usage with patience := patience }⟩
    | none =>
      if deadline.any (·.isOver usage.clock) then
        return ⟨.expired, keys, { usage with patience := patience }⟩
      else
        match patience with
        | 0 => return ⟨.abandoned .sleepless, keys, { usage with patience := 0 }⟩
        | patience + 1 =>
          watchKeys host deadline patience keys
            { usage with clock := usage.clock + host.pollInterval }

def awaitKey (host : Host) (keys : Keypad) (usage : Usage) : Except Fault Wait.Result :=
  match host.deadline usage.clock with
  | .ok deadline => watchKeys host deadline usage.patience keys usage
  | .error error => return ⟨.abandoned error, keys, usage⟩

/-! ## Registers and memory -/

def register (state : State) (x : Nat) : Except Fault Nat := read state.registers x

def setRegister (state : State) (x value : Nat) : Except Fault State := do
  return { state with registers := ← write 256 state.registers x value }

def setFlag (state : State) (flag : Bool) : Except Fault State :=
  setRegister state State.flagRegister (if flag then 1 else 0)

/-- Sets a register and then the flag register. -/
def setWithFlag (state : State) (x value : Nat) (flag : Bool) : Except Fault State := do
  setFlag (← setRegister state x value) flag

def word (memory : Memory) (address : Nat) : Except Fault Nat := do
  return (← read memory address) <<< 8 ||| (← read memory (Memory.wrap (address + 1)))

def bytes (memory : Memory) (start count : Nat) : Except Fault (List Nat) :=
  (Memory.window start count).mapM (read memory)

def writeMemory (state : State) (writes : List (Nat × Nat)) : Except Fault State := do
  return { state with memory := ← writeAll 256 state.memory writes }

/-! ## The screen -/

def flip (drawing : Drawing) (point : Nat × Nat) : Except Fault Drawing := do
  let before ← read drawing.screen.rows point.2
  let rows ← write (2 ^ 64) drawing.screen.rows point.2 (before ^^^ Screen.column point.1)
  let after ← read rows point.2
  return {
    screen := ⟨rows⟩
    changes := drawing.changes ++ [⟨point.1, point.2, Screen.rowLit after point.1⟩]
    collision := drawing.collision || Screen.rowLit before point.1 }

def draw (screen : Screen) (points : List (Nat × Nat)) : Except Fault Drawing :=
  points.foldlM flip ⟨screen, [], false⟩

/-! ## Instructions

The instructions are written out again with the accesses above, each in the order in which it makes
them. They are not cut to the ranges of the parts they go to, where the instruction itself does not
cut them. -/

def execute (host : Host) (word : Nat) (instruction : Instruction) (state : State)
    (usage : Usage) : Except Fault Cycle :=
  let done (after : State) : Cycle := .done after usage
  match instruction with
  | .clear => return done state.clearScreen
  | .ret =>
    if state.depth = 0 then
      return .failed (.stackUnderflow word (Memory.previous state.pc)) state usage
    else do
      let target ← read state.stack (state.depth - 1)
      return (done { state with depth := state.depth - 1, pc := target }).note (.returned target)
  | .jump address => return done { state with pc := address }
  | .call address =>
    if state.depth ≥ State.stackCapacity then
      return .failed (.stackOverflow word (Memory.previous state.pc)) state usage
    else do
      let stack ← write 4096 state.stack state.depth state.pc
      return (done
        { state with stack := stack, depth := state.depth + 1, pc := address }).note
          (.called address)
  | .skipIfByte x byte => do return done (state.skipIf ((← register state x) == byte))
  | .skipUnlessByte x byte => do return done (state.skipIf ((← register state x) != byte))
  | .skipIfSame x y => do
    return done (state.skipIf ((← register state x) == (← register state y)))
  | .setByte x byte => do return done (← setRegister state x byte)
  | .addByte x byte => do
    return done (← setRegister state x (((← register state x) + byte) &&& 0xFF))
  | .copy x y => do return done (← setRegister state x (← register state y))
  | .or x y => do
    return done (← setRegister state x ((← register state x) ||| (← register state y)))
  | .and x y => do
    return done (← setRegister state x ((← register state x) &&& (← register state y)))
  | .xor x y => do
    return done (← setRegister state x ((← register state x) ^^^ (← register state y)))
  | .add x y => do
    let total := (← register state x) + (← register state y)
    return done (← setWithFlag state x (total &&& 0xFF) (total > 0xFF))
  | .sub x y => do
    let a ← register state x
    let b ← register state y
    return done (← setWithFlag state x ((a + 256 - b) &&& 0xFF) (a > b))
  | .shiftRight x => do
    let a ← register state x
    return done (← setWithFlag state x (a >>> 1) (a &&& 1 == 1))
  | .subFrom x y => do
    let a ← register state x
    let b ← register state y
    return done (← setWithFlag state x ((b + 256 - a) &&& 0xFF) (b > a))
  | .shiftLeft x => do
    let a ← register state x
    return done (← setWithFlag state x ((a <<< 1) &&& 0xFF) ((a >>> 7) &&& 1 == 1))
  | .skipUnlessSame x y => do
    return done (state.skipIf ((← register state x) != (← register state y)))
  | .setIndex address => return done { state with index := address }
  | .jumpOffset address => do
    return done { state with pc := Memory.wrap (address + (← register state 0)) }
  | .random x byte => do
    let after ← setRegister state x (host.random usage.drawn &&& byte)
    return .done after { usage with drawn := usage.drawn + 1 }
  | .draw x y rows => do
    let px ← register state x
    let py ← register state y
    let drawing ← draw state.screen (Sprite.points px py (← bytes state.memory state.index rows))
    let after ← setFlag
      { state with screen := drawing.screen, redrawn := true, changes := drawing.changes }
      drawing.collision
    return (done after).note (.drew rows px py drawing.collision)
  | .skipIfDown x => do
    return done (state.skipIf (← isDown state.keys ((← register state x) &&& 0xF)))
  | .skipUnlessDown x => do
    return done (state.skipIf (!(← isDown state.keys ((← register state x) &&& 0xF))))
  | .readDelay x => do return done (← setRegister state x state.delay)
  | .awaitKey x => do
    let result ← awaitKey host state.keys usage
    let seen := { state with keys := result.keys }
    match result.wait with
    | .pressed key =>
      let after ← setRegister seen x key
      return (Cycle.done after result.usage).note (.gotKey key)
    | .expired =>
      return ⟨{ seen with pc := Memory.previous seen.pc }, result.usage, .stalled, []⟩
    | .abandoned error => return ⟨seen, result.usage, .abandoned error, []⟩
  | .setDelay x => do return done { state with delay := ← register state x }
  | .setSound x => do return done { state with sound := ← register state x }
  | .addToIndex x => do
    let total := state.index + (← register state x)
    let moved := { state with index := Memory.wrap total }
    if host.dialect.indexOverflowFlag then return done (← setFlag moved (total > 0xFFF))
    else return done moved
  | .glyph x => do return done { state with index := Font.address (← register state x) }
  | .digits x => do
    let value ← register state x
    return done (← writeMemory state
      [ (state.index, value / 100),
        (Memory.wrap (state.index + 1), value / 10 % 10),
        (Memory.wrap (state.index + 2), value % 10) ])
  | .store x => do
    let values ← (List.range (x + 1)).mapM (register state)
    let after ← writeMemory state ((Memory.window state.index (x + 1)).zip values)
    return done (after.passBytes host.dialect (x + 1))
  | .load x => do
    let values ← bytes state.memory state.index (x + 1)
    let registers ← writeAll 256 state.registers ((List.range (x + 1)).zip values)
    return done ({ state with registers := registers }.passBytes host.dialect (x + 1))

def step (host : Host) (state : State) (usage : Usage) : Except Fault Cycle :=
  match state.halt with
  | some cause => return ⟨state, usage, .refused cause, []⟩
  | none => do
    let (keys, usage) ← refresh host state.keys usage
    let start := state.beginCycle keys
    let word ← word start.memory start.pc
    let fetched := { start with pc := Memory.next start.pc }
    let cycle ←
      match Encoding.decode Instruction.table word with
      | some instruction => execute host word instruction fetched usage
      | none => pure (.failed (.unimplemented word start.pc) fetched usage)
    return State.finish start.pc
      { cycle with notices := .fetched start.pc word :: cycle.notices }

/-! ## Loops that refuse nothing

Where a strict loop and an ordinary one run over the same list, they do the same as long as no round
is refused. What makes a round safe may depend on the rounds before it, as a write is safe because
the bank has kept its size, so the loops carry an invariant `P`. -/

section Loops

variable {α β ε : Type}

theorem ok_bind (a : α) (f : α → Except ε β) : ((Except.ok a : Except ε α) >>= f) = f a := rfl

theorem pure_eq_ok (a : α) : (pure a : Except ε α) = .ok a := rfl

/-- A loop refuses nothing if no round does in a state that the rounds before it can lead to. -/
theorem foldlM_eq_ok {f : β → α → Except ε β} {g : β → α → β} {P : β → Prop} {l : List α}
    (hround : ∀ b, P b → ∀ a ∈ l, f b a = .ok (g b a) ∧ P (g b a)) {b : β} (hb : P b) :
    l.foldlM f b = .ok (l.foldl g b) := by
  induction l generalizing b with
  | nil => rfl
  | cons a rest ih =>
      -- The first round keeps `P`, and the others start from where it ends.
      obtain ⟨hfirst, hnext⟩ := hround b hb a (by simp)
      rw [List.foldlM_cons, hfirst, ok_bind, List.foldl_cons]
      exact ih (fun b hb a ha => hround b hb a (by simp [ha])) hnext

theorem mapM_eq_ok {f : α → Except ε β} {g : α → β} {l : List α}
    (h : ∀ a ∈ l, f a = .ok (g a)) : l.mapM f = .ok (l.map g) := by
  induction l with
  | nil => rfl
  | cons a rest ih =>
      rw [List.mapM_cons, h a (by simp), ok_bind, ih fun a ha => h a (by simp [ha])]
      rfl

theorem findM?_eq_ok {f : α → Except ε Bool} {g : α → Bool} {l : List α}
    (h : ∀ a ∈ l, f a = .ok (g a)) : l.findM? f = .ok (l.find? g) := by
  induction l with
  | nil => rfl
  | cons a rest ih =>
      rw [List.findM?, h a (by simp), ok_bind, List.find?_cons]
      cases g a with
      | true => rfl
      | false => exact ih fun a ha => h a (by simp [ha])

end Loops

/-! ## Accesses that are in range

Each strict function is equal to the ordinary one on parts in range. The lemmas are named after the
function and are what the instructions are rewritten with. -/

theorem read_eq {α : Type} [Inhabited α] {bank : Bank α} {i : Nat} (h : i < bank.size) :
    read bank i = .ok (bank.read i) := if_pos h

theorem put_eq {α : Type} {bank : Bank α} {i : Nat} {value : α} (h : i < bank.size) :
    put bank i value = .ok (bank.write i value) := if_pos h

theorem write_eq {limit : Nat} {bank : Bank Nat} {i value : Nat} (hi : i < bank.size)
    (hv : value < limit) : write limit bank i value = .ok (bank.write i value) := by
  rw [write, if_pos hv, put_eq hi]

theorem writeAll_eq {count limit : Nat} {bank : Bank Nat} (h : bank.Fits count limit)
    {writes : List (Nat × Nat)} (hi : ∀ w ∈ writes, w.1 < count) (hv : ∀ w ∈ writes, w.2 < limit) :
    writeAll limit bank writes = .ok (bank.writeAll writes) := by
  refine foldlM_eq_ok (P := fun b => b.Fits count limit) ?_ h
  -- Every write leaves a bank that has as many cells as before.
  intro b hb w hw
  have hcell : w.1 < b.size := by
    rw [hb.size_eq]
    exact hi w hw
  exact ⟨write_eq hcell (hv w hw), hb.write w.1 (hv w hw)⟩

/-! ### Keys -/

theorem press_eq {keypad : Keypad} (h : keypad.down.size = 16) (number : Int) :
    press keypad number = .ok (keypad.press number) := by
  have hkey : Keypad.key number < keypad.down.size := by
    rw [h]
    exact Keypad.key_lt number
  rw [press, put_eq hkey, ok_bind]
  rfl

theorem ofReport_eq (numbers : List Int) : ofReport numbers = .ok (Keypad.ofReport numbers) := by
  refine foldlM_eq_ok (P := fun keypad => keypad.down.size = 16) ?_ (Bank.size_replicate _ _)
  intro keypad h number _
  exact ⟨press_eq h number, by rw [Keypad.size_press, h]⟩

theorem isDown_eq {keypad : Keypad} (h : keypad.down.size = 16) {k : Nat} (hk : k < 16) :
    isDown keypad k = .ok (keypad.isDown k) := read_eq (by rw [h]; exact hk)

theorem lowest_eq {keypad : Keypad} (h : keypad.down.size = 16) :
    lowest keypad = .ok keypad.lowest :=
  findM?_eq_ok fun _ hk => isDown_eq h (List.mem_range.mp hk)

theorem refresh_eq (host : Host) (keys : Keypad) (usage : Usage) :
    refresh host keys usage = .ok (host.refresh keys usage) := by
  cases h : host.reports with
  | some report => simp [refresh, Host.refresh, h, ofReport_eq, ok_bind, pure_eq_ok]
  | none => simp [refresh, Host.refresh, h, pure_eq_ok]

theorem watchKeys_eq (host : Host) (deadline : Option Quantity) (patience : Nat) {keys : Keypad}
    (h : keys.down.size = 16) (usage : Usage) :
    watchKeys host deadline patience keys usage =
      .ok (host.watchKeys deadline patience keys usage) := by
  fun_induction host.watchKeys deadline patience keys usage with
  | case1 patience keys usage seen after hrefresh key hlowest =>
      -- A key is down.
      have hseen := host.size_of_refresh_eq h hrefresh
      rw [watchKeys, refresh_eq, ok_bind, hrefresh]
      simp [lowest_eq hseen, hlowest, ok_bind, pure_eq_ok]
  | case2 patience keys usage seen after hrefresh hlowest hover =>
      -- The time is over.
      have hseen := host.size_of_refresh_eq h hrefresh
      rw [watchKeys, refresh_eq, ok_bind, hrefresh]
      simp [lowest_eq hseen, hlowest, hover, ok_bind, pure_eq_ok]
  | case3 keys usage seen after hrefresh hlowest hover =>
      -- There is no patience left.
      have hseen := host.size_of_refresh_eq h hrefresh
      rw [watchKeys, refresh_eq, ok_bind, hrefresh]
      simp [lowest_eq hseen, hlowest, hover, ok_bind, pure_eq_ok]
  | case4 keys usage seen after hrefresh hlowest hover patience ih =>
      -- There is another look.
      have hseen := host.size_of_refresh_eq h hrefresh
      rw [watchKeys, refresh_eq, ok_bind, hrefresh]
      simp [lowest_eq hseen, hlowest, hover, ok_bind, ih hseen]

theorem awaitKey_eq (host : Host) {keys : Keypad} (h : keys.down.size = 16) (usage : Usage) :
    awaitKey host keys usage = .ok (host.awaitKey keys usage) := by
  cases hd : host.deadline usage.clock with
  | ok deadline => simp [awaitKey, Host.awaitKey, hd, watchKeys_eq host deadline _ h usage]
  | error error => simp [awaitKey, Host.awaitKey, hd, pure_eq_ok]

/-! ### The screen -/

theorem flip_eq {drawing : Drawing} (h : drawing.screen.rows.Fits 32 (2 ^ 64))
    {point : Nat × Nat} (hy : point.2 < 32) : flip drawing point = .ok (drawing.flip point) := by
  have hcell : point.2 < drawing.screen.rows.size := by rw [h.size_eq]; exact hy
  have hrow : drawing.screen.rows.read point.2 ^^^ Screen.column point.1 < 2 ^ 64 :=
    Nat.xor_lt_two_pow (h.read_lt (by decide) _) (Screen.column_lt _)
  rw [flip, read_eq hcell, ok_bind, write_eq hcell hrow, ok_bind,
    read_eq (by rw [Bank.size_write]; exact hcell)]
  rfl

theorem draw_eq {screen : Screen} (h : screen.rows.Fits 32 (2 ^ 64)) {points : List (Nat × Nat)}
    (hy : ∀ point ∈ points, point.2 < 32) : draw screen points = .ok (screen.draw points) := by
  refine foldlM_eq_ok (P := fun d => d.screen.rows.Fits 32 (2 ^ 64)) ?_ h
  intro drawing hd point hp
  exact ⟨flip_eq hd (hy point hp), Screen.flip_fits hd point.1 point.2⟩

/-! ### Registers and memory -/

section State

variable {state : State}

theorem register_eq (h : state.InRange) {x : Nat} (hx : x < 16) :
    register state x = .ok (state.register x) :=
  read_eq (by rw [h.registers.size_eq]; exact hx)

theorem setRegister_eq (h : state.InRange) {x : Nat} (hx : x < 16) {value : Nat}
    (hv : value < 256) : setRegister state x value = .ok (state.setRegister x value) := by
  rw [setRegister, write_eq (by rw [h.registers.size_eq]; exact hx) hv, ok_bind]
  rfl

theorem setFlag_eq (h : state.InRange) (flag : Bool) :
    setFlag state flag = .ok (state.setFlag flag) :=
  setRegister_eq h (by decide) (by split <;> decide)

theorem setWithFlag_eq (h : state.InRange) {x : Nat} (hx : x < 16) {value : Nat}
    (hv : value < 256) (flag : Bool) :
    setWithFlag state x value flag = .ok ((state.setRegister x value).setFlag flag) := by
  rw [setWithFlag, setRegister_eq h hx hv, ok_bind, setFlag_eq (h.setRegister x hv)]

theorem word_eq {memory : Memory} (h : memory.Fits 4096 256) {address : Nat}
    (ha : address < 4096) : word memory address = .ok (Memory.word memory address) := by
  have hnext : Memory.wrap (address + 1) < memory.size := by
    rw [h.size_eq]
    exact Memory.wrap_lt _
  rw [word, read_eq (by rw [h.size_eq]; exact ha), ok_bind, read_eq hnext, ok_bind]
  rfl

theorem bytes_eq {memory : Memory} (h : memory.Fits 4096 256) (start count : Nat) :
    -- All places of a window are in memory, wherever it begins.
    bytes memory start count = .ok (Memory.bytes memory start count) := by
  refine mapM_eq_ok ?_
  intro a ha
  exact read_eq (by rw [h.size_eq]; exact Memory.lt_of_mem_window ha)

theorem writeMemory_eq (h : state.InRange) {writes : List (Nat × Nat)}
    (hi : ∀ w ∈ writes, w.1 < 4096) (hv : ∀ w ∈ writes, w.2 < 256) :
    writeMemory state writes = .ok (state.writeMemory writes) := by
  rw [writeMemory, writeAll_eq h.memory hi hv, ok_bind]
  rfl

end State

/-! ## Instructions and cycles that are in range

What is left is one case for each instruction. Their operands name registers that exist, since they
come from a decoded word, and whatever is written is cut to eight bits or was read from a cell of
the same kind. -/

variable {state : State}

/-- The first digit goes to the index itself, which is an address as it stands. -/
theorem digits_eq (h : state.InRange) (x : Nat) :
    writeMemory state
      [ (state.index, state.register x / 100),
        (Memory.wrap (state.index + 1), state.register x / 10 % 10),
        (Memory.wrap (state.index + 2), state.register x % 10) ] =
      .ok (state.writeMemory (state.digitWrites x)) := by
  have hfirst : Memory.wrap (state.index + 0) = state.index := Nat.mod_eq_of_lt h.index_lt
  have hwindow : Memory.window state.index 3 =
      [state.index, Memory.wrap (state.index + 1), Memory.wrap (state.index + 2)] := by
    rw [← hfirst]
    simp [Memory.window, List.range_succ, Memory.wrap]
  have hwrites : state.digitWrites x =
      [ (state.index, state.register x / 100),
        (Memory.wrap (state.index + 1), state.register x / 10 % 10),
        (Memory.wrap (state.index + 2), state.register x % 10) ] := by
    rw [State.digitWrites, hwindow]
    rfl
  rw [← hwrites]
  refine writeMemory_eq h ?_ (h.digitWrites_lt x)
  intro w hw
  exact Memory.lt_of_mem_window (List.of_mem_zip (a := w.1) (b := w.2) hw).1

/-- The strict computer carries out an instruction in range as `execute` does. -/
theorem execute_eq (h : state.InRange) {instruction : Instruction} (hi : instruction.InRange)
    (host : Host) (word : Nat) (usage : Usage) :
    execute host word instruction state usage =
      .ok (ChipEight.execute host word instruction state usage) := by
  have hr := h.register_lt
  have hbyte : ∀ n : Nat, n &&& 0xFF < 256 := fun n => Nat.and_lt_two_pow n (n := 8) (by decide)
  have hdigit : ∀ n : Nat, n &&& 0xF < 16 := fun n => Nat.and_lt_two_pow n (n := 4) (by decide)
  cases instruction with
  | clear => rfl
  | ret =>
      -- With no open call the stack is not looked at.
      by_cases hdepth : state.depth = 0
      · rw [execute, if_pos hdepth, execute_ret_of_empty hdepth]
        rfl
      · have hcell : state.depth - 1 < state.stack.size := by
          have := h.depth_le
          rw [h.stack.size_eq]
          omega
        rw [execute, if_neg hdepth, execute_ret_of_open hdepth, read_eq hcell]
        rfl
  | jump address => rfl
  | call address =>
      -- With no room nothing is written.
      by_cases hdepth : State.stackCapacity ≤ state.depth
      · rw [execute, if_pos hdepth, execute_call_of_full hdepth]
        rfl
      · have hcell : state.depth < state.stack.size := by
          rw [h.stack.size_eq]
          exact Nat.lt_of_not_le hdepth
        rw [execute, if_neg hdepth, execute_call_of_room hdepth, write_eq hcell h.pc_lt]
        rfl
  | skipIfByte x byte => rw [execute, register_eq h hi.1]; rfl
  | skipUnlessByte x byte => rw [execute, register_eq h hi.1]; rfl
  | skipIfSame x y => rw [execute, register_eq h hi.1, register_eq h hi.2]; rfl
  | setByte x byte => rw [execute, setRegister_eq h hi.1 hi.2]; rfl
  | addByte x byte =>
      rw [execute, register_eq h hi.1, ok_bind, setRegister_eq h hi.1 (hbyte _)]
      rfl
  | copy x y => rw [execute, register_eq h hi.2, ok_bind, setRegister_eq h hi.1 (hr y)]; rfl
  | or x y =>
      have hv : state.register x ||| state.register y < 256 :=
        Nat.or_lt_two_pow (n := 8) (hr x) (hr y)
      rw [execute, register_eq h hi.1, register_eq h hi.2, ok_bind, ok_bind,
        setRegister_eq h hi.1 hv]
      rfl
  | and x y =>
      have hv : state.register x &&& state.register y < 256 :=
        Nat.lt_of_le_of_lt Nat.and_le_left (hr x)
      rw [execute, register_eq h hi.1, register_eq h hi.2, ok_bind, ok_bind,
        setRegister_eq h hi.1 hv]
      rfl
  | xor x y =>
      have hv : state.register x ^^^ state.register y < 256 :=
        Nat.xor_lt_two_pow (n := 8) (hr x) (hr y)
      rw [execute, register_eq h hi.1, register_eq h hi.2, ok_bind, ok_bind,
        setRegister_eq h hi.1 hv]
      rfl
  | add x y =>
      rw [execute, register_eq h hi.1, register_eq h hi.2, ok_bind, ok_bind]
      dsimp only
      rw [setWithFlag_eq h hi.1 (hbyte _)]
      rfl
  | sub x y =>
      rw [execute, register_eq h hi.1, register_eq h hi.2, ok_bind, ok_bind,
        setWithFlag_eq h hi.1 (hbyte _)]
      rfl
  | shiftRight x =>
      have hv : state.register x >>> 1 < 256 := Nat.lt_of_le_of_lt (Nat.shiftRight_le _ 1) (hr x)
      rw [execute, register_eq h hi, ok_bind, setWithFlag_eq h hi hv]
      rfl
  | subFrom x y =>
      rw [execute, register_eq h hi.1, register_eq h hi.2, ok_bind, ok_bind,
        setWithFlag_eq h hi.1 (hbyte _)]
      rfl
  | shiftLeft x =>
      rw [execute, register_eq h hi, ok_bind, setWithFlag_eq h hi (hbyte _)]
      rfl
  | skipUnlessSame x y => rw [execute, register_eq h hi.1, register_eq h hi.2]; rfl
  | setIndex address => rfl
  | jumpOffset address => rw [execute, register_eq h (by decide)]; rfl
  | random x byte =>
      have hv : host.random usage.drawn &&& byte < 256 :=
        Nat.lt_of_le_of_lt Nat.and_le_right hi.2
      rw [execute, setRegister_eq h hi.1 hv]
      rfl
  | draw x y rows =>
      -- The rows of the sprite are counted modulo the height, so each of them is on the screen.
      have hdraw : draw state.screen (Sprite.points (state.register x) (state.register y)
          (Memory.bytes state.memory state.index rows)) = .ok (state.sprite x y rows) :=
        draw_eq h.rows fun _ hp => (Sprite.onScreen_of_mem_points hp).2
      have hdrawn : { state with
          screen := (state.sprite x y rows).screen
          redrawn := true
          changes := (state.sprite x y rows).changes }.InRange :=
        { h with rows := Screen.foldl_flip_fits _ h.rows }
      rw [execute, register_eq h hi.1, register_eq h hi.2.1, ok_bind, ok_bind,
        bytes_eq h.memory, ok_bind, hdraw, ok_bind, setFlag_eq hdrawn]
      rfl
  | skipIfDown x =>
      rw [execute, register_eq h hi, ok_bind, isDown_eq h.keys_size (hdigit _)]
      rfl
  | skipUnlessDown x =>
      rw [execute, register_eq h hi, ok_bind, isDown_eq h.keys_size (hdigit _)]
      rfl
  | readDelay x => rw [execute, setRegister_eq h hi h.delay_lt]; rfl
  | awaitKey x =>
      obtain ⟨hkeys, hkey⟩ := host.awaitKey_inRange h.keys_size usage
      have hseen := h.setKeypad hkeys
      rw [execute, awaitKey_eq host h.keys_size usage, ok_bind]
      cases hwait : (host.awaitKey state.keys usage).wait with
      | pressed key =>
          have hv : key < 256 := Nat.lt_trans (hkey key hwait) (by decide)
          simp [ChipEight.execute, hwait, setRegister_eq hseen hi hv, ok_bind, pure_eq_ok]
      | expired => simp [ChipEight.execute, hwait, pure_eq_ok]
      | abandoned error => simp [ChipEight.execute, hwait, pure_eq_ok]
  | setDelay x => rw [execute, register_eq h hi]; rfl
  | setSound x => rw [execute, register_eq h hi]; rfl
  | addToIndex x =>
      have hmoved : { state with index := Memory.wrap (state.index + state.register x) }.InRange :=
        { h with index_lt := Memory.wrap_lt _ }
      rw [execute, register_eq h hi, ok_bind]
      by_cases hflag : host.dialect.indexOverflowFlag = true
      · simp [ChipEight.execute, State.addToIndex, hflag, setFlag_eq hmoved, ok_bind, pure_eq_ok]
      · simp [ChipEight.execute, State.addToIndex, hflag, pure_eq_ok]
  | glyph x => rw [execute, register_eq h hi]; rfl
  | digits x =>
      rw [execute, register_eq h hi, ok_bind, digits_eq h]
      rfl
  | store x =>
      -- The registers up to `x` exist, and the window is in memory.
      have hvalues : (List.range (x + 1)).mapM (register state) =
          .ok ((List.range (x + 1)).map state.register) := by
        refine mapM_eq_ok ?_
        intro i hmem
        have hle : i < x + 1 := List.mem_range.mp hmem
        exact register_eq h (Nat.lt_of_lt_of_le hle hi)
      have hwrites : writeMemory state (state.storeWrites x) =
          .ok (state.writeMemory (state.storeWrites x)) := by
        refine writeMemory_eq h ?_ (h.storeWrites_lt x)
        intro w hw
        exact Memory.lt_of_mem_window (List.of_mem_zip (a := w.1) (b := w.2) hw).1
      rw [execute, hvalues, ok_bind, ← State.storeWrites, hwrites, ok_bind]
      rfl
  | load x =>
      -- Here the registers are written to.
      have hwrites : writeAll 256 state.registers (state.loadWrites x) =
          .ok (state.registers.writeAll (state.loadWrites x)) := by
        refine writeAll_eq h.registers ?_ (h.loadWrites_lt x)
        intro w hw
        have hmem := (List.of_mem_zip (a := w.1) (b := w.2) hw).1
        exact Nat.lt_of_lt_of_le (List.mem_range.mp hmem) hi
      rw [execute, bytes_eq h.memory, ok_bind, ← State.loadWrites, hwrites, ok_bind]
      rfl

/-- From a state in range the strict computer makes the same cycle. -/
theorem step_eq (h : state.InRange) (host : Host) (usage : Usage) :
    step host state usage = .ok (state.step host usage) := by
  cases hhalt : state.halt with
  | some cause =>
      -- A halted computer refuses, strict or not.
      rw [State.step, State.stepWith_of_halted hhalt]
      simp [step, hhalt, pure_eq_ok]
  | none =>
      have hfetched := h.fetched host usage
      have hword : word (state.beginCycle (host.refresh state.keys usage).1).memory state.pc =
          .ok state.nextWord := word_eq h.memory h.pc_lt
      simp only [step, hhalt, refresh_eq, ok_bind]
      rw [show (state.beginCycle (host.refresh state.keys usage).1).pc = state.pc from rfl, hword,
        ok_bind]
      cases hd : Encoding.decode Instruction.table state.nextWord with
      | none =>
          rw [State.step, State.stepWith_of_decode_none hhalt hd]
          rfl
      | some instruction =>
          have hexecute := execute_eq hfetched (Instruction.decode_inRange hd) host state.nextWord
            (state.fetchUsage host usage)
          rw [State.step, State.stepWith_of_decode_some hhalt hd]
          -- Both computers finish a cycle in the same way, so only the instructions are to be compared.
          change (do
            let cycle ← execute host state.nextWord instruction (state.fetched host usage)
              (state.fetchUsage host usage)
            pure (State.finish state.pc
              { cycle with notices := .fetched state.pc state.nextWord :: cycle.notices })) = _
          rw [hexecute]
          rfl

end Strict

end ChipEight
