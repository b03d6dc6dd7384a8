/-!
# Banks of numbered cells

Memory, the registers, the call stack, the keypad and the rows of the screen are all a fixed number
of cells that are read and written by number. `Bank` is that one idea. A read outside the bank gives
the default value and a write outside it is lost, so both are total; `read_write` is the law that
every later fact about a bank comes from.
-/

namespace ChipEight

/-- A fixed number of cells, numbered from 0. -/
structure Bank (α : Type) where
  cells : Array α
  deriving DecidableEq

namespace Bank

variable {α : Type}

/-- A bank of `count` cells that all hold `value`. -/
def replicate (count : Nat) (value : α) : Bank α := ⟨Array.replicate count value⟩

def size (bank : Bank α) : Nat := bank.cells.size

/-- The cells in order, cell 0 first. -/
def toList (bank : Bank α) : List α := bank.cells.toList

/-- The content of cell `i`, or the default value if there is no such cell. -/
def read [Inhabited α] (bank : Bank α) (i : Nat) : α := bank.cells.getD i default

/-- The bank with `value` in cell `i`, or the bank itself if there is no such cell. -/
def write (bank : Bank α) (i : Nat) (value : α) : Bank α := ⟨bank.cells.setIfInBounds i value⟩

/-- Writes in list order, so that the last write to a cell is the one that stays. -/
def writeAll (bank : Bank α) (writes : List (Nat × α)) : Bank α :=
  writes.foldl (fun b w => b.write w.1 w.2) bank

@[simp] theorem size_replicate (count : Nat) (value : α) :
    (replicate count value).size = count := by
  simp [replicate, size]

@[simp] theorem size_write (bank : Bank α) (i : Nat) (value : α) :
    (bank.write i value).size = bank.size := by
  simp [write, size]

/-- A write is seen by reads of its own cell and by no other read. -/
theorem read_write [Inhabited α] (bank : Bank α) (i j : Nat) (value : α) :
    (bank.write i value).read j = if i = j ∧ i < bank.size then value else bank.read j := by
  simp only [read, write, size, Array.getD_eq_getD_getElem?, Array.getElem?_setIfInBounds]
  by_cases h : i = j
  · subst h
    by_cases h2 : i < bank.cells.size
    · simp [h2]
    · simp [h2]
  · simp [h]

@[simp] theorem size_writeAll (bank : Bank α) (writes : List (Nat × α)) :
    (bank.writeAll writes).size = bank.size := by
  induction writes generalizing bank with
  | nil => rfl
  | cons w ws ih => simpa [writeAll] using ih (bank.write w.1 w.2)

end Bank

end ChipEight
