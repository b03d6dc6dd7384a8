import ChipEight.Bank

/-!
# Bounded cells

`bank.Fits count limit` says that a bank has `count` cells and that each of them holds a number below
`limit`: 4096 bytes, 16 return addresses, 32 words of 64 bits. A write of a number below the limit
keeps that, wherever it goes, because a write outside the bank is lost.

Before that come the laws of a list of writes: which of them is seen by a read.
-/

namespace ChipEight.Bank

variable {α : Type} {bank : Bank Nat} {count limit : Nat}

@[simp] theorem toList_replicate (count : Nat) (value : α) :
    (replicate count value).toList = List.replicate count value := by
  simp [replicate, toList]

@[simp] theorem length_toList (bank : Bank α) : bank.toList.length = bank.size := by
  simp [toList, size]

@[simp] theorem writeAll_nil (bank : Bank α) : bank.writeAll [] = bank := rfl

@[simp] theorem writeAll_cons (bank : Bank α) (w : Nat × α) (ws : List (Nat × α)) :
    bank.writeAll (w :: ws) = (bank.write w.1 w.2).writeAll ws := rfl

theorem read_writeAll_of_ne [Inhabited α] {bank : Bank α} {writes : List (Nat × α)} {i : Nat}
    (h : ∀ w ∈ writes, w.1 ≠ i) : (bank.writeAll writes).read i = bank.read i := by
  induction writes generalizing bank with
  | nil => rfl
  | cons w ws ih =>
      rw [writeAll_cons, ih (fun w' hw' => h w' (by simp [hw'])), read_write, if_neg]
      -- The first write was lost or went to another cell; those after it are the hypothesis of the
      -- induction.
      exact fun hsame => h w (by simp) hsame.1

/-- Of writes to different cells each one is seen. -/
theorem read_writeAll_of_mem [Inhabited α] {bank : Bank α} {writes : List (Nat × α)}
    (honce : (writes.map Prod.fst).Nodup) {w : Nat × α} (h : w ∈ writes) (hw : w.1 < bank.size) :
    (bank.writeAll writes).read w.1 = w.2 := by
  induction writes generalizing bank with
  | nil => cases h
  | cons first ws ih =>
      obtain ⟨hfresh, honce⟩ := List.nodup_cons.mp honce
      rw [writeAll_cons]
      rcases List.mem_cons.mp h with rfl | hmem
      · -- No later write goes to the same cell, so this one is not overwritten.
        have hother : ∀ w' ∈ ws, w'.1 ≠ w.1 := by
          intro w' hw' hsame
          exact hfresh (hsame ▸ List.mem_map_of_mem hw')
        rw [read_writeAll_of_ne hother, read_write, if_pos ⟨rfl, hw⟩]
      · exact ih honce hmem (by rwa [size_write])

/-- Of writes of one value it does not matter which of them was the last one. -/
theorem read_writeAll_const [Inhabited α] {bank : Bank α} {writes : List (Nat × α)} {value : α}
    (h : ∀ w ∈ writes, w.2 = value) {i : Nat} (hi : i < bank.size) :
    (bank.writeAll writes).read i =
      if i ∈ writes.map Prod.fst then value else bank.read i := by
  induction writes generalizing bank with
  | nil => rfl
  | cons w ws ih =>
      rw [writeAll_cons, ih (fun w' hw' => h w' (by simp [hw'])) (by rwa [size_write]), read_write,
        h w (by simp), List.map_cons]
      by_cases hfirst : w.1 = i
      · -- The first write gives the value, if no later one does, and later ones give the same.
        simp [hfirst, hi]
      · have hrest : i ∈ w.1 :: ws.map Prod.fst ↔ i ∈ ws.map Prod.fst := by
          rw [List.mem_cons, or_iff_right (Ne.symm hfirst)]
        simp only [hfirst, hrest, false_and, if_false]

/-- A cell's content is in the list of all contents. -/
theorem read_mem_toList [Inhabited α] {bank : Bank α} {i : Nat} (h : i < bank.size) :
    bank.read i ∈ bank.toList := by
  have hi : i < bank.cells.size := h
  simp [read, toList, Array.getD_eq_getD_getElem?, hi]

theorem read_eq_default [Inhabited α] {bank : Bank α} {i : Nat} (h : bank.size ≤ i) :
    bank.read i = default := by
  have hi : ¬ i < bank.cells.size := Nat.not_lt.mpr h
  simp [read, Array.getD_eq_getD_getElem?, hi]

/-- Banks of one size with the same contents are equal. -/
theorem ext_read [Inhabited α] {first second : Bank α} (hsize : first.size = second.size)
    (h : ∀ i, first.read i = second.read i) : first = second := by
  obtain ⟨cells⟩ := first
  obtain ⟨cells'⟩ := second
  congr 1
  apply Array.ext hsize
  intro i hi hi'
  simpa [read, Array.getD_eq_getD_getElem?, hi, hi'] using h i

/-- After a write, a content is an old one or the value written. -/
theorem mem_toList_write {bank : Bank α} {i : Nat} {v value : α}
    (h : v ∈ (bank.write i value).toList) : v ∈ bank.toList ∨ v = value := by
  have hmem : v ∈ bank.cells.toList.set i value := by simpa [write, toList] using h
  exact List.mem_or_eq_of_mem_set hmem

/-- The bank has `count` cells, each with a number below `limit`. -/
structure Fits (bank : Bank Nat) (count limit : Nat) : Prop where
  size_eq : bank.size = count
  lt_of_mem : ∀ value ∈ bank.toList, value < limit

namespace Fits

/-- What is read is below the limit, also outside the bank. -/
theorem read_lt (h : bank.Fits count limit) (hlimit : 0 < limit) (i : Nat) :
    bank.read i < limit := by
  rcases Nat.lt_or_ge i bank.size with hi | hi
  · exact h.lt_of_mem _ (read_mem_toList hi)
  · rw [read_eq_default hi]
    exact hlimit

theorem replicate {value : Nat} (h : value < limit) : (Bank.replicate count value).Fits count limit where
  size_eq := size_replicate count value
  lt_of_mem v hv := by
    rw [toList_replicate] at hv
    rw [List.eq_of_mem_replicate hv]
    exact h

theorem write (h : bank.Fits count limit) (i : Nat) {value : Nat} (hv : value < limit) :
    (bank.write i value).Fits count limit where
  size_eq := by rw [size_write, h.size_eq]
  lt_of_mem v hmem := by
    rcases mem_toList_write hmem with hold | rfl
    · exact h.lt_of_mem v hold
    · exact hv

theorem writeAll {writes : List (Nat × Nat)} (h : bank.Fits count limit)
    (hw : ∀ w ∈ writes, w.2 < limit) : (bank.writeAll writes).Fits count limit := by
  induction writes generalizing bank with
  | nil => exact h
  | cons w ws ih =>
      rw [writeAll_cons]
      exact ih (h.write w.1 (hw w (by simp))) fun w' hw' => hw w' (by simp [hw'])

end Fits

end ChipEight.Bank
