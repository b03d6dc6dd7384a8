import ChipEight.Animation
import ChipEight.Proofs.Rounding
import Mathlib.Data.List.Chain
import Mathlib.Data.List.Infix

/-!
# The pictures of a file

In a file, equal frames that follow one another are one picture that is shown for longer. Counting them
loses nothing: what has been counted stands for the frames again, in order
(`Animation.recounted_counted`), and no two neighbours in it are equal (`Animation.Separate`).

At the standard time, a frame takes two hundredths of a second. So the pictures of a file, each as often as
its time says, are those of the animation (`Animation.pictures_of_shots`). There is such a file just when no
more than 32767 equal frames follow one another (`Animation.exists_shots_iff`).
-/

namespace ChipEight

/-- A function that fails for some items maps a list just when it fails for none of them. -/
theorem mapM_eq_ok_iff {ε α β : Type} {f : α → Except ε β} {P : α → Prop} {g : α → β}
    (hf : ∀ item found, f item = .ok found ↔ P item ∧ found = g item) {items : List α}
    {results : List β} :
    items.mapM f = .ok results ↔ (∀ item ∈ items, P item) ∧ results = items.map g := by
  induction items generalizing results with
  | nil => simp [pure, Except.pure, eq_comm]
  | cons first rest ih =>
      rw [List.mapM_cons, List.forall_mem_cons, List.map_cons]
      cases hfirst : f first with
      | error error =>
          have hfails : ¬ P first := fun hP => by
            have hok := (hf first (g first)).mpr ⟨hP, rfl⟩
            rw [hfirst] at hok
            cases hok
          simp [bind, Except.bind, hfails]
      | ok found =>
          obtain ⟨hP, rfl⟩ := (hf first found).mp hfirst
          cases hrest : rest.mapM f with
          | error error =>
              have hfails : ¬ ∀ item ∈ rest, P item := fun hall => by
                have hok := ih.mpr ⟨hall, rfl⟩
                rw [hrest] at hok
                cases hok
              simp [bind, Except.bind, hfails]
          | ok others =>
              obtain ⟨hall, rfl⟩ := ih.mp hrest
              simp [bind, Except.bind, pure, Except.pure, hP, eq_comm]
              exact fun _ => hall

namespace Animation

/-! ## Counting frames

The frames are counted from the front, and the run that is being counted stands first. `recounted`
goes back from runs to frames. A row of equal frames cannot reach over the end of a run, because the
next run is of another frame. -/

/-- The frames that counted ones stand for. -/
def recounted (runs : List (Nat × Canvas Nat)) : List (Canvas Nat) :=
  runs.flatMap fun run => List.replicate run.1 run.2

@[simp] theorem recounted_nil : recounted [] = [] := rfl

@[simp] theorem recounted_cons (run : Nat × Canvas Nat) (runs : List (Nat × Canvas Nat)) :
    recounted (run :: runs) = List.replicate run.1 run.2 ++ recounted runs := List.flatMap_cons

theorem recounted_append (runs more : List (Nat × Canvas Nat)) :
    recounted (runs ++ more) = recounted runs ++ recounted more := List.flatMap_append

/-- One more frame is counted. -/
theorem recounted_count (counted : List (Nat × Canvas Nat)) (canvas : Canvas Nat) :
    recounted (count counted canvas).reverse = recounted counted.reverse ++ [canvas] := by
  cases counted with
  | nil => rfl
  | cons run before =>
      obtain ⟨n, last⟩ := run
      rw [count]
      split
      · next hsame =>
        -- The run goes on.
        rw [hsame, List.reverse_cons, List.reverse_cons, recounted_append, recounted_append,
          List.append_assoc]
        simp [List.replicate_succ']
      · -- A new run begins.
        rw [List.reverse_cons, recounted_append]
        simp

theorem recounted_foldl (frames : List (Canvas Nat)) (counted : List (Nat × Canvas Nat)) :
    recounted (frames.foldl count counted).reverse = recounted counted.reverse ++ frames := by
  induction frames generalizing counted with
  | nil => exact (List.append_nil _).symm
  | cons first rest ih =>
      rw [List.foldl_cons, ih, recounted_count, List.append_assoc]
      rfl

/-- Nothing is lost when frames are counted. -/
theorem recounted_counted (animation : Animation) :
    recounted animation.counted = animation.frames.toList := by
  rw [counted, ← Array.foldl_toList, recounted_foldl]
  rfl

/-- Runs of at least one frame, where the frames of neighbours are different. -/
structure Separate (runs : List (Nat × Canvas Nat)) : Prop where
  positive : ∀ run ∈ runs, 0 < run.1
  differ : runs.IsChain fun run next => run.2 ≠ next.2

theorem separate_nil : Separate [] := ⟨nofun, List.isChain_nil⟩

theorem separate_count {counted : List (Nat × Canvas Nat)} (h : Separate counted)
    (canvas : Canvas Nat) : Separate (count counted canvas) := by
  cases counted with
  | nil => exact ⟨by simp [count], by simp [count]⟩
  | cons run before =>
      obtain ⟨n, last⟩ := run
      obtain ⟨hpositive, hdiffer⟩ := h
      rw [count]
      split
      · refine ⟨?_, ?_⟩
        · intro run hrun
          rcases List.mem_cons.mp hrun with rfl | hbefore
          · exact Nat.succ_pos n
          · exact hpositive run (by simp [hbefore])
        · cases before with
          | nil => simp
          | cons next others => simpa using hdiffer
      · next hother =>
        refine ⟨?_, ?_⟩
        · intro run hrun
          rcases List.mem_cons.mp hrun with rfl | hbefore
          · exact Nat.one_pos
          · exact hpositive run hbefore
        · exact List.isChain_cons_cons.mpr ⟨hother, hdiffer⟩

theorem separate_foldl (frames : List (Canvas Nat)) {counted : List (Nat × Canvas Nat)}
    (h : Separate counted) : Separate (frames.foldl count counted) := by
  induction frames generalizing counted with
  | nil => exact h
  | cons first rest ih => exact ih (separate_count h first)

theorem separate_counted (animation : Animation) : Separate animation.counted := by
  obtain ⟨hpositive, hdiffer⟩ := separate_foldl animation.frames.toList separate_nil
  rw [counted, ← Array.foldl_toList]
  refine ⟨fun run hrun => hpositive run (List.mem_reverse.mp hrun), ?_⟩
  rw [List.isChain_reverse]
  exact hdiffer.imp fun _ _ => Ne.symm

/-- Behind a run comes another frame, if there is one. -/
theorem Separate.head?_ne {n : Nat} {last : Canvas Nat} {rest : List (Nat × Canvas Nat)}
    (h : Separate ((n, last) :: rest)) : (recounted rest).head? ≠ some last := by
  cases rest with
  | nil => simp
  | cons run others =>
      obtain ⟨m, next⟩ := run
      have hm : m ≠ 0 := Nat.ne_of_gt (h.positive (m, next) (by simp))
      have hother : last ≠ next := (List.isChain_cons_cons.mp h.differ).1
      simpa [List.head?_replicate, hm] using hother.symm

/-- A row of equal frames lies in one run, which is no shorter. -/
theorem Separate.exists_le {runs : List (Nat × Canvas Nat)} (h : Separate runs) {k : Nat}
    {canvas : Canvas Nat} (hk : 0 < k) (hrow : List.replicate k canvas <:+: recounted runs) :
    ∃ run ∈ runs, k ≤ run.1 := by
  induction runs with
  | nil =>
      have hnone := List.infix_nil.mp hrow
      rw [List.replicate_eq_nil_iff] at hnone
      omega
  | cons run rest ih =>
      obtain ⟨n, last⟩ := run
      have hlater : List.replicate k canvas <:+: recounted rest →
          ∃ run ∈ (n, last) :: rest, k ≤ run.1 := by
        intro hinfix
        obtain ⟨run, hrun, hle⟩ :=
          ih ⟨fun run hrun => h.positive run (by simp [hrun]), h.differ.tail⟩ hinfix
        exact ⟨run, by simp [hrun], hle⟩
      obtain ⟨before, after, hsplit⟩ := hrow
      rw [recounted_cons, List.append_assoc] at hsplit
      rcases List.append_eq_append_iff.mp hsplit with
        ⟨within, hwithin, hrest⟩ | ⟨skipped, -, hrest⟩
      · -- The row begins in the first run, or just behind it.
        obtain ⟨hlength, -, hwithin⟩ := List.replicate_eq_append_iff.mp hwithin
        rcases List.append_eq_append_iff.mp hrest with ⟨more, hmore, -⟩ | ⟨more, hmore, hbehind⟩
        · -- It ends there, too.
          have hk' := congrArg List.length hmore
          rw [List.length_append, List.length_replicate] at hk'
          exact ⟨(n, last), by simp, by omega⟩
        · obtain ⟨hsum, hleft, hright⟩ := List.replicate_eq_append_iff.mp hmore
          cases within with
          | nil =>
              -- It begins where the first run has ended.
              rw [List.nil_append] at hmore
              exact hlater ⟨[], after, by rw [hmore, List.nil_append, hbehind]⟩
          | cons first others =>
              cases more with
              | nil =>
                  rw [List.length_nil] at hsum
                  exact ⟨(n, last), by simp, by omega⟩
              | cons next beyond =>
                  -- It goes on behind the first run, but what comes there is another frame.
                  obtain ⟨hlast, -⟩ := List.cons_eq_cons.mp hwithin
                  obtain ⟨hcanvas, -⟩ := List.cons_eq_cons.mp hleft
                  obtain ⟨hnext, -⟩ := List.cons_eq_cons.mp hright
                  refine absurd ?_ h.head?_ne
                  rw [hbehind, List.cons_append, List.head?_cons, hnext, ← hcanvas, hlast]
      · -- It begins behind a later frame.
        exact hlater ⟨skipped, after, by rw [List.append_assoc, hrest]⟩

/-! ## The standard time

The time of a run is divided by ten as a binary number and truncated, as every time is. Below 2 ^ 52
hundredths that is exact, and beyond it the result is in any case more than a file can say. -/

/-- The hundredths of a second that so many frames take are rounded down from a binary number. -/
theorem part_standard (frames : Nat) :
    (standardTime.total frames).part 10 =
      (Binary64.nearest false ⟨2 * frames * 10, 10⟩).truncate.mapError fun _ => .tooLarge := by
  have htotal : standardTime.total frames = .whole (2 * frames * 10 : Nat) :=
    congrArg Quantity.whole (show (20 * frames : Int) = (2 * frames * 10 : Nat) by omega)
  have hsign : decide (((2 * frames * 10 : Nat) : Int) < 0) = false := decide_eq_false (by omega)
  rw [htotal, Quantity.part, hsign, Int.natAbs_natCast]

/-- So many frames take two hundredths of a second each, if a file can say that. -/
theorem shotTime_standard (frames time : Nat) :
    shotTime standardTime frames = .ok time ↔ 2 * frames ≤ 65535 ∧ time = 2 * frames := by
  have hden : 0 < (⟨2 * frames * 10, 10⟩ : Fraction).den := Nat.zero_lt_succ 9
  rw [shotTime, part_standard]
  cases htruncate : (Binary64.nearest false ⟨2 * frames * 10, 10⟩).truncate with
  | error error =>
      -- The time is beyond all binary numbers, so it is not a small one.
      have hlarge : ¬ 2 * frames < 2 ^ 52 := fun hsmall => by
        rw [Binary64.truncate_nearest_of_whole hden rfl hsmall] at htruncate
        cases htruncate
      exact iff_of_false nofun (by omega)
  | ok part =>
      have hmax : maxTime = 65535 := rfl
      simp only [Except.mapError]
      have hpart : part = 2 * frames ∨ 65535 < 2 * frames ∧ (part < 0 ∨ 65535 < part) := by
        rcases Nat.lt_or_ge (2 * frames) (2 ^ 52) with hsmall | hlarge
        · -- The time is a whole number and is not rounded.
          rw [Binary64.truncate_nearest_of_whole hden rfl hsmall] at htruncate
          exact .inl (Except.ok.inj htruncate).symm
        · -- It is rounded perhaps, but not to what a file could say.
          rcases Int.lt_or_le part 0 with hnegative | hpositive
          · exact .inr ⟨by omega, .inl hnegative⟩
          · obtain ⟨n, rfl⟩ := Int.eq_ofNat_of_zero_le hpositive
            have hatLeast : 2 * frames ≤ 2 * n + 1 :=
              Binary64.le_of_truncate_nearest (by omega) hden (Nat.le_refl _) htruncate
            exact .inr ⟨by omega, .inr (by omega)⟩
      split_ifs with hnegative hlong
      · exact iff_of_false nofun (by omega)
      · exact iff_of_false nofun (by omega)
      · rw [Except.ok.injEq]
        omega

variable {animation : Animation} {shots : List Shot}

/-- The pictures of a file are the runs of equal frames. -/
theorem shots_standard_eq_ok_iff :
    animation.shots standardTime = .ok shots ↔
      (∀ run ∈ animation.counted, 2 * run.1 ≤ 65535) ∧
        shots = animation.counted.map fun run => ⟨animation.enlarged run.2, 2 * run.1⟩ := by
  rw [Animation.shots]
  refine mapM_eq_ok_iff fun run shot => ?_
  dsimp only
  have htime := shotTime_standard run.1
  generalize shotTime standardTime run.1 = result at htime ⊢
  cases result with
  | error error =>
      have hlong : ¬ 2 * run.1 ≤ 65535 := fun hshort => by
        cases (htime (2 * run.1)).mpr ⟨hshort, rfl⟩
      simp [Except.map, hlong]
  | ok time =>
      obtain ⟨hshort, rfl⟩ := (htime time).mp rfl
      simp [Except.map, hshort, eq_comm]

/-- The pictures of a file, each as often as its time says, are the pictures of all frames. -/
theorem pictures_of_shots (h : animation.shots standardTime = .ok shots) :
    (shots.flatMap fun shot => List.replicate (shot.time / 2) shot.picture) = animation.pictures ∧
      ∀ shot ∈ shots, ∃ frames > 0, shot.time = 2 * frames := by
  obtain ⟨-, rfl⟩ := shots_standard_eq_ok_iff.mp h
  refine ⟨?_, ?_⟩
  · rw [pictures, ← recounted_counted, recounted, List.map_flatMap, List.flatMap_map]
    congr 1
    funext run
    rw [List.map_replicate, Nat.mul_div_cancel_left run.1 (by decide)]
  · intro shot hshot
    obtain ⟨run, hrun, rfl⟩ := List.mem_map.mp hshot
    exact ⟨run.1, animation.separate_counted.positive run hrun, rfl⟩

/-- There is a file of the pictures if no more equal frames follow one another than a file can say. -/
theorem exists_shots_iff :
    (∃ shots, animation.shots standardTime = .ok shots) ↔
      ∀ k canvas, List.replicate k canvas <:+: animation.frames.toList → k ≤ 32767 := by
  constructor
  · rintro ⟨shots, hshots⟩ k canvas hrow
    rcases Nat.eq_zero_or_pos k with rfl | hk
    · exact Nat.zero_le _
    · rw [← recounted_counted] at hrow
      obtain ⟨run, hrun, hle⟩ := animation.separate_counted.exists_le hk hrow
      have hshort := (shots_standard_eq_ok_iff.mp hshots).1 run hrun
      omega
  · intro hrows
    refine ⟨_, shots_standard_eq_ok_iff.mpr ⟨fun run hrun => ?_, rfl⟩⟩
    have hrow : List.replicate run.1 run.2 <:+: animation.frames.toList := by
      rw [← recounted_counted]
      exact List.infix_of_mem_flatten (List.mem_map.mpr ⟨run, hrun, rfl⟩)
    have := hrows run.1 run.2 hrow
    omega

end Animation

end ChipEight
