import ChipEight.Proofs.Frames
import ChipEight.Proofs.Pixels
import ChipEight.Proofs.WellFormed

/-!
# The report of a cycle

What a cycle reports as its changes are the pixels in which the screen after it differs from the one
before (`Screen.Differ`), each once and with its new value. Clearing and drawing have different
reasons for this, all other cycles report nothing. Whoever only sees the reports can therefore keep a
picture of the screen: set every reported pixel, and the picture is the screen
(`cycles_report_differences`).
-/

namespace ChipEight

/-- Where a pixel was set. -/
def Change.point (change : Change) : Nat × Nat := (change.x, change.y)

/-! ## Differences of screens

`Differ` does not mention the order of the changes. It says which pixels are listed, with which
value, and that none is listed twice, and this is all that replaying them needs. -/

namespace Screen

/-- The changes list the pixels that differ between two screens, each of them once and with its value
on the second screen. -/
structure Differ (before after : Screen) (changes : List Change) : Prop where
  mem_iff : ∀ x y lit, ⟨x, y, lit⟩ ∈ changes ↔
    OnScreen (x, y) ∧ before.lit x y ≠ after.lit x y ∧ lit = after.lit x y
  once : (changes.map Change.point).Nodup

/-- The screen with one pixel set to a value. -/
def set (screen : Screen) (change : Change) : Screen :=
  if screen.lit change.x change.y = change.lit then screen else screen.flip change.x change.y

namespace Differ

theorem refl (screen : Screen) : Differ screen screen [] where
  mem_iff x y lit := by simp
  once := List.nodup_nil

/-- Clearing changes the pixels that are lit. -/
theorem clear {screen : Screen} (hsize : screen.rows.size = height) :
    Differ screen blank (screen.litPoints.map fun (x, y) => ⟨x, y, false⟩) where
  mem_iff x y lit := by
    rw [lit_blank]
    constructor
    · intro hmem
      obtain ⟨⟨i, j⟩, hpoint, hchange⟩ := List.mem_map.mp hmem
      cases hchange
      obtain ⟨hon, hlit⟩ := (mem_litPoints hsize).mp hpoint
      exact ⟨hon, by simp [hlit], rfl⟩
    · rintro ⟨hon, hdiffers, rfl⟩
      have hlit : screen.lit x y = true := by simpa using hdiffers
      exact List.mem_map.mpr ⟨(x, y), (mem_litPoints hsize).mpr ⟨hon, hlit⟩, rfl⟩
  once := by
    rw [List.map_map]
    exact List.pairwise_map.mpr screen.litPoints_nodup

/-- Drawing on pixels that are all different changes these. -/
theorem draw {screen : Screen} (hsize : screen.rows.size = height) {points : List (Nat × Nat)}
    (hnodup : points.Nodup) (hpoints : ∀ p ∈ points, OnScreen p) :
    Differ screen (screen.draw points).screen (screen.draw points).changes := by
  have hlit := lit_draw hsize hnodup hpoints
  rw [changes_draw hsize hnodup hpoints]
  constructor
  · intro x y lit
    rw [hlit]
    constructor
    · intro hmem
      obtain ⟨⟨i, j⟩, hpoint, hchange⟩ := List.mem_map.mp hmem
      cases hchange
      exact ⟨hpoints _ hpoint, by simp [hpoint], by simp [hpoint]⟩
    · rintro ⟨-, hdiffers, rfl⟩
      -- A pixel that is no point of the figure keeps its value and would not differ.
      have hpoint : (x, y) ∈ points := by
        by_cases hpoint : (x, y) ∈ points
        · exact hpoint
        · simp [hpoint] at hdiffers
      exact List.mem_map.mpr ⟨(x, y), hpoint, by simp [hpoint]⟩
  · rw [List.map_map]
    show (points.map id).Nodup
    rwa [List.map_id]

end Differ

/-! ### Setting pixels

A picture is kept by setting each reported pixel to its reported value. No pixel is reported twice,
so the order does not matter: at a listed pixel the one change that is there decides, and elsewhere
the picture stays as it was. -/

theorem set_fits {screen : Screen} (h : screen.rows.Fits 32 (2 ^ 64)) (change : Change) :
    (screen.set change).rows.Fits 32 (2 ^ 64) := by
  unfold set
  split
  · exact h
  · exact flip_fits h _ _

theorem foldl_set_fits (changes : List Change) {screen : Screen}
    (h : screen.rows.Fits 32 (2 ^ 64)) :
    (changes.foldl set screen).rows.Fits 32 (2 ^ 64) := by
  induction changes generalizing screen with
  | nil => exact h
  | cons c cs ih => exact ih (set_fits h c)

/-- A pixel that is set has the value it was set to, and the others keep theirs. -/
theorem lit_set {screen : Screen} (hsize : screen.rows.size = height) {change : Change}
    (h : OnScreen change.point) (i j : Nat) :
    (screen.set change).lit i j = if change.point = (i, j) then change.lit else screen.lit i j := by
  unfold set
  split
  · next hsame =>
    split
    · next hpoint =>
      cases hpoint
      exact hsame
    · rfl
  · next hdiffers =>
    rw [show screen.flip change.x change.y = screen.flip change.point.1 change.point.2 from rfl,
      lit_flip hsize h]
    split
    · next hpoint =>
      cases hpoint
      revert hdiffers
      cases screen.lit change.x change.y <;> cases change.lit <;> simp [Change.point]
    · next hpoint => simp [hpoint]

theorem lit_foldl_set_of_not_mem {changes : List Change} {screen : Screen}
    (hfits : screen.rows.Fits 32 (2 ^ 64)) (hon : ∀ c ∈ changes, OnScreen c.point)
    {i j : Nat} (h : ∀ c ∈ changes, c.point ≠ (i, j)) :
    (changes.foldl set screen).lit i j = screen.lit i j := by
  induction changes generalizing screen with
  | nil => rfl
  | cons c cs ih =>
      rw [List.foldl_cons, ih (set_fits hfits c) (fun d hd => hon d (by simp [hd]))
        (fun d hd => h d (by simp [hd])), lit_set hfits.size_eq (hon c (by simp)),
        if_neg (h c (by simp))]

theorem lit_foldl_set_of_mem {changes : List Change} {screen : Screen}
    (hfits : screen.rows.Fits 32 (2 ^ 64)) (hon : ∀ c ∈ changes, OnScreen c.point)
    (honce : (changes.map Change.point).Nodup) {change : Change} (h : change ∈ changes) :
    (changes.foldl set screen).lit change.x change.y = change.lit := by
  induction changes generalizing screen with
  | nil => cases h
  | cons c cs ih =>
      have hrest : ∀ d ∈ cs, OnScreen d.point := fun d hd => hon d (by simp [hd])
      obtain ⟨hfresh, honce⟩ := List.nodup_cons.mp honce
      rw [List.foldl_cons]
      rcases List.mem_cons.mp h with rfl | hmem
      · -- No later change is at the same pixel.
        have hkept : ∀ d ∈ cs, d.point ≠ (change.x, change.y) := by
          intro d hd hsame
          exact hfresh (List.mem_map.mpr ⟨d, hd, hsame⟩)
        rw [lit_foldl_set_of_not_mem (set_fits hfits change) hrest hkept,
          lit_set hfits.size_eq (hon change (by simp))]
        exact if_pos rfl
      · exact ih (set_fits hfits c) hrest honce hmem

/-- Setting the pixels that differ turns the first screen into the second. -/
theorem Differ.foldl_set {before after : Screen} {changes : List Change}
    (h : Differ before after changes) (hbefore : before.rows.Fits 32 (2 ^ 64))
    (hafter : after.rows.Fits 32 (2 ^ 64)) : changes.foldl set before = after := by
  have hon : ∀ c ∈ changes, OnScreen c.point := by
    intro c hc
    exact ((h.mem_iff c.x c.y c.lit).mp hc).1
  apply ext_lit (foldl_set_fits changes hbefore) hafter
  intro x y
  -- A pixel that no change lists has the same value on both screens.
  by_cases hlisted : ∃ c ∈ changes, c.point = (x, y)
  · obtain ⟨c, hc, hpoint⟩ := hlisted
    cases hpoint
    rw [lit_foldl_set_of_mem hbefore hon h.once hc]
    exact ((h.mem_iff c.x c.y c.lit).mp hc).2.2
  · have hother : ∀ c ∈ changes, c.point ≠ (x, y) := by
      intro c hc hpoint
      exact hlisted ⟨c, hc, hpoint⟩
    rw [lit_foldl_set_of_not_mem hbefore hon hother]
    by_cases hscreen : OnScreen (x, y)
    · apply Decidable.byContradiction
      intro hdiffers
      exact hother _ ((h.mem_iff x y _).mpr ⟨hscreen, hdiffers, rfl⟩) rfl
    · rw [lit_eq_false hbefore.size_eq hscreen, lit_eq_false hafter.size_eq hscreen]

end Screen

/-! ## One cycle

Fetching empties the report, and only clearing and drawing fill it. A cycle that does not complete
leaves the screen as it was and reports nothing. -/

namespace State

variable {state : State}

/-- An instruction that starts with an empty report ends with the pixels it has changed. -/
theorem InRange.execute_changes (h : state.InRange) (hchanges : state.changes = [])
    {instruction : Instruction} (hi : instruction.InRange) (host : Host) (word : Nat)
    (usage : Usage) :
    let after := (ChipEight.execute host word instruction state usage).state
    Screen.Differ state.screen after.screen after.changes := by
  cases instruction with
  | clear => exact Screen.Differ.clear h.rows.size_eq
  -- A sprite has at most 15 rows, fewer than the screen, so no two of its points fall on one pixel.
  | draw x y rows =>
      have hlength : (Memory.bytes state.memory state.index rows).length ≤ Screen.height := by
        rw [Memory.length_bytes]
        exact Nat.le_of_lt (Nat.lt_trans hi.2.2 (by decide))
      exact Screen.Differ.draw h.rows.size_eq (Sprite.points_nodup _ _ hlength)
        (fun _ => Sprite.onScreen_of_mem_points)
  | _ =>
      dsimp only
      rw [(execute_display (by simp) (by simp)).1, (execute_display (by simp) (by simp)).2.2,
        hchanges]
      exact Screen.Differ.refl _

/-- However a cycle of a computer that is not halted ends, it reports the pixels it has changed. -/
theorem InRange.step_changes (h : state.InRange) (hhalt : state.halt = none) (host : Host)
    (usage : Usage) :
    let after := (state.step host usage).state
    Screen.Differ state.screen after.screen after.changes := by
  cases step_ends hhalt host usage with
  | completed instruction decoded carried state_eq =>
      -- The timers are not on the screen, and fetching has emptied the report.
      simp only [state_eq]
      exact (h.fetched host usage).execute_changes rfl (Instruction.decode_inRange decoded) host _ _
  | stalled x decoded result result_eq expired state_eq =>
      simp only [state_eq]
      exact Screen.Differ.refl _
  | abandoned x decoded result result_eq error given_up state_eq =>
      simp only [state_eq]
      exact Screen.Differ.refl _
  | trapped trap traps state_eq =>
      simp only [state_eq]
      exact Screen.Differ.refl _

end State

/-! ## Runs

Replaying is a fold over the reports of all calls. One call moves the picture from one screen to the
next, and the run follows by induction on the calls. A reset is left out: it clears the screen and
reports nothing. -/

namespace Computer

variable {host : Host} {computer : Computer}

/-- The changes that a call reports: those of its cycle, if it makes one. -/
def report (host : Host) (computer : Computer) : Call → List Change
  | .step patience => (computer.cycle host patience).state.changes
  | _ => []

/-- The changes that calls report, one call after the other. -/
def reports (host : Host) (computer : Computer) : List Call → List Change
  | [] => []
  | request :: rest =>
    computer.report host request ++ (computer.call host request).reports host rest

/-- A call other than a reset changes the screen by what it reports. -/
theorem foldl_set_report (h : computer.state.WellFormed) {request : Call}
    (hreset : request ≠ .reset) :
    (computer.report host request).foldl Screen.set computer.state.screen =
      (computer.call host request).state.screen := by
  cases request with
  | load rom =>
      by_cases hsize : rom.length > Memory.programCapacity
      · simp [report, call, State.load, hsize]
      · simp [report, call, State.load, State.install, hsize]
  | reset => exact absurd rfl hreset
  | pressKey number => rfl
  | releaseKey number => rfl
  | setKeys numbers => rfl
  | step patience =>
      cases hhalt : computer.state.halt with
      | none =>
          have hafter := h.toInRange.step host { computer.usage with patience := patience }
          exact (h.toInRange.step_changes hhalt host _).foldl_set h.rows hafter.rows
      | some cause =>
          -- The report that a halted computer still shows is that of its trap, which is empty.
          have hchanges : computer.state.changes = [] := by
            apply h.changes_eq_nil
            apply h.not_redrawn_of_halted
            simp [hhalt]
          have hcycle : (computer.cycle host patience).state = computer.state := by
            rw [cycle, State.step, State.stepWith_of_halted hhalt]
          simp only [report, call, hcycle, hchanges]
          rfl

/-- Calls other than a reset change the screen by what they report. -/
theorem foldl_set_reports (h : computer.state.WellFormed) {requests : List Call}
    (hreset : Call.reset ∉ requests) :
    (computer.reports host requests).foldl Screen.set computer.state.screen =
      (computer.calls host requests).state.screen := by
  induction requests generalizing computer with
  | nil => rfl
  | cons request rest ih =>
      have hfirst : request ≠ .reset := fun hsame => hreset (by simp [hsame])
      have hrest : Call.reset ∉ rest := fun hmem => hreset (by simp [hmem])
      rw [reports, List.foldl_append, foldl_set_report h hfirst, calls_cons]
      exact ih (call_wellFormed h request) hrest

/-- A cycle of a reachable computer that is not halted reports the pixels that it has changed, however
it ends. So the reports of all calls, without a reset among them, set on a blank screen what a new
computer shows after them. -/
theorem cycles_report_differences (host : Host) :
    (∀ computer, Reachable host computer → computer.state.halt = none → ∀ patience,
      let after := (computer.cycle host patience).state
      Screen.Differ computer.state.screen after.screen after.changes) ∧
    ∀ usage requests, Call.reset ∉ requests →
      ((new usage).reports host requests).foldl Screen.set Screen.blank =
        ((new usage).calls host requests).state.screen := by
  constructor
  · intro computer hreachable hhalt patience
    exact hreachable.wellFormed.toInRange.step_changes hhalt host _
  · intro usage requests hreset
    have hnew : (new usage).state.WellFormed := .powerOn none
    exact foldl_set_reports hnew hreset

/-- A new computer with a program that draws the digit 0 in the upper left corner. -/
def zeroDrawer : Computer := (new {}).calls {} [.load [0xD0, 0x05]]

theorem zeroDrawer_reports_differences :
    Reachable {} zeroDrawer ∧ zeroDrawer.state.halt = none ∧
      ⟨3, 4, true⟩ ∈ (zeroDrawer.cycle {} 0).state.changes ∧
      Screen.Differ zeroDrawer.state.screen (zeroDrawer.cycle {} 0).state.screen
        (zeroDrawer.cycle {} 0).state.changes ∧
      Call.reset ∉ [Call.load [0xD0, 0x05], .step 0] ∧
      ((new {}).reports {} [.load [0xD0, 0x05], .step 0]).foldl Screen.set Screen.blank =
        ((new {}).calls {} [.load [0xD0, 0x05], .step 0]).state.screen := by
  have hreachable : Reachable {} zeroDrawer := ⟨{}, _, rfl⟩
  have hreset : Call.reset ∉ [Call.load [0xD0, 0x05], .step 0] := by decide
  refine ⟨hreachable, rfl, by decide +kernel, ?_, hreset, ?_⟩
  · exact (cycles_report_differences {}).1 zeroDrawer hreachable rfl 0
  · exact (cycles_report_differences {}).2 {} _ hreset

end Computer

end ChipEight
