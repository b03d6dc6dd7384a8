import ChipEight.Proofs.Halting
import ChipEight.Proofs.LikeHosts
import ChipEight.Proofs.Stores

/-!
# What a keyboard reports

A report is a list of integers, and only their residues modulo 16 say which keys are down: reports that
name the same keys put the same keys down (`Keypad.ofReport_eq`).

With a keyboard attached, every cycle that is not refused begins with a report, which replaces whatever
keys were down before. So the owner's own pressing and releasing between two cycles has no effect on
the later one (`Computer.cycle_withKeys`), and calls do the same as the cycles among them alone, except
for the keys (`Computer.calls_eq_withKeys`). Two computers whose keyboards name the same keys so agree in
everything but the keys, and after a cycle in the keys too (`reports_matter_modulo_sixteen`).
-/

namespace ChipEight

/-- The reports name the same keys. -/
def SameKeys (first second : List Int) : Prop :=
  ∀ residue, (∃ number ∈ first, number % 16 = residue) ↔ ∃ number ∈ second, number % 16 = residue

namespace Keypad

theorem isDown_press {keypad : Keypad} (hsize : keypad.down.size = 16) (number : Int) (k : Nat) :
    (keypad.press number).isDown k = true ↔ key number = k ∨ keypad.isDown k = true := by
  have hkey : key number < keypad.down.size := by
    rw [hsize]
    exact key_lt number
  rw [isDown, press, Bank.read_write]
  by_cases h : key number = k
  · simp [h, h ▸ hkey]
  · simp [h, isDown]

theorem isDown_foldl_press {keypad : Keypad} (hsize : keypad.down.size = 16) (numbers : List Int)
    (k : Nat) :
    (numbers.foldl press keypad).isDown k = true ↔
      (∃ number ∈ numbers, key number = k) ∨ keypad.isDown k = true := by
  induction numbers generalizing keypad with
  | nil => simp
  | cons number rest ih =>
      rw [List.foldl_cons, ih (by rw [size_press, hsize]), isDown_press hsize]
      simp [or_assoc, or_left_comm]

/-- Exactly the reported keys are down. -/
theorem isDown_ofReport (numbers : List Int) (k : Nat) :
    (ofReport numbers).isDown k = true ↔ ∃ number ∈ numbers, key number = k := by
  have hsize : released.down.size = 16 := Bank.size_replicate _ _
  have hreleased : released.isDown k = false := by
    simp only [isDown, released, Bank.read, Bank.replicate, Array.getD_eq_getD_getElem?,
      Array.getElem?_replicate]
    split <;> rfl
  rw [ofReport, isDown_foldl_press hsize, hreleased]
  simp

/-- The number of a key is the residue that the numbers of its reports have. -/
theorem isDown_ofReport_iff_residue (numbers : List Int) (k : Nat) :
    (ofReport numbers).isDown k = true ↔ ∃ number ∈ numbers, number % 16 = (k : Int) := by
  -- The computer takes the residue of each number, which is not negative even where the number is.
  have hresidue : ∀ number : Int, key number = k ↔ number % 16 = (k : Int) := by
    intro number
    simp only [key, size]
    omega
  simp only [isDown_ofReport, hresidue]

/-- Reports that name the same keys put the same keys down. -/
theorem ofReport_eq {first second : List Int} (h : SameKeys first second) :
    ofReport second = ofReport first := by
  have hdown : (ofReport second).down = (ofReport first).down := by
    apply Bank.ext_read (by rw [size_ofReport, size_ofReport])
    intro k
    apply Bool.eq_iff_iff.mpr
    exact ((isDown_ofReport_iff_residue second k).trans (h k).symm).trans
      (isDown_ofReport_iff_residue first k).symm
  exact congrArg Keypad.mk hdown

end Keypad

/-- The host with a keyboard. -/
def Host.watching (host : Host) (report : Nat → List Int) : Host :=
  { host with reports := some report }

theorem Host.waitsLike_watching (host : Host) {first second : Nat → List Int}
    (h : ∀ i, SameKeys (first i) (second i)) :
    (host.watching first).WaitsLike (host.watching second) where
  refresh_eq := by
    funext keys usage
    rw [refresh_of_reports rfl, refresh_of_reports rfl, Keypad.ofReport_eq (h usage.polls)]
  pollInterval_eq := rfl
  keyWait_eq := rfl

/-! ## Keys that are overwritten

The keys of a computer are read by its cycles, and a cycle begins by overwriting them. Only a
refused cycle does not, and that one does not read them either. So the owner's calls between two
cycles can be left out, as long as the keys are left out of the comparison too. -/

/-- How long the surroundings let the computer sleep in the cycle of a call, if it makes one. -/
def Call.patience? : Call → Option Nat
  | .step patience => some patience
  | _ => none

/-- The cycles among calls, as told by their patience. -/
def patiences (requests : List Call) : List Nat := requests.filterMap Call.patience?

namespace Computer

variable {host : Host} {report : Nat → List Int} {computer : Computer}

/-- The computer with other keys down. -/
def withKeys (computer : Computer) (keys : Keypad) : Computer :=
  { computer with state := { computer.state with keys := keys } }

/-- A cycle begins with a report, so it does not see which keys were down before. -/
theorem cycle_withKeys (h : host.reports = some report) (hhalt : computer.state.halt = none)
    (keys : Keypad) (patience : Nat) :
    (computer.withKeys keys).cycle host patience = computer.cycle host patience := by
  let usage : Usage := { computer.usage with patience := patience }
  let other : State := { computer.state with keys := keys }
  have hfetched : other.fetched host usage = computer.state.fetched host usage := by
    rw [State.fetched, State.fetched, Host.refresh_of_reports h, Host.refresh_of_reports h]
    rfl
  -- The report replaces the keys, so the fetched states are equal and not only alike.
  have husage : other.fetchUsage host usage = computer.state.fetchUsage host usage := by
    rw [State.fetchUsage, State.fetchUsage, Host.refresh_of_reports h, Host.refresh_of_reports h]
  exact State.step_congr hhalt hhalt rfl rfl hfetched husage fun _ _ => rfl

/-- A refused cycle leaves the keys as they are, and everything else. -/
theorem cycle_withKeys_of_halted (host : Host) {cause : Trap}
    (hhalt : computer.state.halt = some cause) (keys : Keypad) (patience : Nat) :
    let cycle := computer.cycle host patience
    (computer.withKeys keys).cycle host patience =
      { cycle with state := { cycle.state with keys := keys } } := by
  have hhalt' : (computer.withKeys keys).state.halt = some cause := hhalt
  rw [cycle_of_halted hhalt, cycle_of_halted hhalt']
  rfl

/-- Whatever keys were down before a cycle, they are all that can be different after it. -/
theorem exists_cycle_withKeys (h : host.reports = some report) (computer : Computer) (keys : Keypad)
    (patience : Nat) :
    let cycle := computer.cycle host patience
    ∃ seen, (computer.withKeys keys).cycle host patience =
      { cycle with state := { cycle.state with keys := seen } } := by
  cases hhalt : computer.state.halt with
  | none => exact ⟨_, cycle_withKeys h hhalt keys patience⟩
  | some cause => exact ⟨keys, cycle_withKeys_of_halted host hhalt keys patience⟩

/-- Calls of cycles and of keys do the same as the cycles alone, except that other keys may be down. -/
theorem calls_eq_withKeys (host : Host) (h : host.reports = some report) {requests : List Call}
    (hkeep : ∀ request ∈ requests, request.KeepsMemory) (computer : Computer) (keys : Keypad) :
    let cycles := (patiences requests).map Call.step
    (computer.withKeys keys).outcomes host requests = computer.outcomes host cycles ∧
      ∃ seen, (computer.withKeys keys).calls host requests =
        (computer.calls host cycles).withKeys seen := by
  induction requests generalizing computer keys with
  | nil => exact ⟨rfl, keys, rfl⟩
  | cons request rest ih =>
      have hfirst : request.KeepsMemory := hkeep request (by simp)
      have hrest : ∀ request ∈ rest, request.KeepsMemory := by
        intro request hmem
        exact hkeep request (by simp [hmem])
      cases request with
      | load rom => exact absurd rfl (hfirst.2 rom)
      | reset => exact absurd rfl hfirst.1
      | pressKey number => exact ih hrest computer (keys.press number)
      | releaseKey number => exact ih hrest computer (keys.release number)
      | setKeys numbers => exact ih hrest computer (Keypad.ofReport numbers)
      -- The cycle forgets the keys, and the rest goes on with those that it has seen.
      | step patience =>
          let next := computer.call host (.step patience)
          obtain ⟨seen, hcycle⟩ := exists_cycle_withKeys h computer keys patience
          have hcall : (computer.withKeys keys).call host (.step patience) = next.withKeys seen := by
            rw [call, hcycle]
            rfl
          obtain ⟨houtcomes, later, hcalls⟩ := ih hrest next seen
          have hcycles : (patiences (.step patience :: rest)).map Call.step =
              .step patience :: (patiences rest).map Call.step := rfl
          dsimp only
          rw [hcycles]
          refine ⟨?_, later, ?_⟩
          · rw [outcomes, outcomes, outcome?, outcome?, hcycle, hcall, houtcomes]
          · rw [calls_cons, calls_cons, hcall, hcalls]

/-- Two keyboards name the same keys in each of their reports, and the owners of two computers press
and release keys between the cycles as they like. The computers do the same, and take as many reports,
and after a cycle that was not refused they have the same keys down. -/
theorem reports_matter_modulo_sixteen (host : Host) {first second : Nat → List Int}
    (hsame : ∀ i, SameKeys (first i) (second i)) (computer : Computer)
    {requests requests' : List Call} (hkeep : ∀ request ∈ requests ++ requests', request.KeepsMemory)
    (hcycles : patiences requests' = patiences requests) :
    let one := computer.calls (host.watching first) requests
    let other := computer.calls (host.watching second) requests'
    computer.outcomes (host.watching second) requests' =
        computer.outcomes (host.watching first) requests ∧
      other.usage = one.usage ∧
      other.state = { one.state with keys := other.state.keys } ∧
      ∀ patience,
        let cycle := one.cycle (host.watching first) patience
        let cycle' := other.cycle (host.watching second) patience
        cycle'.outcome = cycle.outcome ∧ cycle'.usage = cycle.usage ∧
          ((∀ cause, cycle.outcome ≠ .refused cause) → cycle'.state = cycle.state) := by
  have hwaits := host.waitsLike_watching hsame
  -- The keyboards are all that is different, and they report the same keys.
  have hfinds : ∀ requests,
      computer.FindsSame (host.watching first) (host.watching second) requests := by
    intro requests earlier request later executed hsplit hexecuted
    exact .of_eq rfl rfl _ _
  -- Both computers are where the cycles alone would have led them, but for their keys.
  let common := computer.calls (host.watching first) ((patiences requests).map .step)
  obtain ⟨hcommon, hends⟩ :=
    FindsSame.calls_eq hwaits (hfinds ((patiences requests).map .step))
  obtain ⟨houtcomes, seen, hcalls⟩ := calls_eq_withKeys (host.watching first) rfl
    (fun request hmem => hkeep request (List.mem_append_left _ hmem)) computer computer.state.keys
  obtain ⟨houtcomes', seen', hcalls'⟩ := calls_eq_withKeys (host.watching second) rfl
    (fun request hmem => hkeep request (List.mem_append_right _ hmem)) computer computer.state.keys
  rw [hcycles] at houtcomes' hcalls'
  rw [hcommon] at hcalls'
  intro one other
  have hone : one = common.withKeys seen := hcalls
  have hother : other = common.withKeys seen' := hcalls'
  refine ⟨houtcomes'.trans (hends.trans houtcomes.symm), ?_, ?_, ?_⟩
  · rw [hone, hother]
    rfl
  · rw [hone, hother]
    rfl
  · intro patience
    rw [hone, hother]
    cases hhalt : common.state.halt with
    | none =>
        have hcycle : common.cycle (host.watching second) patience =
            common.cycle (host.watching first) patience := by
          apply cycle_eq_of_offersSame hwaits
          intro executed hexecuted
          exact .of_eq rfl rfl _ _
        dsimp only
        rw [cycle_withKeys rfl hhalt, cycle_withKeys rfl hhalt, hcycle]
        exact ⟨rfl, rfl, fun _ => rfl⟩
    -- Nothing is reported to a halted computer, and its cycle is refused.
    | some cause =>
        dsimp only
        rw [cycle_withKeys_of_halted _ hhalt, cycle_withKeys_of_halted _ hhalt,
          cycle_of_halted hhalt, cycle_of_halted hhalt]
        exact ⟨rfl, rfl, fun hrefused => absurd rfl (hrefused cause)⟩

/-- A program that waits for a key, skips the next word if the key is still down, and begins again. -/
def porter : Rom := [0xF3, 0x0A, 0xE3, 0x9E, 0x00, 0x00, 0x12, 0x00]

/-- A keyboard on which one key is down, by all its numbers, when it is asked for the third time. -/
def ring (numbers : List Int) (i : Nat) : List Int := if i = 2 then numbers else []

theorem porter_hears_modulo_sixteen :
    let computer := (new {}).calls {} [.load porter]
    let requests : List Call := [.pressKey 5, .step 2, .step 0, .releaseKey 5, .step 0]
    let requests' : List Call :=
      [.step 2, .setKeys [7, 3], .step 0, .pressKey (-1), .step 0, .pressKey 0x10]
    let one := computer.calls (Host.watching {} (ring [7])) requests
    let other := computer.calls (Host.watching {} (ring [23, -9])) requests'
    (∀ i, SameKeys (ring [7] i) (ring [23, -9] i)) ∧
      (∀ request ∈ requests ++ requests', request.KeepsMemory) ∧
      patiences requests' = patiences requests ∧
      computer.outcomes (Host.watching {} (ring [23, -9])) requests' =
        [.completed, .completed, .trapped (.unimplemented 0 0x204)] ∧
      other.usage.polls = 5 ∧ one.state.register 3 = 7 ∧
      one.state.keys.isDown 0 = false ∧ other.state.keys.isDown 0 = true ∧
      other.state = { one.state with keys := other.state.keys } := by
  intro computer requests requests' one other
  have hsame : ∀ i, SameKeys (ring [7] i) (ring [23, -9] i) := by
    intro i residue
    by_cases h : i = 2
    · simp [ring, h]
    · simp [ring, h]
  have hkeep : ∀ request ∈ requests ++ requests', request.KeepsMemory := by
    intro request hmem
    simp only [requests, requests', List.cons_append, List.nil_append, List.mem_cons,
      List.not_mem_nil, or_false] at hmem
    rcases hmem with rfl | rfl | rfl | rfl | rfl | rfl | rfl | rfl | rfl | rfl | rfl
    all_goals simp [Call.KeepsMemory]
  have hcycles : patiences requests' = patiences requests := rfl
  obtain ⟨houtcomes, husage, hstate, -⟩ :=
    reports_matter_modulo_sixteen {} hsame computer hkeep hcycles
  have hfirst : computer.outcomes (Host.watching {} (ring [7])) requests =
        [.completed, .completed, .trapped (.unimplemented 0 0x204)] ∧
      one.usage.polls = 5 ∧ one.state.register 3 = 7 ∧ one.state.keys.isDown 0 = false := by
    decide +kernel
  have hdown : other.state.keys.isDown 0 = true := by decide +kernel
  obtain ⟨hends, hpolls, hregister, hup⟩ := hfirst
  have hpolls' : other.usage.polls = 5 := by rw [husage, hpolls]
  exact ⟨hsame, hkeep, hcycles, houtcomes.trans hends, hpolls', hregister, hup, hdown, hstate⟩

end Computer

end ChipEight
