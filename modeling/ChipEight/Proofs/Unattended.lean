import ChipEight.Proofs.Display
import ChipEight.Proofs.Halting
import ChipEight.Proofs.Surroundings

/-!
# Computers that are left alone

Nobody presses a key, and there is no time to wait for one: a computer on such a host is left alone
(`Host.LeavesAlone`). It never gives a wait up, and whether it has no keyboard or one that reports
nothing makes no difference to it (`State.step_leftAlone`). An instruction that waits for a key is the
end of its program, because every later cycle stalls there again (`Computer.steps_of_stalled`).

`Computer.steps` makes cycle after cycle, also past one that is trapped. There is at most one trap, and
the computer is halted by it ever after (`Computer.halt_eq_some_iff`). What can become of a program that
is run for a number of cycles is so one of two failures or none (`Rom.FailsWithin`).
-/

namespace ChipEight

/-! ## Hosts

Two kinds of hosts leave a computer alone: those without a keyboard, and those whose keyboard
reports nothing. All that is used of either is that no key is pressed after a look at it. -/

namespace Host

variable {host : Host}

/-- Nobody presses a key, and there is no time to wait for one. -/
structure LeavesAlone (host : Host) : Prop where
  keyWait_eq : host.keyWait = some (.whole 0)
  refresh_released : ∀ usage, (host.refresh Keypad.released usage).1 = Keypad.released

theorem LeavesAlone.of_no_keyboard (hwait : host.keyWait = some (.whole 0))
    (h : host.reports = none) : host.LeavesAlone where
  keyWait_eq := hwait
  refresh_released usage := by rw [refresh, h]

theorem LeavesAlone.of_no_keys (hwait : host.keyWait = some (.whole 0))
    (h : host.reports = some fun _ => []) : host.LeavesAlone where
  keyWait_eq := hwait
  refresh_released usage := by
    rw [refresh, h]
    rfl

/-- The one look at the keyboard is in vain. -/
theorem LeavesAlone.awaitKey_eq (h : host.LeavesAlone) (usage : Usage) :
    host.awaitKey Keypad.released usage =
      ⟨.expired, Keypad.released, (host.refresh Keypad.released usage).2⟩ := by
  have hnone : Keypad.released.lowest = none := by decide
  rw [awaitKey_of_no_time h.keyWait_eq, h.refresh_released, hnone]

end Host

/-! ## Cycles

What a cycle may do without time to wait. It never gives a wait up and uses no patience, so it goes
on or runs into a trap. -/

section

variable {host host' : Host} {word : Nat} {instruction : Instruction} {state : State}
  {usage usage' : Usage}

/-- Only a wait for a key looks at the keyboard. -/
theorem keys_execute (hwait : ∀ x, instruction ≠ .awaitKey x) :
    (execute host word instruction state usage).state.keys = state.keys := by
  cases instruction with
  | awaitKey x => exact absurd rfl (hwait x)
  | ret => rw [execute_ret]
  | call address => rw [execute_call]
  | skipIfByte | skipUnlessByte | skipIfSame | skipUnlessSame | skipIfDown | skipUnlessDown =>
      simp [execute, State.skipIf_eq]
  | addToIndex x => simp [execute, State.addToIndex_eq]
  | store | load => simp [execute, State.passBytes_eq, State.writeMemory]
  | _ => rfl

/-- Without time to wait nothing is taken from the patience of the surroundings. -/
theorem patience_execute (h : host.keyWait = some (.whole 0)) :
    (execute host word instruction state usage).usage.patience = usage.patience := by
  by_cases hwait : ∃ x, instruction = .awaitKey x
  · -- A wait looks once, and a look takes no time.
    obtain ⟨x, rfl⟩ := hwait
    have hseen : (host.refresh state.keys usage).2.patience = usage.patience := by
      rw [Host.refresh_usage]
    cases hkey : (host.refresh state.keys usage).1.lowest <;>
      simp [execute, Host.awaitKey_of_no_time h, hkey, hseen]
  · have hother : ∀ x, instruction ≠ .awaitKey x := fun x hx => hwait ⟨x, hx⟩
    rw [(execute_agree word state rfl rfl rfl hother).2.2]

namespace State

/-- Without time to wait no wait is given up. -/
theorem step_ne_abandoned (h : host.keyWait = some (.whole 0)) (error : Wait.Error) :
    (state.step host usage).outcome ≠ .abandoned error := by
  intro habandoned
  cases hhalt : state.halt with
  | some cause =>
      rw [step, stepWith_of_halted hhalt] at habandoned
      cases habandoned
  | none =>
      cases step_ends hhalt host usage with
      -- The one look has ended in a key or in vain.
      | abandoned x decoded result result_eq error' given_up =>
          rw [Host.awaitKey_of_no_time h] at result_eq
          rw [← result_eq] at given_up
          dsimp only at given_up
          split at given_up <;> cases given_up
      | completed instruction decoded carried state_eq usage_eq outcome_eq =>
          rw [outcome_eq] at habandoned
          cases habandoned
      | stalled x decoded result result_eq expired state_eq usage_eq outcome_eq =>
          rw [outcome_eq] at habandoned
          cases habandoned
      | trapped trap traps state_eq usage_eq outcome_eq =>
          rw [outcome_eq] at habandoned
          cases habandoned

theorem patience_step (h : host.keyWait = some (.whole 0)) :
    (state.step host usage).usage.patience = usage.patience := by
  have hfetch : (state.fetchUsage host usage).patience = usage.patience := by
    rw [fetchUsage, Host.refresh_usage]
  cases hhalt : state.halt with
  | some cause => rw [step, stepWith_of_halted hhalt]
  | none =>
      cases step_ends hhalt host usage with
      | completed instruction decoded carried state_eq usage_eq =>
          rw [usage_eq, patience_execute h, hfetch]
      | stalled x decoded result result_eq expired state_eq usage_eq =>
          rw [usage_eq, ← result_eq, Host.awaitKey_of_no_time h, ← hfetch]
          dsimp only
          rw [Host.refresh_usage]
      | abandoned x decoded result result_eq error given_up state_eq usage_eq outcome_eq =>
          exact absurd outcome_eq (step_ne_abandoned h error)
      | trapped trap traps state_eq usage_eq => rw [usage_eq, hfetch]

/-- Without time to wait, a cycle of a computer that is not halted goes on or is trapped. -/
theorem step_goesOn_or_trapped (hhalt : state.halt = none) (h : host.keyWait = some (.whole 0)) :
    ((state.step host usage).outcome.goesOn = true ∧ (state.step host usage).state.halt = none) ∨
      ∃ trap, (state.step host usage).outcome = .trapped trap ∧
        (state.step host usage).state.halt = some trap := by
  cases step_ends hhalt host usage with
  | completed instruction decoded carried state_eq usage_eq outcome_eq =>
      refine .inl ⟨by rw [outcome_eq]; rfl, ?_⟩
      rw [state_eq]
      exact execute_record.2.1.trans hhalt
  | stalled x decoded result result_eq expired state_eq usage_eq outcome_eq =>
      refine .inl ⟨by rw [outcome_eq]; rfl, ?_⟩
      rw [state_eq]
      exact hhalt
  | abandoned x decoded result result_eq error given_up state_eq usage_eq outcome_eq =>
      exact absurd outcome_eq (step_ne_abandoned h error)
  | trapped trap traps state_eq usage_eq outcome_eq =>
      exact .inr ⟨trap, outcome_eq, by rw [state_eq]⟩

/-! ### Without keys

Computers that are left alone see no key, ever. So a wait stalls, and no other instruction can tell
whether there is a keyboard. -/

/-- A computer that is left alone sees no key. -/
theorem keys_step_leftAlone (h : host.LeavesAlone) (hkeys : state.keys = Keypad.released) :
    (state.step host usage).state.keys = Keypad.released := by
  have hrefresh : (host.refresh state.keys usage).1 = Keypad.released := by
    rw [hkeys, h.refresh_released]
  have hwait : (host.awaitKey (host.refresh state.keys usage).1
      (state.fetchUsage host usage)).keys = Keypad.released := by
    rw [hrefresh, h.awaitKey_eq]
  cases hhalt : state.halt with
  | some cause =>
      rw [step, stepWith_of_halted hhalt]
      exact hkeys
  | none =>
      cases step_ends hhalt host usage with
      | completed instruction decoded carried state_eq =>
          rw [state_eq]
          by_cases hwaits : ∃ x, instruction = .awaitKey x
          · obtain ⟨x, rfl⟩ := hwaits
            -- Nobody has pressed a key, so the wait cannot have been carried out.
            simp [execute, fetched, beginCycle, hrefresh, h.awaitKey_eq] at carried
          · exact (keys_execute fun x hx => hwaits ⟨x, hx⟩).trans hrefresh
      | stalled x decoded result result_eq expired state_eq =>
          rw [state_eq, ← result_eq]
          exact hwait
      | abandoned x decoded result result_eq error given_up state_eq =>
          rw [state_eq, ← result_eq]
          exact hwait
      | trapped trap traps state_eq =>
          rw [state_eq]
          exact hrefresh

/-- A wait for a key of a computer that is left alone stalls and leaves everything as it was, but for
the report of the cycle. -/
theorem step_of_awaitKey (usage : Usage) (h : host.LeavesAlone)
    (hkeys : state.keys = Keypad.released) (hpc : state.pc < 4096) (hhalt : state.halt = none) {x : Nat}
    (hd : Encoding.decode Instruction.table state.nextWord = some (.awaitKey x)) :
    (state.step host usage).state = { state with redrawn := false, changes := [] } ∧
      (state.step host usage).outcome = .stalled ∧
      (state.step host usage).usage.drawn = usage.drawn := by
  have hrefresh : (host.refresh state.keys usage).1 = Keypad.released := by
    rw [hkeys, h.refresh_released]
  have hresult : host.awaitKey (host.refresh state.keys usage).1 (state.fetchUsage host usage) =
      ⟨.expired, Keypad.released, (host.refresh Keypad.released (state.fetchUsage host usage)).2⟩ := by
    rw [hrefresh, h.awaitKey_eq]
  obtain ⟨hstate, husage, houtcome⟩ := step_of_expired host usage hhalt hd hresult rfl
  refine ⟨?_, houtcome, ?_⟩
  · -- The computer is back at the wait.
    rw [hstate, Memory.previous_next hpc, ← hkeys]
    rfl
  · rw [husage]
    dsimp only
    rw [Host.refresh_usage]
    exact fetchUsage_drawn host usage

/-- Computers that are left alone in the same state, with the same dialect and the same random bytes,
do the same, whether they have a keyboard or not. -/
theorem step_leftAlone (h : host.LeavesAlone) (h' : host'.LeavesAlone)
    (hdialect : host'.dialect = host.dialect) (hrandom : host'.random = host.random)
    (hdrawn : usage'.drawn = usage.drawn) (hkeys : state.keys = Keypad.released)
    (hpc : state.pc < 4096) :
    let first := state.step host usage
    let second := state.step host' usage'
    second.state = first.state ∧ second.outcome = first.outcome ∧
      second.usage.drawn = first.usage.drawn := by
  intro first second
  cases hhalt : state.halt with
  | some cause =>
      have hfirst : first = ⟨state, usage, .refused cause, []⟩ := stepWith_of_halted hhalt host usage
      have hsecond : second = ⟨state, usage', .refused cause, []⟩ :=
        stepWith_of_halted hhalt host' usage'
      rw [hfirst, hsecond]
      exact ⟨rfl, rfl, hdrawn⟩
  | none =>
      by_cases hwait : ∃ x, Encoding.decode Instruction.table state.nextWord = some (.awaitKey x)
      · -- Both stall at the wait.
        obtain ⟨x, hd⟩ := hwait
        obtain ⟨hstate, houtcome, hfirst⟩ := step_of_awaitKey usage h hkeys hpc hhalt hd
        obtain ⟨hstate', houtcome', hsecond⟩ :=
          step_of_awaitKey usage' h' hkeys hpc hhalt hd
        refine ⟨hstate'.trans hstate.symm, houtcome'.trans houtcome.symm, ?_⟩
        rw [hsecond, hfirst, hdrawn]
      · -- Any other instruction may read the keys, and they are the same.
        have hother : ∀ x, Encoding.decode Instruction.table state.nextWord ≠ some (.awaitKey x) :=
          fun x hx => hwait ⟨x, hx⟩
        have hkeys' : (host'.refresh state.keys usage').1 = (host.refresh state.keys usage).1 := by
          rw [hkeys, h.refresh_released, h'.refresh_released]
        obtain ⟨hstate, houtcome, husage⟩ := step_agree host host' usage usage' hhalt hdialect hrandom
          hdrawn hkeys' hother
        refine ⟨hstate, houtcome, ?_⟩
        rw [show second.usage = _ from husage]

end State

end

/-! ## Cycle after cycle

`steps` makes cycles without asking how they end, and `outcomeAt` and `paintsAt` tell of the single
ones. The frames of so many cycles are counted by `paintings`. -/

namespace Computer

variable {host host' : Host} {computer computer' : Computer} {trap : Trap}

/-- The computer after so many cycles, whatever becomes of them. -/
def steps (host : Host) (computer : Computer) (count : Nat) : Computer :=
  computer.calls host (List.replicate count (.step 0))

/-- How the cycle ends that comes after `i` others. -/
def outcomeAt (host : Host) (computer : Computer) (i : Nat) : Outcome :=
  ((computer.steps host i).cycle host 0).outcome

/-- Whether the cycle that comes after `i` others completes an instruction that paints. -/
def paintsAt (host : Host) (computer : Computer) (i : Nat) : Bool :=
  ((computer.steps host i).executed? host (.step 0)).any (·.instruction.paints)

/-- How many of the first `count` cycles complete an instruction that paints. -/
def paintings (host : Host) (computer : Computer) (count : Nat) : Nat :=
  (List.range count).countP (computer.paintsAt host)

@[simp] theorem steps_zero : computer.steps host 0 = computer := rfl

theorem steps_succ (count : Nat) :
    computer.steps host (count + 1) = (computer.call host (.step 0)).steps host count := rfl

theorem steps_add (first second : Nat) :
    computer.steps host (first + second) = (computer.steps host first).steps host second := by
  rw [steps, ← List.replicate_append_replicate, calls_append]
  rfl

theorem steps_concat (count : Nat) :
    computer.steps host (count + 1) = (computer.steps host count).call host (.step 0) :=
  steps_add count 1

theorem paintings_succ (count : Nat) :
    computer.paintings host (count + 1) =
      (if computer.paintsAt host 0 then 1 else 0) +
        (computer.call host (.step 0)).paintings host count := by
  rw [paintings, List.range_succ_eq_map, List.countP_cons, List.countP_map, Nat.add_comm]
  rfl

theorem paintings_add (first second : Nat) :
    computer.paintings host (first + second) =
      computer.paintings host first + (computer.steps host first).paintings host second := by
  induction first generalizing computer with
  | zero => simp [paintings]
  | succ first ih =>
      rw [Nat.succ_add, paintings_succ, ih, paintings_succ, steps_succ, Nat.add_assoc]

theorem Reachable.steps (h : Reachable host computer) (count : Nat) :
    Reachable host (computer.steps host count) := h.calls _

theorem isSome_frame?_step : (computer.frame? host (.step 0)).isSome = computer.paintsAt host 0 := by
  rw [frame?, paintsAt, steps_zero]
  cases computer.executed? host (.step 0) with
  | none => rfl
  | some executed => cases hpaints : executed.instruction.paints <;> simp [hpaints]

/-- A cycle that does not fail has painted just when it says so. -/
theorem paintsAt_zero :
    let cycle := computer.cycle host 0
    computer.paintsAt host 0 = (cycle.outcome.goesOn && cycle.state.redrawn) := by
  intro cycle
  rw [← isSome_frame?_step, frame?_step]
  split <;> simp_all [cycle]

/-- The frames of the first `count` cycles, as many as there are cycles that paint. -/
theorem length_frames (count : Nat) :
    (computer.frames host (List.replicate count (.step 0))).length = computer.paintings host count := by
  induction count generalizing computer with
  | zero => rfl
  | succ count ih =>
      rw [List.replicate_succ, frames, List.length_append, ih, paintings_succ, ← isSome_frame?_step]
      cases computer.frame? host (.step 0) <;> rfl

/-! ### Traps

A trap is found once. The computer is halted by it from then on, and its cycles are refused. -/

theorem call_step_of_halted (h : computer.state.halt = some trap) :
    computer.call host (.step 0) = computer.ready 0 := by
  rw [call, cycle_of_halted h]
  rfl

/-- Nothing becomes of a computer that is halted, and it paints nothing. -/
theorem steps_of_halted (h : computer.state.halt = some trap) (hpatience : computer.usage.patience = 0)
    (count : Nat) : computer.steps host count = computer ∧ computer.paintings host count = 0 := by
  have hcall : computer.call host (.step 0) = computer := by
    rw [call_step_of_halted h, Computer.ready, ← hpatience]
  induction count with
  | zero => exact ⟨rfl, rfl⟩
  | succ count ih =>
      obtain ⟨hsteps, hpaintings⟩ := ih
      refine ⟨?_, ?_⟩
      · rw [steps_succ, hcall, hsteps]
      · rw [paintings_succ, hcall, hpaintings, paintsAt_zero, cycle_of_halted h]
        rfl

/-- Without time to wait, a computer that is not halted goes on, or it runs into the trap that halts it. -/
theorem cycle_goesOn_or_trapped (hhalt : computer.state.halt = none)
    (h : host.keyWait = some (.whole 0)) :
    ((computer.cycle host 0).outcome.goesOn = true ∧
        (computer.call host (.step 0)).state.halt = none) ∨
      ∃ trap, (computer.cycle host 0).outcome = .trapped trap ∧
        (computer.call host (.step 0)).state.halt = some trap :=
  State.step_goesOn_or_trapped hhalt h

/-- A computer is halted by the trap that one of its cycles has run into. No cycle after that one runs
into another. -/
theorem halt_eq_some_iff (h : host.keyWait = some (.whole 0)) (hhalt : computer.state.halt = none)
    (count : Nat) :
    (computer.steps host count).state.halt = some trap ↔
      ∃ i < count, computer.outcomeAt host i = .trapped trap := by
  induction count with
  | zero => simp [hhalt]
  | succ count ih =>
      have hearlier : (∃ i < count + 1, computer.outcomeAt host i = .trapped trap) ↔
          (computer.steps host count).state.halt = some trap ∨
            computer.outcomeAt host count = .trapped trap := by
        rw [ih, Nat.exists_lt_succ_right]
      rw [hearlier, steps_concat, outcomeAt]
      cases hcount : (computer.steps host count).state.halt with
      -- The last cycle is refused, so it has not run into a trap.
      | some cause =>
          rw [call_step_of_halted hcount, cycle_of_halted hcount]
          simp [Computer.ready, hcount]
      | none =>
          rcases cycle_goesOn_or_trapped hcount h with
            ⟨hgoesOn, hnone⟩ | ⟨first, htrapped, hhalted⟩
          · have hgoes : ((computer.steps host count).cycle host 0).outcome ≠ .trapped trap := by
              intro htrap
              rw [htrap] at hgoesOn
              cases hgoesOn
            simp [hnone, hgoes]
          · simp [htrapped, hhalted]

/-! ### Without keys

From cycle to cycle the computers stay alike by `State.step_leftAlone`. A wait that has stalled
leaves a computer that stalls at the same wait, so nothing becomes of it. -/

theorem keys_steps_leftAlone (h : host.LeavesAlone) (hkeys : computer.state.keys = Keypad.released)
    (count : Nat) : (computer.steps host count).state.keys = Keypad.released := by
  induction count with
  | zero => exact hkeys
  | succ count ih =>
      rw [steps_concat]
      exact State.keys_step_leftAlone h ih

/-- Computers that are left alone from the same state on, with the same dialect and the same random
bytes, go through the same states, and their cycles end alike. -/
theorem steps_leftAlone (h : host.LeavesAlone) (h' : host'.LeavesAlone)
    (hdialect : host'.dialect = host.dialect) (hrandom : host'.random = host.random)
    (hreachable : Reachable host computer) (hstate : computer'.state = computer.state)
    (hdrawn : computer'.usage.drawn = computer.usage.drawn)
    (hkeys : computer.state.keys = Keypad.released) (count : Nat) :
    (computer'.steps host' count).state = (computer.steps host count).state ∧
      (computer'.steps host' count).usage.drawn = (computer.steps host count).usage.drawn ∧
      computer'.outcomeAt host' count = computer.outcomeAt host count := by
  have hcycle : ∀ i, (computer'.steps host' i).state = (computer.steps host i).state →
      (computer'.steps host' i).usage.drawn = (computer.steps host i).usage.drawn →
      let first := (computer.steps host i).cycle host 0
      let second := (computer'.steps host' i).cycle host' 0
      second.state = first.state ∧ second.outcome = first.outcome ∧
        second.usage.drawn = first.usage.drawn := by
    intro i hstate hdrawn
    dsimp only [cycle]
    rw [hstate]
    exact State.step_leftAlone h h' hdialect hrandom hdrawn (keys_steps_leftAlone h hkeys i)
      (hreachable.steps i).wellFormed.pc_lt
  induction count with
  | zero => exact ⟨hstate, hdrawn, (hcycle 0 hstate hdrawn).2.1⟩
  | succ count ih =>
      obtain ⟨hstates, hdrawns, -⟩ := ih
      obtain ⟨hafter, -, hused⟩ := hcycle count hstates hdrawns
      have hafter' : (computer'.steps host' (count + 1)).state =
          (computer.steps host (count + 1)).state := by
        rw [steps_concat, steps_concat]
        exact hafter
      have hused' : (computer'.steps host' (count + 1)).usage.drawn =
          (computer.steps host (count + 1)).usage.drawn := by
        rw [steps_concat, steps_concat]
        exact hused
      exact ⟨hafter', hused', (hcycle (count + 1) hafter' hused').2.1⟩

/-- Such computers paint equally often. -/
theorem paintings_leftAlone (h : host.LeavesAlone) (h' : host'.LeavesAlone)
    (hdialect : host'.dialect = host.dialect) (hrandom : host'.random = host.random)
    (hreachable : Reachable host computer) (hstate : computer'.state = computer.state)
    (hdrawn : computer'.usage.drawn = computer.usage.drawn)
    (hkeys : computer.state.keys = Keypad.released) (count : Nat) :
    computer'.paintings host' count = computer.paintings host count := by
  have hsteps := steps_leftAlone h h' hdialect hrandom hreachable hstate hdrawn hkeys
  apply congrArg (List.countP · (List.range count))
  funext i
  have hpaints : ∀ (host : Host) (computer : Computer), computer.paintsAt host i =
      ((computer.outcomeAt host i).goesOn && (computer.steps host (i + 1)).state.redrawn) := by
    intro host computer
    rw [steps_concat]
    exact paintsAt_zero
  rw [hpaints, hpaints, (hsteps i).2.2, (hsteps (i + 1)).1]

/-- A wait for a key stalls again and again. It leaves everything as it was, but for the report of the
cycle. -/
theorem stalls_again (h : host.LeavesAlone) (hreachable : Reachable host computer)
    (hkeys : computer.state.keys = Keypad.released)
    (hstalled : computer.outcomeAt host 0 = .stalled) :
    let after := computer.call host (.step 0)
    after.state = { computer.state with redrawn := false, changes := [] } ∧
      after.outcomeAt host 0 = .stalled := by
  intro after
  have hhalt : computer.state.halt = none := by
    cases hhalt : computer.state.halt with
    | none => rfl
    | some trap =>
        rw [outcomeAt, steps_zero, cycle_of_halted hhalt] at hstalled
        cases hstalled
  have hpc := hreachable.wellFormed.pc_lt
  obtain ⟨x, hd⟩ := State.decode_of_stalled hstalled
  have hafter : after.state = { computer.state with redrawn := false, changes := [] } :=
    (State.step_of_awaitKey _ h hkeys hpc hhalt hd).1
  refine ⟨hafter, (State.step_of_awaitKey (x := x) _ h ?_ ?_ ?_ ?_).2.1⟩
  · rw [steps_zero, hafter]
    exact hkeys
  · rw [steps_zero, hafter]
    exact hpc
  · rw [steps_zero, hafter]
    exact hhalt
  · rw [steps_zero, hafter]
    exact hd

/-- Once a cycle has stalled, no later one changes anything or paints. -/
theorem steps_of_stalled (h : host.LeavesAlone) (hreachable : Reachable host computer)
    (hkeys : computer.state.keys = Keypad.released)
    (hstalled : computer.outcomeAt host 0 = .stalled) (count : Nat) :
    (computer.steps host (count + 1)).state =
        { computer.state with redrawn := false, changes := [] } ∧
      computer.paintings host (count + 1) = 0 := by
  have hpaints : ∀ computer : Computer, computer.outcomeAt host 0 = .stalled →
      computer.paintsAt host 0 = false := by
    intro computer hstalled
    rw [paintsAt_zero, show (computer.cycle host 0).state.redrawn = false from
      State.redrawn_of_stalled hstalled, Bool.and_false]
  -- The next cycle stalls again, so the computer after it is one to which all this applies.
  induction count generalizing computer with
  | zero =>
      refine ⟨(stalls_again h hreachable hkeys hstalled).1, ?_⟩
      rw [paintings_succ, hpaints computer hstalled]
      rfl
  | succ count ih =>
      obtain ⟨hafter, hagain⟩ := stalls_again h hreachable hkeys hstalled
      have hkeys' : (computer.call host (.step 0)).state.keys = Keypad.released := by
        rw [hafter]
        exact hkeys
      have hreachable' : Reachable host (computer.call host (.step 0)) := hreachable.calls [.step 0]
      obtain ⟨hstate, hpaintings⟩ := ih hreachable' hkeys' hagain
      refine ⟨?_, ?_⟩
      · rw [steps_succ, hstate, hafter]
      · rw [paintings_succ, hpaints computer hstalled, hpaintings]
        rfl

end Computer

/-! ## Programs

A program is run by a new computer that it has been loaded into. It fails when it does not fit, or
by the one trap that its computer has run into. -/

namespace Rom

/-- A new computer that the program has been loaded into. -/
def started (host : Host) (rom : Rom) : Computer := (Computer.new {}).call host (.load rom)

/-- How a program fails that a new computer is to run for so many cycles: it is too long, or one of the
cycles is trapped. -/
inductive FailsWithin (host : Host) (rom : Rom) (count : Nat) : Failure → Prop
  | oversized (too_long : Memory.programCapacity < rom.length) :
      FailsWithin host rom count (.oversized rom.length Memory.programCapacity)
  | trapped (fits : rom.length ≤ Memory.programCapacity) {i : Nat} (earlier : i < count) {trap : Trap}
      (traps : (rom.started host).outcomeAt host i = .trapped trap) :
      FailsWithin host rom count (.trap trap)

variable {host : Host} {rom : Rom} {count : Nat} {failure : Failure}

theorem started_of_le (h : rom.length ≤ Memory.programCapacity) :
    rom.started host = ⟨(State.initial.install rom).value, {}⟩ := by
  rw [started, Computer.call_load_of_le h]
  rfl

theorem reachable_started (host : Host) (rom : Rom) : Computer.Reachable host (rom.started host) :=
  ⟨{}, [.load rom], rfl⟩

theorem failsWithin_of_lt (h : Memory.programCapacity < rom.length) :
    rom.FailsWithin host count failure ↔
      failure = .oversized rom.length Memory.programCapacity := by
  constructor
  · rintro (⟨-⟩ | ⟨hfits, -, -⟩)
    · rfl
    · exact absurd hfits (Nat.not_le_of_lt h)
  · rintro rfl
    exact .oversized h

/-- A program that fits fails by the trap that halts its computer. -/
theorem failsWithin_of_le (hwait : host.keyWait = some (.whole 0))
    (h : rom.length ≤ Memory.programCapacity) :
    rom.FailsWithin host count failure ↔
      ((rom.started host).steps host count).state.halt.map .trap = some failure := by
  have hhalt : (rom.started host).state.halt = none := by
    rw [started_of_le h]
    rfl
  rw [Option.map_eq_some_iff]
  constructor
  · rintro (⟨hlong⟩ | ⟨-, hi, htrap⟩)
    · exact absurd h (Nat.not_le_of_lt hlong)
    · exact ⟨_, (Computer.halt_eq_some_iff hwait hhalt count).mpr ⟨_, hi, htrap⟩, rfl⟩
  · rintro ⟨trap, hhalted, rfl⟩
    obtain ⟨i, hi, htrap⟩ := (Computer.halt_eq_some_iff hwait hhalt count).mp hhalted
    exact .trapped h hi htrap

/-- A program does not fail just when it fits and its computer is still running. -/
theorem sound_iff (hwait : host.keyWait = some (.whole 0)) :
    (∀ failure, ¬ rom.FailsWithin host count failure) ↔
      rom.length ≤ Memory.programCapacity ∧
        ((rom.started host).steps host count).state.halt = none := by
  constructor
  · intro hsound
    have hfits : rom.length ≤ Memory.programCapacity :=
      Nat.le_of_not_lt fun hlong => hsound _ (.oversized hlong)
    refine ⟨hfits, Option.eq_none_iff_forall_ne_some.mpr fun trap hhalt => ?_⟩
    apply hsound (.trap trap)
    rw [failsWithin_of_le hwait hfits, hhalt]
    rfl
  · rintro ⟨hfits, hhalt⟩ failure hfails
    rw [failsWithin_of_le hwait hfits, hhalt] at hfails
    cases hfails

end Rom

end ChipEight
