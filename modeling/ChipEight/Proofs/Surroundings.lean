import ChipEight.Proofs.Execution

/-!
# What a cycle takes from its surroundings

Every cycle that is not refused takes a report from the keyboard, if there is one. After that an
instruction that does not wait for a key asks for nothing but the dialect and random bytes: on hosts
that agree in both it does the same (`State.step_agree`). A wait looks at the keyboard again and again;
it ends with the first report of a key, if its time lasts that long (`Host.watchKeys_eq_pressed`), and with
its time otherwise (`Host.watchKeys_eq_expired`). If it has no time it looks once
(`Host.awaitKey_of_no_time`).
-/

namespace ChipEight

/-! ## Instructions that do not wait

The two hosts may have different clocks, keyboards and limits, and may have been used differently.
What is left of them is compared field by field, and everything but the random bytes stays as each
host had it. -/

/-- An instruction that does not wait for a key does the same on hosts that agree in the dialect and the
random bytes, and uses up nothing but random bytes. -/
theorem execute_agree {host host' : Host} (word : Nat) {instruction : Instruction} (state : State)
    {usage usage' : Usage} (hdialect : host'.dialect = host.dialect)
    (hrandom : host'.random = host.random) (hdrawn : usage'.drawn = usage.drawn)
    (hwait : ∀ x, instruction ≠ .awaitKey x) :
    let first := execute host word instruction state usage
    let second := execute host' word instruction state usage'
    second.state = first.state ∧ second.outcome = first.outcome ∧
      second.usage = { usage' with drawn := first.usage.drawn } := by
  have husage : { usage' with drawn := usage.drawn } = usage' := by rw [← hdrawn]
  cases instruction with
  | awaitKey x => exact absurd rfl (hwait x)
  | ret =>
      by_cases hempty : state.depth = 0
      · rw [execute_ret_of_empty hempty, execute_ret_of_empty hempty]
        exact ⟨rfl, rfl, husage.symm⟩
      · rw [execute_ret_of_open hempty, execute_ret_of_open hempty]
        exact ⟨rfl, rfl, husage.symm⟩
  | call address =>
      by_cases hfull : State.stackCapacity ≤ state.depth
      · rw [execute_call_of_full hfull, execute_call_of_full hfull]
        exact ⟨rfl, rfl, husage.symm⟩
      · rw [execute_call_of_room hfull, execute_call_of_room hfull]
        exact ⟨rfl, rfl, husage.symm⟩
  | random x byte => simp [execute, hrandom, hdrawn]
  -- The dialect is all that these ask for.
  | addToIndex | store | load =>
      refine ⟨?_, rfl, husage.symm⟩
      simp [execute, hdialect]
  | _ => exact ⟨rfl, rfl, husage.symm⟩

namespace State

variable {state : State}

@[simp] theorem fetchUsage_drawn (host : Host) (usage : Usage) :
    (state.fetchUsage host usage).drawn = usage.drawn := by
  unfold fetchUsage Host.refresh
  split <;> rfl

/-- The same for a cycle, where the keyboards report the same keys. -/
theorem step_agree (host host' : Host) (usage usage' : Usage) (hhalt : state.halt = none)
    (hdialect : host'.dialect = host.dialect) (hrandom : host'.random = host.random)
    (hdrawn : usage'.drawn = usage.drawn)
    (hkeys : (host'.refresh state.keys usage').1 = (host.refresh state.keys usage).1)
    (hwait : ∀ x, Encoding.decode Instruction.table state.nextWord ≠ some (.awaitKey x)) :
    let first := state.step host usage
    let second := state.step host' usage'
    second.state = first.state ∧ second.outcome = first.outcome ∧
      second.usage = { state.fetchUsage host' usage' with drawn := first.usage.drawn } := by
  -- The same keys are fetched, so the instructions start from the same state.
  have hfetched : state.fetched host' usage' = state.fetched host usage := by
    rw [fetched, fetched, hkeys]
  have hdrawn' : (state.fetchUsage host' usage').drawn = (state.fetchUsage host usage).drawn := by
    rw [fetchUsage_drawn, fetchUsage_drawn, hdrawn]
  cases hd : Encoding.decode Instruction.table state.nextWord with
  | none =>
      rw [step, step, stepWith_of_decode_none hhalt hd, stepWith_of_decode_none hhalt hd, hfetched]
      refine ⟨rfl, rfl, ?_⟩
      dsimp only
      rw [← hdrawn']
  | some instruction =>
      have hinstruction : ∀ x, instruction ≠ .awaitKey x := by
        intro x hx
        exact hwait x (hx ▸ hd)
      obtain ⟨hstate, houtcome, husage⟩ := execute_agree state.nextWord (state.fetched host usage)
        hdialect hrandom hdrawn' hinstruction
      have hfirst := stepWith_of_decode_some hhalt hd host usage
      have hsecond := stepWith_of_decode_some hhalt hd host' usage'
      dsimp only at hfirst hsecond ⊢
      rw [step, step, hfirst, hsecond, hfetched]
      refine ⟨?_, ?_, ?_⟩
      · simp only [finish, houtcome]
        split <;> simp [hstate]
      · rw [finish_outcome, finish_outcome]
        exact houtcome
      · rw [finish_usage, finish_usage]
        exact husage

end State

/-! ## Waits

A wait is a loop of looks and sleeps, and `watchKeys_skip` goes through the looks in vain by
induction on their number. Each of the three ways in which the loop ends is what its next look finds
after that. -/

namespace Host

variable {host : Host} {report : Nat → List Int} {deadline : Option Quantity}

theorem refresh_of_reports (h : host.reports = some report) (keys : Keypad) (usage : Usage) :
    host.refresh keys usage =
      (Keypad.ofReport (report usage.polls), { usage with polls := usage.polls + 1 }) := by
  rw [refresh, h]

theorem refresh_usage (host : Host) (keys : Keypad) (usage : Usage) :
    (host.refresh keys usage).2 = { usage with polls := (host.refresh keys usage).2.polls } := by
  unfold refresh
  split <;> rfl

/-- Without time to wait a computer looks at the keyboard once. -/
theorem awaitKey_of_no_time (h : host.keyWait = some (.whole 0)) (keys : Keypad) (usage : Usage) :
    host.awaitKey keys usage =
      { wait :=
          match (host.refresh keys usage).1.lowest with
          | some key => .pressed key
          | none => .expired
        keys := (host.refresh keys usage).1
        usage := (host.refresh keys usage).2 } := by
  have hdeadline : host.deadline usage.clock = .ok (some (.whole usage.clock)) := by
    simp [deadline, h, Quantity.after]
  have husage := host.refresh_usage keys usage
  rw [awaitKey, hdeadline]
  dsimp only
  rw [watchKeys]
  generalize host.refresh keys usage = seen at husage ⊢
  obtain ⟨keys, after⟩ := seen
  dsimp only at husage ⊢
  rw [husage]
  -- The end of the wait is now, so the first look is the last one.
  cases keys.lowest with
  | some key => rfl
  | none => simp [Quantity.isOver]

/-- After so many looks in vain, and as many sleeps, a watch is one that begins with the report after
them. What was down at first is of no consequence, since every look begins with a report. -/
theorem watchKeys_skip (h : host.reports = some report) {tries patience : Nat}
    (hpatience : tries ≤ patience) {usage : Usage}
    (hnone : ∀ i < tries, (Keypad.ofReport (report (usage.polls + i))).lowest = none)
    (htime : ∀ i < tries,
      deadline.any (·.isOver (usage.clock + i * host.pollInterval)) = false) (keys keys' : Keypad) :
    host.watchKeys deadline patience keys usage =
      host.watchKeys deadline (patience - tries) keys'
        { usage with
          polls := usage.polls + tries
          clock := usage.clock + tries * host.pollInterval } := by
  induction tries generalizing patience keys usage with
  | zero =>
      rw [watchKeys, watchKeys, refresh_of_reports h, refresh_of_reports h]
      simp
  | succ tries ih =>
      -- A look in vain is followed by a sleep, so some patience is left.
      obtain ⟨rest, rfl⟩ : ∃ rest, patience = rest + 1 := ⟨patience - 1, by omega⟩
      have hfirst : (Keypad.ofReport (report usage.polls)).lowest = none := hnone 0 (by omega)
      have hrunning : deadline.any (·.isOver usage.clock) = false := by
        simpa using htime 0 (by omega)
      rw [watchKeys, refresh_of_reports h]
      simp only [hfirst, hrunning]
      -- What comes after the first look is a watch of its own, with one report and one sleep taken.
      have hclock : ∀ i : Nat, usage.clock + host.pollInterval + i * host.pollInterval =
          usage.clock + (i + 1 : Nat) * host.pollInterval := by
        intro i
        rw [Int.natCast_succ, Int.add_mul, Int.one_mul]
        omega
      rw [if_neg (by simp), ih (by omega)]
      · simp only [Nat.add_right_comm, hclock, Nat.add_assoc, Nat.add_sub_add_right]
      · intro i hi
        have hnext := hnone (i + 1) (by omega)
        rwa [Nat.add_comm i 1, ← Nat.add_assoc] at hnext
      · intro i hi
        have hnext := htime (i + 1) (by omega)
        rwa [← hclock] at hnext

/-- A watch ends with the first report of a key, if neither its time nor the patience is over before
that. -/
theorem watchKeys_eq_pressed (h : host.reports = some report) {tries patience : Nat}
    (hpatience : tries ≤ patience) {keys : Keypad} {usage : Usage} {key : Nat}
    (hnone : ∀ i < tries, (Keypad.ofReport (report (usage.polls + i))).lowest = none)
    (hkey : (Keypad.ofReport (report (usage.polls + tries))).lowest = some key)
    (htime : ∀ i < tries,
      deadline.any (·.isOver (usage.clock + i * host.pollInterval)) = false) :
    host.watchKeys deadline patience keys usage =
      { wait := .pressed key
        keys := Keypad.ofReport (report (usage.polls + tries))
        usage :=
          { drawn := usage.drawn
            polls := usage.polls + tries + 1
            clock := usage.clock + tries * host.pollInterval
            patience := patience - tries } } := by
  rw [watchKeys_skip h hpatience hnone htime keys keys, watchKeys, refresh_of_reports h]
  simp only [hkey]

/-- A watch without a key ends with the first look after its time is over. -/
theorem watchKeys_eq_expired (h : host.reports = some report) {tries patience : Nat}
    (hpatience : tries ≤ patience) {keys : Keypad} {usage : Usage}
    (hnone : ∀ i ≤ tries, (Keypad.ofReport (report (usage.polls + i))).lowest = none)
    (htime : ∀ i < tries,
      deadline.any (·.isOver (usage.clock + i * host.pollInterval)) = false)
    (hover : deadline.any (·.isOver (usage.clock + tries * host.pollInterval)) = true) :
    host.watchKeys deadline patience keys usage =
      { wait := .expired
        keys := Keypad.ofReport (report (usage.polls + tries))
        usage :=
          { drawn := usage.drawn
            polls := usage.polls + tries + 1
            clock := usage.clock + tries * host.pollInterval
            patience := patience - tries } } := by
  have hvain := hnone tries (Nat.le_refl tries)
  rw [watchKeys_skip h hpatience (fun i hi => hnone i (Nat.le_of_lt hi)) htime keys keys, watchKeys,
    refresh_of_reports h]
  simp only [hvain, hover, if_true]

/-- A watch without a key is given up when the surroundings do not let the computer sleep any more. -/
theorem watchKeys_eq_sleepless (h : host.reports = some report) {patience : Nat} {keys : Keypad}
    {usage : Usage}
    (hnone : ∀ i ≤ patience, (Keypad.ofReport (report (usage.polls + i))).lowest = none)
    (htime : ∀ i ≤ patience,
      deadline.any (·.isOver (usage.clock + i * host.pollInterval)) = false) :
    (host.watchKeys deadline patience keys usage).wait = .abandoned .sleepless := by
  have hvain := hnone patience (Nat.le_refl patience)
  have hrunning := htime patience (Nat.le_refl patience)
  rw [watchKeys_skip h (Nat.le_refl patience) (fun i hi => hnone i (Nat.le_of_lt hi))
    (fun i hi => htime i (Nat.le_of_lt hi)) keys keys, Nat.sub_self, watchKeys, refresh_of_reports h]
  simp [hvain, hrunning]

end Host

namespace State

variable {state : State}

/-- Only a wait for a key stalls. -/
theorem decode_of_stalled {host : Host} {usage : Usage}
    (h : (state.step host usage).outcome = .stalled) :
    ∃ x, Encoding.decode Instruction.table state.nextWord = some (.awaitKey x) := by
  cases hhalt : state.halt with
  | some cause =>
      rw [step, stepWith_of_halted hhalt] at h
      cases h
  | none =>
      -- Only a wait can stall or be given up; the other ends have another outcome.
      cases step_ends hhalt host usage with
      | stalled x decoded => exact ⟨x, decoded⟩
      | abandoned x decoded => exact ⟨x, decoded⟩
      | completed instruction decoded carried state_eq usage_eq outcome_eq =>
          rw [outcome_eq] at h
          cases h
      | trapped trap traps state_eq usage_eq outcome_eq =>
          rw [outcome_eq] at h
          cases h

/-- The state while an instruction waits for a key: fetched, with the keys that were seen last. -/
def awaiting (state : State) (keys : Keypad) : State :=
  { state.beginCycle keys with pc := Memory.next state.pc }

/-- A wait that ends with a key completes its cycle. -/
theorem step_of_pressed (host : Host) (usage : Usage) {x key : Nat} {result : Wait.Result}
    (hhalt : state.halt = none)
    (hd : Encoding.decode Instruction.table state.nextWord = some (.awaitKey x))
    (hresult : host.awaitKey (host.refresh state.keys usage).1 (state.fetchUsage host usage) = result)
    (hpressed : result.wait = .pressed key) :
    (state.step host usage).state = ((state.awaiting result.keys).setRegister x key).tick ∧
      (state.step host usage).usage = result.usage ∧
      (state.step host usage).outcome = .completed := by
  subst hresult
  have hstep := stepWith_of_decode_some hhalt hd host usage
  dsimp only at hstep
  rw [step, hstep]
  refine ⟨?_, ?_, ?_⟩
  all_goals simp [finish, execute, fetched, awaiting, beginCycle, setRegister, hpressed]

/-- A wait whose time is over stalls its cycle, and `pc` goes back to the instruction. -/
theorem step_of_expired (host : Host) (usage : Usage) {x : Nat} {result : Wait.Result}
    (hhalt : state.halt = none)
    (hd : Encoding.decode Instruction.table state.nextWord = some (.awaitKey x))
    (hresult : host.awaitKey (host.refresh state.keys usage).1 (state.fetchUsage host usage) = result)
    (hexpired : result.wait = .expired) :
    (state.step host usage).state =
        { state.awaiting result.keys with pc := Memory.previous (Memory.next state.pc) } ∧
      (state.step host usage).usage = result.usage ∧
      (state.step host usage).outcome = .stalled := by
  subst hresult
  have hstep := stepWith_of_decode_some hhalt hd host usage
  dsimp only at hstep
  rw [step, hstep]
  refine ⟨?_, ?_, ?_⟩
  all_goals simp [finish, execute, fetched, awaiting, beginCycle, hexpired]

/-- A wait that is given up gives up its cycle. -/
theorem outcome_step_of_abandoned (host : Host) (usage : Usage) {x : Nat} {error : Wait.Error}
    (hhalt : state.halt = none)
    (hd : Encoding.decode Instruction.table state.nextWord = some (.awaitKey x))
    (habandoned : (host.awaitKey (host.refresh state.keys usage).1
      (state.fetchUsage host usage)).wait = .abandoned error) :
    (state.step host usage).outcome = .abandoned error := by
  have hstep := stepWith_of_decode_some hhalt hd host usage
  dsimp only at hstep
  rw [step, hstep]
  simp [execute, fetched, beginCycle, habandoned]

end State

end ChipEight
