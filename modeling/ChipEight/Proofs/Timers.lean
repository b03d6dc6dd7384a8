import ChipEight.Proofs.History
import ChipEight.Proofs.WellFormed

/-!
# The timers

A timer counts down by one with every instruction that is carried out, the one that sets it included,
and stops at zero. So what it shows follows from the history alone (`Timer.Law`): the value it was set
to last, or the first one if it was never set, less the number of ticks since. The tone follows the
sound timer, and cycles that do not complete change neither.
-/

namespace ChipEight

/-- The two timers. -/
inductive Timer
  | delay
  | sound

namespace Timer

/-- What a timer shows. -/
def value (timer : Timer) (state : State) : Nat :=
  match timer with
  | delay => state.delay
  | sound => state.sound

/-- What an instruction that is carried out sets a timer to, if it sets it. -/
def setting (timer : Timer) (executed : Executed) : Option Nat :=
  match timer, executed.instruction with
  | delay, .setDelay x => some (executed.before.register x)
  | sound, .setSound x => some (executed.before.register x)
  | _, _ => none

/-- What a timer shows after a history before which it has shown `first`. -/
structure Law (timer : Timer) (first : Nat) (history : List Executed) (value : Nat) : Prop where
  never_set : (∀ executed ∈ history, timer.setting executed = none) →
    value = first - history.length
  last_set : ∀ earlier executed later v, history = earlier ++ executed :: later →
    timer.setting executed = some v → (∀ e ∈ later, timer.setting e = none) →
      value = v - (later.length + 1)

/-- What a timer shows after one more instruction. -/
def count (timer : Timer) (shown : Nat) (executed : Executed) : Nat :=
  (timer.setting executed).getD shown - 1

variable {timer : Timer}

theorem foldl_count_of_not_set {history : List Executed} {first : Nat}
    (h : ∀ executed ∈ history, timer.setting executed = none) :
    history.foldl timer.count first = first - history.length := by
  induction history generalizing first with
  | nil => rfl
  | cons executed later ih =>
      rw [List.foldl_cons, ih (fun e he => h e (by simp [he])), count, h executed (by simp),
        List.length_cons, Option.getD_none]
      -- Counting stops at zero, and so does the difference.
      omega

theorem law_foldl_count (first : Nat) (history : List Executed) :
    timer.Law first history (history.foldl timer.count first) where
  never_set := foldl_count_of_not_set
  last_set earlier executed later v hsplit hset hlater := by
    -- What was shown before the last setting is forgotten.
    rw [hsplit, List.foldl_append, List.foldl_cons, foldl_count_of_not_set hlater, count, hset,
      Option.getD_some]
    omega

theorem value_tick (state : State) : timer.value state.tick = timer.value state - 1 := by
  cases timer <;> rfl

/-- A timer is touched by the instruction that sets it only. -/
theorem value_execute {host : Host} {word : Nat} {instruction : Instruction} {state : State}
    {usage : Usage} :
    timer.value (execute host word instruction state usage).state =
      (timer.setting ⟨state, instruction⟩).getD (timer.value state) := by
  cases instruction with
  | clear | draw | setDelay | setSound => cases timer <;> rfl
  -- The stack is all that a return and a call change besides.
  | ret =>
      rw [execute_ret]
      cases timer <;> rfl
  | call address =>
      rw [execute_call]
      cases timer <;> rfl
  | _ =>
      rw [execute_plain rfl]
      cases timer <;> rfl

end Timer

/-! ## Calls

A call counts at most one instruction, and a run counts those of its history. The law is then a
statement about lists of instructions, and it does not mention cycles any more. -/

namespace Computer

variable {host : Host} {computer : Computer}

/-- A call counts the instruction that it carries out. -/
theorem timer_call (timer : Timer) {request : Call} (hreset : request ≠ .reset) :
    timer.value (computer.call host request).state =
      (computer.executed? host request).toList.foldl timer.count (timer.value computer.state) := by
  cases call_does host computer hreset with
  | idle executed state_eq =>
      rw [executed, state_eq]
      cases timer <;> rfl
  | carriedOut usage instruction executed decoded carried state_eq =>
      -- The fetched state has the registers and the timers of the one before.
      rw [executed, state_eq, Timer.value_tick, Timer.value_execute]
      cases timer <;> rfl

theorem timer_calls (timer : Timer) {requests : List Call} (hreset : Call.reset ∉ requests) :
    timer.value (computer.calls host requests).state =
      (computer.history host requests).foldl timer.count (timer.value computer.state) := by
  induction requests generalizing computer with
  | nil => rfl
  | cons request rest ih =>
      obtain ⟨hfirst, hlater⟩ := List.ne_and_not_mem_of_not_mem_cons hreset
      rw [calls_cons, ih hlater, timer_call timer hfirst.symm, history_cons, List.foldl_append]

theorem timer_law (timer : Timer) {requests : List Call} (hreset : Call.reset ∉ requests) :
    timer.Law (timer.value computer.state) (computer.history host requests)
      (timer.value (computer.calls host requests).state) := by
  rw [timer_calls timer hreset]
  exact Timer.law_foldl_count _ _

/-- Reading the delay timer takes what it showed before the tick. -/
theorem register_of_readDelay (h : computer.state.InRange) {request : Call}
    (hreset : request ≠ .reset) {executed : Executed}
    (hexecuted : computer.executed? host request = some executed) {x : Nat}
    (hread : executed.instruction = .readDelay x) :
    (computer.call host request).state.register x = computer.state.delay := by
  cases call_does host computer hreset with
  | idle executed' state_eq =>
      rw [executed'] at hexecuted
      cases hexecuted
  | carriedOut usage instruction executed' decoded carried state_eq =>
      rw [executed'] at hexecuted
      cases hexecuted
      cases hread
      have hx : x < computer.state.registers.size := by
        rw [h.registers.size_eq]
        exact Instruction.decode_inRange decoded
      rw [state_eq]
      show (computer.state.registers.write x computer.state.delay).read x = computer.state.delay
      rw [Bank.read_write, if_pos ⟨rfl, hx⟩]

/-- After any calls but resets on a reachable computer both timers obey their law; an instruction that
reads the delay timer takes what the law says before the cycle's own tick. The tone sounds after the
`k`-th tick since the sound timer was set to `v`, the setting cycle's own tick included, just when
`k` is less than `v`. A cycle that does not complete leaves the timers and the tone as they were. -/
theorem timers_obey_law (hreachable : Reachable host computer) {requests : List Call}
    (hreset : Call.reset ∉ requests) :
    let after := computer.calls host requests
    let history := computer.history host requests
    (∀ timer : Timer,
      timer.Law (timer.value computer.state) history (timer.value after.state)) ∧
    (∀ patience executed x, after.executed? host (.step patience) = some executed →
      executed.instruction = .readDelay x →
        Timer.delay.Law computer.state.delay history
          ((after.call host (.step patience)).state.register x)) ∧
    (∀ earlier executed later v, history = earlier ++ executed :: later →
      Timer.sound.setting executed = some v → (∀ e ∈ later, Timer.sound.setting e = none) →
        (after.state.beeping = true ↔ later.length + 1 < v)) ∧
    ∀ patience, (after.cycle host patience).outcome ≠ .completed →
      let idle := (after.call host (.step patience)).state
      (∀ timer : Timer, timer.value idle = timer.value after.state) ∧
        idle.beeping = after.state.beeping := by
  have hafter : (computer.calls host requests).state.WellFormed := (hreachable.calls requests).wellFormed
  refine ⟨fun timer => timer_law timer hreset, ?_, ?_, ?_⟩
  · -- the timer that is read
    intro patience executed x hexecuted hread
    rw [register_of_readDelay hafter.toInRange (by simp) hexecuted hread]
    exact timer_law .delay hreset
  · -- the tone
    intro earlier executed later v hsplit hset hlater
    have hsound : (computer.calls host requests).state.sound = v - (later.length + 1) :=
      (timer_law .sound hreset).last_set earlier executed later v hsplit hset hlater
    rw [hafter.beeping_iff, hsound]
    omega
  · -- cycles that do not complete
    intro patience hincomplete
    have hkept := State.step_of_not_completed hincomplete
    dsimp only [call, cycle] at hkept ⊢
    rw [hkept]
    exact ⟨fun timer => by cases timer <;> rfl, rfl⟩

/-- A computer that has 3 in register 0 and is about to set both timers to it and to read the delay
timer into register 1. -/
def bothTimers : Computer :=
  (new {}).calls {} [.load [0x60, 0x03, 0xF0, 0x18, 0xF0, 0x15, 0xF1, 0x07], .step 0]

theorem bothTimers_obey_law :
    let after := bothTimers.calls {} [.step 0, .step 0]
    Reachable {} bothTimers ∧ Call.reset ∉ [Call.step 0, .step 0] ∧
      after.state.sound = 1 ∧ after.state.beeping = true ∧
      (after.executed? {} (.step 0)).map Executed.instruction = some (.readDelay 1) ∧
      (after.call {} (.step 0)).state.register 1 = 2 := by
  have hreachable : Reachable {} bothTimers := ⟨{}, _, rfl⟩
  have hreset : Call.reset ∉ [Call.step 0, .step 0] := by decide
  have hrun :
      let second := bothTimers.call {} (.step 0)
      let third := second.call {} (.step 0)
      (bothTimers.cycle {} 0).outcome = .completed ∧
        Encoding.decode Instruction.table bothTimers.state.nextWord = some (.setSound 0) ∧
        (second.cycle {} 0).outcome = .completed ∧
        Encoding.decode Instruction.table second.state.nextWord = some (.setDelay 0) ∧
        (third.executed? {} (.step 0)).map Executed.instruction = some (.readDelay 1) ∧
        bothTimers.state.register 0 = 3 ∧ second.state.register 0 = 3 := by decide +kernel
  obtain ⟨hfirst, hsound, hsecond, hdelay, hread, hregister, hregister'⟩ := hrun
  have hhistory : bothTimers.history {} [.step 0, .step 0] =
      [⟨bothTimers.state, .setSound 0⟩, ⟨(bothTimers.call {} (.step 0)).state, .setDelay 0⟩] := by
    rw [history_cons, history_cons, history_nil, executed?_of_completed hfirst hsound,
      executed?_of_completed hsecond hdelay]
    rfl
  have hset : Timer.sound.setting ⟨bothTimers.state, .setSound 0⟩ = some 3 := by
    simp only [Timer.setting, hregister]
  have hset' : Timer.delay.setting
      ⟨(bothTimers.call {} (.step 0)).state, .setDelay 0⟩ = some 3 := by
    simp only [Timer.setting, hregister']
  have hlater : ∀ e ∈ [(⟨(bothTimers.call {} (.step 0)).state, .setDelay 0⟩ : Executed)],
      Timer.sound.setting e = none := by
    simp only [List.mem_singleton, forall_eq, Timer.setting]
  obtain ⟨hlaw, hreads, hbeeping, -⟩ := timers_obey_law hreachable hreset
  obtain ⟨executed, hexecuted, hinstruction⟩ := Option.map_eq_some_iff.mp hread
  refine ⟨hreachable, hreset, ?_, ?_, hread, ?_⟩
  · exact (hlaw .sound).last_set [] _ _ 3 hhistory hset hlater
  · exact (hbeeping [] _ _ 3 hhistory hset hlater).mpr (by decide)
  · exact (hreads 0 executed 1 hexecuted hinstruction).last_set [_] _ [] 3 hhistory hset'
      (by simp only [List.not_mem_nil, false_implies, implies_true])

end Computer

end ChipEight
