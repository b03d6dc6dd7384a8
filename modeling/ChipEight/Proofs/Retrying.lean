import Mathlib.Data.Nat.Nth
import ChipEight.Proofs.Surroundings
import ChipEight.Proofs.WellFormed

/-!
# Two ways to wait for a key

A blocking computer looks at the keyboard within one cycle until a key is down. A retrying one looks
once, stalls if there is no key, and tries the same instruction again in its next cycle. Every further
try costs it one report more, which the refresh at the start of the cycle takes and the look after it
replaces.

Without these reports the blocking computer sees what the retrying one has seen, and its cycles are
those of the other that do not stall (`Computer.blocking_eq_retrying`). In between it lags behind by
the tries that were made in vain; `Computer.Lags` says what holds then, `Lags.stall` and `Lags.settle`
say what a cycle makes of it.
-/

namespace ChipEight

/-! ## Keyboards

Both computers look at the same keyboard, but the blocking one gets fewer reports: the omitted
positions are skipped, and what is left is numbered anew. `Nat.count` and `Nat.nth` go back and
forth between the two numberings. -/

/-- The reports that are left when the ones at the omitted positions are taken out. -/
noncomputable def without (report : Nat → List Int) (omitted : List Nat) : Nat → List Int :=
  fun i => report (Nat.nth (· ∉ omitted) i)

theorem without_count {report : Nat → List Int} {omitted : List Nat} {position : Nat}
    (h : position ∉ omitted) :
    without report omitted (Nat.count (· ∉ omitted) position) = report position := by
  rw [without, Nat.nth_count h]

namespace Host

/-- The host with a keyboard, for a computer that looks for a key once and tries again in its next
cycle. -/
def retrying (host : Host) (report : Nat → List Int) : Host :=
  { host with reports := some report, keyWait := some (.whole 0) }

/-- The host with a keyboard, for a computer that waits until a key is down. -/
def blocking (host : Host) (report : Nat → List Int) : Host :=
  { host with reports := some report, keyWait := none }

variable (host : Host) (report : Nat → List Int) (keys : Keypad) (usage : Usage)

theorem awaitKey_retrying :
    (host.retrying report).awaitKey keys usage =
      { wait :=
          match (Keypad.ofReport (report usage.polls)).lowest with
          | some key => .pressed key
          | none => .expired
        keys := Keypad.ofReport (report usage.polls)
        usage := { usage with polls := usage.polls + 1 } } := by
  have hwait : (host.retrying report).keyWait = some (.whole 0) := rfl
  have hlook := awaitKey_of_no_time hwait keys usage
  rw [refresh_of_reports rfl] at hlook
  exact hlook

variable {report}

/-- A blocking computer waits for the first report of a key. -/
theorem awaitKey_blocking {tries key : Nat} (hpatience : tries ≤ usage.patience)
    (hvain : ∀ i < tries, (Keypad.ofReport (report (usage.polls + i))).lowest = none)
    (hkey : (Keypad.ofReport (report (usage.polls + tries))).lowest = some key) :
    (host.blocking report).awaitKey keys usage =
      { wait := .pressed key
        keys := Keypad.ofReport (report (usage.polls + tries))
        usage :=
          { drawn := usage.drawn
            polls := usage.polls + tries + 1
            clock := usage.clock + tries * host.pollInterval
            patience := usage.patience - tries } } :=
  watchKeys_eq_pressed rfl hpatience hvain hkey fun _ _ => rfl

end Host

/-! ## Cycles in a row

The cycles are split into those that stall and the others. Each stall is followed by a report that
the next cycle takes at its start and does not act on, and these are the reports to be omitted. -/

namespace Cycle

/-- What of a cycle does not depend on the way the computer waits: its state, its outcome and the
random bytes drawn. -/
def observed (cycle : Cycle) : State × Outcome × Nat :=
  (cycle.state, cycle.outcome, cycle.usage.drawn)

/-- The cycles that stall. -/
def stalls (cycles : List Cycle) : List Cycle := cycles.filter (·.outcome = .stalled)

/-- The cycles that do not stall. -/
def settled (cycles : List Cycle) : List Cycle := cycles.filter (·.outcome ≠ .stalled)

/-- The positions of the reports that come right after a cycle that stalls. The next cycle takes such a
report at its start. -/
def retriedReports (cycles : List Cycle) : List Nat := (stalls cycles).map (·.usage.polls)

variable {cycle : Cycle} {rest : List Cycle}

theorem stalls_cons_of_stalled (h : cycle.outcome = .stalled) :
    stalls (cycle :: rest) = cycle :: stalls rest := List.filter_cons_of_pos (by simpa using h)

theorem stalls_cons_of_settled (h : cycle.outcome ≠ .stalled) :
    stalls (cycle :: rest) = stalls rest := List.filter_cons_of_neg (by simpa using h)

theorem settled_cons_of_stalled (h : cycle.outcome = .stalled) :
    settled (cycle :: rest) = settled rest := List.filter_cons_of_neg (by simpa using h)

theorem settled_cons_of_settled (h : cycle.outcome ≠ .stalled) :
    settled (cycle :: rest) = cycle :: settled rest := List.filter_cons_of_pos (by simpa using h)

theorem mem_retriedReports_cons {position : Nat} :
    position ∈ retriedReports (cycle :: rest) ↔
      (cycle.outcome = .stalled ∧ position = cycle.usage.polls) ∨
        position ∈ retriedReports rest := by
  by_cases h : cycle.outcome = .stalled
  · simp [retriedReports, stalls_cons_of_stalled h, h]
  · simp [retriedReports, stalls_cons_of_settled h, h]

end Cycle

namespace Computer

/-- The cycles that a computer makes one after the other, each with its own patience. -/
def cycles (host : Host) (computer : Computer) : List Nat → List Cycle
  | [] => []
  | patience :: rest =>
    computer.cycle host patience :: (computer.call host (.step patience)).cycles host rest

variable {host : Host} {report : Nat → List Int} {computer : Computer}

/-! ## A cycle of a retrying computer

The retrying computer waits for no time at all, so a cycle of it is one of four kinds, told apart by
its instruction and by one report. Whatever else is needed of a cycle is read off this list. -/

/-- What a cycle of a retrying computer can be, with what later proofs need to know of it. -/
inductive Retries (report : Nat → List Int) (computer : Computer) (cycle : Cycle) : Prop
  | refused (cause : Trap)
      (halted : computer.state.halt = some cause)
      (state_eq : cycle.state = computer.state)
      (drawn_eq : cycle.usage.drawn = computer.usage.drawn)
      (polls_eq : cycle.usage.polls = computer.usage.polls)
      (outcome_eq : cycle.outcome = .refused cause)
  /-- The instruction does not wait for a key. -/
  | other
      (running : computer.state.halt = none)
      (decoded : ∀ x, Encoding.decode Instruction.table computer.state.nextWord ≠ some (.awaitKey x))
      (polls_eq : cycle.usage.polls = computer.usage.polls + 1)
      (settled : cycle.outcome ≠ .stalled)
  | pressed (x key : Nat)
      (running : computer.state.halt = none)
      (decoded : Encoding.decode Instruction.table computer.state.nextWord = some (.awaitKey x))
      (key_eq : (Keypad.ofReport (report (computer.usage.polls + 1))).lowest = some key)
      (state_eq : cycle.state =
        ((computer.state.awaiting (Keypad.ofReport (report (computer.usage.polls + 1)))).setRegister
          x key).tick)
      (drawn_eq : cycle.usage.drawn = computer.usage.drawn)
      (polls_eq : cycle.usage.polls = computer.usage.polls + 2)
      (outcome_eq : cycle.outcome = .completed)
  | stalled (x : Nat)
      (running : computer.state.halt = none)
      (decoded : Encoding.decode Instruction.table computer.state.nextWord = some (.awaitKey x))
      (vain : (Keypad.ofReport (report (computer.usage.polls + 1))).lowest = none)
      (state_eq : cycle.state =
        { computer.state.awaiting (Keypad.ofReport (report (computer.usage.polls + 1))) with
          pc := Memory.previous (Memory.next computer.state.pc) })
      (drawn_eq : cycle.usage.drawn = computer.usage.drawn)
      (polls_eq : cycle.usage.polls = computer.usage.polls + 2)
      (outcome_eq : cycle.outcome = .stalled)

theorem cycle_retries (host : Host) (report : Nat → List Int) (computer : Computer)
    (patience : Nat) :
    Retries report computer (computer.cycle (host.retrying report) patience) := by
  cases hhalt : computer.state.halt with
  | some cause =>
      refine .refused cause hhalt ?_ ?_ ?_ ?_
      all_goals rw [cycle, State.step, State.stepWith_of_halted hhalt]
  | none =>
      let usage : Usage := { computer.usage with patience := patience }
      by_cases hwait : ∃ x,
          Encoding.decode Instruction.table computer.state.nextWord = some (.awaitKey x)
      · obtain ⟨x, hd⟩ := hwait
        have hresult := Host.awaitKey_retrying host report
          (Keypad.ofReport (report usage.polls)) { usage with polls := usage.polls + 1 }
        dsimp only at hresult
        cases hkey : (Keypad.ofReport (report (computer.usage.polls + 1))).lowest with
        | some key =>
            rw [hkey] at hresult
            obtain ⟨hstate, husage, houtcome⟩ :=
              State.step_of_pressed (host.retrying report) usage hhalt hd hresult rfl
            exact .pressed x key hhalt hd hkey hstate (by rw [cycle, husage])
              (by rw [cycle, husage]) houtcome
        | none =>
            rw [hkey] at hresult
            obtain ⟨hstate, husage, houtcome⟩ :=
              State.step_of_expired (host.retrying report) usage hhalt hd hresult rfl
            exact .stalled x hhalt hd hkey hstate (by rw [cycle, husage])
              (by rw [cycle, husage]) houtcome
      · have hd : ∀ x,
            Encoding.decode Instruction.table computer.state.nextWord ≠ some (.awaitKey x) :=
          fun x hx => hwait ⟨x, hx⟩
        refine .other hhalt hd ?_ ?_
        · -- The cycle agrees with itself, so it takes nothing but the report at its start.
          obtain ⟨-, -, husage⟩ := State.step_agree (host.retrying report) (host.retrying report)
            usage usage hhalt rfl rfl rfl rfl hd
          rw [cycle, husage]
          rfl
        · intro hstalled
          obtain ⟨x, hx⟩ := State.decode_of_stalled hstalled
          exact hd x hx

/-- A cycle that stalls is a look at the keyboard in vain. -/
theorem Retries.of_stalled {cycle : Cycle} (h : Retries report computer cycle)
    (hstalled : cycle.outcome = .stalled) :
    ∃ x, computer.state.halt = none ∧
      Encoding.decode Instruction.table computer.state.nextWord = some (.awaitKey x) ∧
      (Keypad.ofReport (report (computer.usage.polls + 1))).lowest = none ∧
      cycle.state =
        { computer.state.awaiting (Keypad.ofReport (report (computer.usage.polls + 1))) with
          pc := Memory.previous (Memory.next computer.state.pc) } ∧
      cycle.usage.drawn = computer.usage.drawn ∧
      cycle.usage.polls = computer.usage.polls + 2 := by
  cases h with
  | refused cause halted state_eq drawn_eq polls_eq outcome_eq =>
      rw [outcome_eq] at hstalled
      cases hstalled
  | other running decoded polls_eq settled => exact absurd hstalled settled
  | pressed x key running decoded key_eq state_eq drawn_eq polls_eq outcome_eq =>
      rw [outcome_eq] at hstalled
      cases hstalled
  | stalled x running decoded vain state_eq drawn_eq polls_eq outcome_eq =>
      exact ⟨x, running, decoded, vain, state_eq, drawn_eq, polls_eq⟩

theorem polls_of_stalled {patience : Nat}
    (h : (computer.cycle (host.retrying report) patience).outcome = .stalled) :
    (computer.cycle (host.retrying report) patience).usage.polls = computer.usage.polls + 2 := by
  obtain ⟨x, -, -, -, -, -, polls_eq⟩ := (cycle_retries host report computer patience).of_stalled h
  exact polls_eq

theorem polls_le (patience : Nat) :
    computer.usage.polls ≤ (computer.cycle (host.retrying report) patience).usage.polls := by
  cases cycle_retries host report computer patience <;> omega

/-- The reports that come after stalls are taken later. -/
theorem lt_of_mem_retriedReports {patiences : List Nat} {position : Nat}
    (h : position ∈ Cycle.retriedReports (computer.cycles (host.retrying report) patiences)) :
    computer.usage.polls < position := by
  induction patiences generalizing computer with
  | nil => cases h
  | cons patience rest ih =>
      rcases Cycle.mem_retriedReports_cons.mp h with ⟨hstalled, rfl⟩ | hrest
      · -- A stalled cycle has taken two reports, and the next one is the one after a stall.
        rw [polls_of_stalled hstalled]
        omega
      · exact Nat.lt_of_le_of_lt (polls_le patience) (ih hrest)

section

variable {patience : Nat} {rest : List Nat} {position : Nat}

theorem mem_retriedReports_of_le
    (h : position ≤ (computer.cycle (host.retrying report) patience).usage.polls) :
    position ∈ Cycle.retriedReports (computer.cycles (host.retrying report) (patience :: rest)) ↔
      (computer.cycle (host.retrying report) patience).outcome = .stalled ∧
        position = (computer.cycle (host.retrying report) patience).usage.polls := by
  rw [cycles, Cycle.mem_retriedReports_cons, or_iff_left]
  intro hrest
  exact Nat.not_lt_of_le h (lt_of_mem_retriedReports hrest)

theorem mem_retriedReports_of_lt
    (h : (computer.cycle (host.retrying report) patience).usage.polls < position) :
    position ∈ Cycle.retriedReports (computer.cycles (host.retrying report) (patience :: rest)) ↔
      position ∈ Cycle.retriedReports ((computer.call (host.retrying report) (.step patience)).cycles
        (host.retrying report) rest) := by
  rw [cycles, Cycle.mem_retriedReports_cons, or_iff_right]
  rintro ⟨-, rfl⟩
  exact Nat.lt_irrefl _ h

end

/-! ## One computer after the other

The blocking computer makes one cycle where the retrying one makes several. `Lags` is what holds in
between, with the number of tries that the blocking computer has still to make good. A stall raises
the number, and a cycle that does not stall brings it back to zero. The run goes by induction on the
cycles of the retrying computer. -/

variable {omitted : List Nat} {tries : Nat} {blocking retrying : Computer}

/-- The blocking computer, which gets no omitted report, lags behind the retrying one by the tries that
this one has made in vain at its instruction. -/
structure Lags (report : Nat → List Int) (omitted : List Nat) (tries : Nat)
    (blocking retrying : Computer) : Prop where
  /-- The states agree in all that the start of a cycle leaves as it is. -/
  state_eq : ∀ keys, blocking.state.beginCycle keys = retrying.state.beginCycle keys
  drawn_eq : blocking.usage.drawn = retrying.usage.drawn
  /-- The blocking computer has still to take a report at the start of its cycle and one for every try.
  The retrying one has taken them, and the next that it takes is either omitted or this first one. -/
  count_eq : Nat.count (· ∉ omitted) (retrying.usage.polls + 1) = blocking.usage.polls + tries + 1
  vain : ∀ i < tries,
    (Keypad.ofReport (without report omitted (blocking.usage.polls + 1 + i))).lowest = none
  level : tries = 0 → blocking.state = retrying.state ∧ retrying.usage.polls ∉ omitted
  waits : tries ≠ 0 → retrying.state.halt = none ∧
    ∃ x, Encoding.decode Instruction.table retrying.state.nextWord = some (.awaitKey x)

namespace Lags

/-- Computers that are level, where the retrying one has taken the reports that the other has taken. -/
theorem of_level (hstate : blocking.state = retrying.state)
    (hdrawn : blocking.usage.drawn = retrying.usage.drawn)
    (hkept : retrying.usage.polls ∉ omitted)
    (hcount : Nat.count (· ∉ omitted) retrying.usage.polls = blocking.usage.polls) :
    Lags report omitted 0 blocking retrying where
  state_eq _ := by rw [hstate]
  drawn_eq := hdrawn
  count_eq := by rw [Nat.count_succ_eq_succ_count hkept, hcount]
  vain i hi := absurd hi (Nat.not_lt_zero i)
  level _ := ⟨hstate, hkept⟩
  waits h := absurd rfl h

/-- Cycles that end alike, one of each computer, bring the computers to the same level. -/
theorem of_same_end {blocked retried : Cycle} (hstate : blocked.state = retried.state)
    (houtcome : blocked.outcome = retried.outcome)
    (hdrawn : blocked.usage.drawn = retried.usage.drawn)
    (hkept : retried.usage.polls ∉ omitted)
    (hcount : Nat.count (· ∉ omitted) retried.usage.polls = blocked.usage.polls) :
    blocked.observed = retried.observed ∧
      Lags report omitted 0 ⟨blocked.state, blocked.usage⟩ ⟨retried.state, retried.usage⟩ := by
  refine ⟨?_, of_level hstate hdrawn hkept hcount⟩
  rw [Cycle.observed, Cycle.observed, hstate, houtcome, hdrawn]

/-- Only at an instruction that waits for a key is there something to lag behind. -/
theorem tries_eq_zero (h : Lags report omitted tries blocking retrying)
    (hbusy : ∀ x, retrying.state.halt = none →
      Encoding.decode Instruction.table retrying.state.nextWord ≠ some (.awaitKey x)) :
    tries = 0 := by
  apply Decidable.byContradiction
  intro htries
  obtain ⟨hrunning, x, hd⟩ := h.waits htries
  exact hbusy x hrunning hd

theorem halt_eq (h : Lags report omitted tries blocking retrying) :
    blocking.state.halt = retrying.state.halt := by
  have hstart := h.state_eq Keypad.released
  injection hstart

theorem nextWord_eq (h : Lags report omitted tries blocking retrying) :
    blocking.state.nextWord = retrying.state.nextWord := by
  show (blocking.state.beginCycle Keypad.released).nextWord = _
  rw [h.state_eq]
  rfl

theorem awaiting_eq (h : Lags report omitted tries blocking retrying) (keys : Keypad) :
    blocking.state.awaiting keys = retrying.state.awaiting keys := by
  show { blocking.state.beginCycle keys with
    pc := Memory.next (blocking.state.beginCycle keys).pc } = _
  rw [h.state_eq]
  rfl

theorem report_eq (h : Lags report omitted tries blocking retrying)
    (hkept : retrying.usage.polls + 1 ∉ omitted) :
    without report omitted (blocking.usage.polls + 1 + tries) =
      report (retrying.usage.polls + 1) := by
  rw [Nat.add_right_comm, ← h.count_eq, without_count hkept]

/-- Of computers that are level the blocking one has taken all but the omitted reports. -/
theorem count_polls (h : Lags report omitted 0 blocking retrying) :
    Nat.count (· ∉ omitted) retrying.usage.polls = blocking.usage.polls := by
  have hcount := h.count_eq
  rwa [Nat.count_succ_eq_succ_count (h.level rfl).2, Nat.add_zero, Nat.add_right_cancel_iff]
    at hcount

/-- A cycle that stalls is one more try. -/
theorem stall (h : Lags report omitted tries blocking retrying) (hpc : retrying.state.pc < 4096)
    {patience : Nat}
    (hstalled : (retrying.cycle (host.retrying report) patience).outcome = .stalled)
    (hkept : retrying.usage.polls + 1 ∉ omitted) (homitted : retrying.usage.polls + 2 ∈ omitted) :
    Lags report omitted (tries + 1) blocking
      (retrying.call (host.retrying report) (.step patience)) := by
  obtain ⟨x, running, decoded, vain, state_eq, drawn_eq, polls_eq⟩ :=
    (cycle_retries host report retrying patience).of_stalled hstalled
  rw [Memory.previous_next hpc] at state_eq
  refine ⟨?_, ?_, ?_, ?_, ?_, ?_⟩
  · intro keys
    rw [h.state_eq, call, state_eq]
    rfl
  · rw [h.drawn_eq, call, drawn_eq]
  · -- Of the two reports that the try has taken, only the one it looked at is kept.
    rw [call, polls_eq, Nat.count_succ_eq_count (by simpa using homitted),
      Nat.count_succ_eq_succ_count hkept, h.count_eq]
    rfl
  · -- The tries so far were in vain, and so was this one.
    intro i hi
    rcases Nat.lt_succ_iff_lt_or_eq.mp hi with hearlier | rfl
    · exact h.vain i hearlier
    · rw [h.report_eq hkept]
      exact vain
  · intro hzero
    omega
  · intro _
    rw [call, state_eq]
    exact ⟨running, x, decoded⟩

/-- A cycle that does not stall is also the next one of the blocking computer, if this is patient
enough, and brings both to the same level. -/
theorem settle (h : Lags report omitted tries blocking retrying) {patience patience' : Nat}
    (hsettled : (retrying.cycle (host.retrying report) patience).outcome ≠ .stalled)
    (hpatience : tries ≤ patience')
    (hkept : ∀ position, retrying.usage.polls < position →
      position ≤ (retrying.cycle (host.retrying report) patience).usage.polls →
        position ∉ omitted) :
    let blockingHost := host.blocking (without report omitted)
    (blocking.cycle blockingHost patience').observed =
        (retrying.cycle (host.retrying report) patience).observed ∧
      Lags report omitted 0 (blocking.call blockingHost (.step patience'))
        (retrying.call (host.retrying report) (.step patience)) := by
  cases cycle_retries host report retrying patience with
  | refused cause halted state_eq drawn_eq polls_eq outcome_eq =>
      -- A refused cycle does not wait, so the computers are level and both are refused.
      obtain rfl : tries = 0 := h.tries_eq_zero (by simp [halted])
      obtain ⟨hlevel, hfirst⟩ := h.level rfl
      have hblocked : blocking.cycle (host.blocking (without report omitted)) patience' =
          ⟨blocking.state, { blocking.usage with patience := patience' }, .refused cause, []⟩ := by
        rw [cycle, State.step, State.stepWith_of_halted (h.halt_eq.trans halted)]
      apply of_same_end
      · rw [hblocked, state_eq, hlevel]
      · rw [hblocked, outcome_eq]
      · rw [hblocked, drawn_eq, h.drawn_eq]
      · rwa [polls_eq]
      · rw [hblocked, polls_eq, h.count_polls]
  | other running decoded polls_eq settled =>
      -- An instruction that does not wait takes the report at the start of its cycle, and it is the
      -- same report for both.
      obtain rfl : tries = 0 := h.tries_eq_zero fun x _ => decoded x
      obtain ⟨hlevel, hfirst⟩ := h.level rfl
      have hreport : without report omitted blocking.usage.polls = report retrying.usage.polls := by
        rw [← h.count_polls, without_count hfirst]
      obtain ⟨hstate, houtcome, husage⟩ := State.step_agree (host.retrying report)
        (host.blocking (without report omitted)) { retrying.usage with patience := patience }
        { blocking.usage with patience := patience' } running rfl rfl h.drawn_eq
        (congrArg Keypad.ofReport hreport) decoded
      rw [← hlevel] at hstate houtcome husage
      apply of_same_end
      · rw [cycle, cycle, hstate, hlevel]
      · rw [cycle, cycle, houtcome, hlevel]
      · rw [cycle, cycle, husage, hlevel]
      · exact hkept _ (by omega) (Nat.le_refl _)
      · rw [polls_eq, cycle, husage, Nat.count_succ_eq_succ_count hfirst, h.count_polls]
        rfl
  | pressed x key running decoded key_eq state_eq drawn_eq polls_eq outcome_eq =>
      -- The blocking computer makes all tries in one cycle, in vain up to the report with the key.
      have hlooked : retrying.usage.polls + 1 ∉ omitted := hkept _ (by omega) (by omega)
      have hreport := h.report_eq hlooked
      have hresult := Host.awaitKey_blocking host
        (Keypad.ofReport (without report omitted blocking.usage.polls))
        { blocking.usage with polls := blocking.usage.polls + 1, patience := patience' }
        hpatience h.vain (by rw [hreport, key_eq])
      obtain ⟨hstate, husage, houtcome⟩ := State.step_of_pressed
        (host.blocking (without report omitted)) { blocking.usage with patience := patience' }
        (h.halt_eq.trans running) (h.nextWord_eq ▸ decoded) hresult rfl
      dsimp only at hstate husage
      apply of_same_end
      · rw [cycle, hstate, hreport, h.awaiting_eq, state_eq]
      · rw [cycle, houtcome, outcome_eq]
      · rw [cycle, husage, drawn_eq, h.drawn_eq]
      · exact hkept _ (by omega) (Nat.le_refl _)
      · rw [polls_eq, Nat.count_succ_eq_succ_count hlooked, h.count_eq, cycle, husage,
          Nat.add_right_comm blocking.usage.polls tries 1]
  | stalled x running decoded vain state_eq drawn_eq polls_eq outcome_eq =>
      exact absurd outcome_eq hsettled

/-- The cycles of the blocking computer are those of the retrying one that do not stall, if just the
reports after stalls are omitted and the blocking computer is patient enough for all tries. -/
theorem observed_cycles (h : Lags report omitted tries blocking retrying)
    (hrange : retrying.state.WellFormed) {patiences waits : List Nat}
    (homitted : ∀ position, retrying.usage.polls < position →
      (position ∈ omitted ↔
        position ∈ Cycle.retriedReports (retrying.cycles (host.retrying report) patiences)))
    (hlength : waits.length =
      (Cycle.settled (retrying.cycles (host.retrying report) patiences)).length)
    (hpatient : ∀ patience ∈ waits,
      tries + (Cycle.stalls (retrying.cycles (host.retrying report) patiences)).length ≤ patience) :
    (blocking.cycles (host.blocking (without report omitted)) waits).map Cycle.observed =
      (Cycle.settled (retrying.cycles (host.retrying report) patiences)).map Cycle.observed := by
  induction patiences generalizing tries blocking retrying waits with
  | nil =>
      obtain rfl : waits = [] := List.eq_nil_of_length_eq_zero hlength
      rfl
  | cons patience rest ih =>
      let retried := retrying.cycle (host.retrying report) patience
      have hpolls : retrying.usage.polls ≤ retried.usage.polls := polls_le patience
      have hafter : (retrying.call (host.retrying report) (.step patience)).state.WellFormed :=
        call_wellFormed hrange _
      -- The reports after this cycle are omitted just when later stalls omit them.
      have hlater : ∀ position, retried.usage.polls < position → (position ∈ omitted ↔
          position ∈ Cycle.retriedReports
            ((retrying.call (host.retrying report) (.step patience)).cycles
              (host.retrying report) rest)) := by
        intro position hposition
        rw [homitted position (Nat.lt_of_le_of_lt hpolls hposition)]
        exact mem_retriedReports_of_lt hposition
      have hnow : ∀ position, retrying.usage.polls < position → position ≤ retried.usage.polls →
          (position ∈ omitted ↔
            retried.outcome = .stalled ∧ position = retried.usage.polls) := by
        intro position hposition hle
        rw [homitted position hposition]
        exact mem_retriedReports_of_le hle
      rw [cycles] at hlength hpatient ⊢
      by_cases hstalled : retried.outcome = .stalled
      · -- A stall is one try more, and leaves the blocking computer where it is.
        have htaken : retried.usage.polls = retrying.usage.polls + 2 := polls_of_stalled hstalled
        rw [Cycle.settled_cons_of_stalled hstalled] at hlength ⊢
        rw [Cycle.stalls_cons_of_stalled hstalled, List.length_cons] at hpatient
        have hlags := h.stall hrange.toInRange.pc_lt hstalled
          (fun hmem => by have := ((hnow _ (by omega) (by omega)).mp hmem).2; omega)
          ((hnow _ (by omega) (by omega)).mpr ⟨hstalled, htaken.symm⟩)
        refine ih hlags hafter hlater hlength ?_
        intro p hp
        have := hpatient p hp
        omega
      · -- Any other cycle is made by both, and the rest starts on the same level.
        rw [Cycle.settled_cons_of_settled hstalled] at hlength ⊢
        rw [Cycle.stalls_cons_of_settled hstalled] at hpatient
        obtain ⟨wait, waits, rfl⟩ := List.exists_cons_of_length_eq_add_one hlength
        have hwait : tries ≤ wait := Nat.le_of_add_right_le (hpatient wait (by simp))
        obtain ⟨hobserved, hlags⟩ := h.settle hstalled hwait
          (fun position hposition hle hmem => hstalled ((hnow position hposition hle).mp hmem).1)
        rw [cycles, List.map_cons, List.map_cons, hobserved]
        congr 1
        refine ih hlags hafter hlater (by simpa using hlength) ?_
        intro p hp
        have := hpatient p (by simp [hp])
        omega

end Lags

/-- A retrying computer stalls where a blocking one would go on waiting, and this is all: from the same
reachable state, and on the same reports without those that the retrying computer takes right after a
stall, the cycles of a blocking computer are the cycles of the retrying one that do not stall. They
leave the same states, end alike and draw the same random bytes. The blocking computer has to be let
sleep as often as the other stalls. -/
theorem blocking_eq_retrying {origin : Host} (hreachable : Reachable origin computer) (host : Host)
    (report : Nat → List Int) {patiences waits : List Nat}
    (hlength : waits.length =
      (Cycle.settled (computer.cycles (host.retrying report) patiences)).length)
    (hpatient : ∀ patience ∈ waits,
      (Cycle.stalls (computer.cycles (host.retrying report) patiences)).length ≤ patience) :
    let retried := computer.cycles (host.retrying report) patiences
    let left := without report (Cycle.retriedReports retried)
    (computer.cycles (host.blocking left) waits).map Cycle.observed =
      (Cycle.settled retried).map Cycle.observed := by
  have hkept : ∀ position ≤ computer.usage.polls, position ∉
      Cycle.retriedReports (computer.cycles (host.retrying report) patiences) := by
    intro position hle hmem
    exact Nat.not_lt_of_le hle (lt_of_mem_retriedReports hmem)
  -- No report has been taken after a stall before the first cycle.
  have hlevel : Lags report
      (Cycle.retriedReports (computer.cycles (host.retrying report) patiences)) 0 computer computer :=
    .of_level rfl rfl (hkept _ (Nat.le_refl _))
      (Nat.count_of_forall fun position hlt => hkept position (Nat.le_of_lt hlt))
  exact hlevel.observed_cycles hreachable.wellFormed (fun _ _ => Iff.rfl) hlength (by simpa using hpatient)

/-- A new computer with a program that waits for a key, puts it into register 3 and begins again. -/
def keyWaiter : Computer := (new {}).calls {} [.load [0xF3, 0x0A, 0x12, 0x00]]

/-- The reports of a keyboard on which key 7 is down for a moment. -/
def lateKey (position : Nat) : List Int := if position = 5 then [7] else []

theorem keyWaiter_blocking_eq_retrying :
    let retried := keyWaiter.cycles (Host.retrying {} lateKey) [0, 0, 0, 0]
    Reachable {} keyWaiter ∧ [2, 2].length = (Cycle.settled retried).length ∧
      (∀ patience ∈ [2, 2], (Cycle.stalls retried).length ≤ patience) ∧
      Cycle.retriedReports retried = [2, 4] ∧
      (keyWaiter.cycles (Host.blocking {} (without lateKey [2, 4])) [2, 2]).map
        (·.state.register 3) = [7, 7] := by
  have hreachable : Reachable {} keyWaiter := ⟨{}, _, rfl⟩
  have hrun :
      let retried := keyWaiter.cycles (Host.retrying {} lateKey) [0, 0, 0, 0]
      [2, 2].length = (Cycle.settled retried).length ∧
        (∀ patience ∈ [2, 2], (Cycle.stalls retried).length ≤ patience) ∧
        Cycle.retriedReports retried = [2, 4] ∧
        (Cycle.settled retried).map (·.state.register 3) = [7, 7] := by
    decide +kernel
  obtain ⟨hlength, hpatient, homitted, hregister⟩ := hrun
  refine ⟨hreachable, hlength, hpatient, homitted, ?_⟩
  have hsame := blocking_eq_retrying hreachable {} lateKey hlength hpatient
  dsimp only at hsame
  rw [homitted] at hsame
  have hseen := congrArg (List.map fun seen => seen.1.register 3) hsame
  rw [List.map_map, List.map_map] at hseen
  exact hseen.trans hregister

end Computer

end ChipEight
