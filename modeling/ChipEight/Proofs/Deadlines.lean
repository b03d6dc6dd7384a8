import Mathlib.Order.Bounds.Defs
import Mathlib.Data.Nat.Find
import Mathlib.Tactic.Push
import ChipEight.Proofs.KeyReports

/-!
# How long a wait takes

A computer that waits for a key looks at its keyboard, then at the clock, and sleeps. With a limit it
sleeps `sleeps limit interval` times, the limit in intervals, rounded up: the last sleep is the one that
brings the clock to the end of the wait or past it, and one more look comes after it. A key that is
reported by then ends the wait (`Host.Watches.awaitKey_pressed`), otherwise the time ends it
(`Host.Watches.awaitKey_expired`). Without a limit only a key does.

`waits_end_with_key_or_time` says what the whole cycle leaves behind in both cases.
-/

namespace ChipEight

/-! ## The key that is found

A report may name keys by any numbers, also negative ones, and several of them. What a wait puts
into its register depends on the residues modulo 16 alone, and of these on the least. -/

namespace Keypad

/-- The lowest key that is down is the least residue of the reported numbers. -/
theorem lowest_ofReport_eq_some_iff {numbers : List Int} {k : Nat} :
    (ofReport numbers).lowest = some k ↔
      IsLeast {residue : Nat | ∃ number ∈ numbers, number % 16 = (residue : Int)} k := by
  have hdown := isDown_ofReport_iff_residue numbers
  rw [lowest, List.find?_range_eq_some]
  constructor
  · rintro ⟨hk, -, hbelow⟩
    refine ⟨(hdown k).mp hk, ?_⟩
    intro residue hresidue
    apply Nat.le_of_not_lt
    intro hlt
    -- A smaller residue would be a lower key that is down.
    have hup := hbelow residue hlt
    rw [(hdown residue).mpr hresidue] at hup
    cases hup
  · rintro ⟨hk, hleast⟩
    refine ⟨(hdown k).mpr hk, ?_, ?_⟩
    · obtain ⟨number, -, hnumber⟩ := hk
      apply List.mem_range.mpr
      simp only [size]
      omega
    · intro residue hlt
      rw [Bool.not_eq_true', Bool.eq_false_iff]
      intro hresidue
      exact Nat.not_lt_of_le (hleast ((hdown residue).mp hresidue)) hlt

/-- No key is down after a report of none. -/
theorem lowest_ofReport_eq_none_iff {numbers : List Int} :
    (ofReport numbers).lowest = none ↔ numbers = [] := by
  rw [lowest, List.find?_range_eq_none]
  constructor
  · intro hup
    apply List.eq_nil_iff_forall_not_mem.mpr
    intro number hmem
    have hkey := hup (key number) (key_lt number)
    rw [(isDown_ofReport numbers _).mpr ⟨number, hmem, rfl⟩] at hkey
    cases hkey
  · rintro rfl k -
    rw [Bool.not_eq_true', Bool.eq_false_iff]
    intro hdown
    obtain ⟨number, hmem, -⟩ := (isDown_ofReport [] k).mp hdown
    cases hmem

end Keypad

/-! ## The time of a wait

The time is over at the first look at which the clock has reached the end of the wait. The clock
moves by whole intervals, so this can be said of the number of sleeps, and the rest of the module
counts sleeps and looks instead of time. -/

/-- How often a computer sleeps before a wait is over: the limit in intervals, rounded up. -/
def sleeps (limit interval : Nat) : Nat := (limit + interval - 1) / interval

theorem le_mul_iff_sleeps_le {interval : Nat} (h : 1 ≤ interval) (limit tries : Nat) :
    limit ≤ tries * interval ↔ sleeps limit interval ≤ tries := by
  rw [sleeps, Nat.div_le_iff_le_mul_add_pred h, Nat.mul_comm]
  omega

/-- The sleeps of a wait take as long as its limit, or longer by less than an interval. -/
theorem sleeps_mul_lt {interval : Nat} (h : 1 ≤ interval) (limit : Nat) :
    limit ≤ sleeps limit interval * interval ∧ sleeps limit interval * interval < limit + interval := by
  refine ⟨(le_mul_iff_sleeps_le h _ _).mpr (Nat.le_refl _), ?_⟩
  have hround := Nat.div_mul_le_self (limit + interval - 1) interval
  rw [sleeps]
  omega

-- No time to wait, a multiple of the interval, and less than one interval.
example : sleeps 0 5 = 0 ∧ sleeps 10 5 = 2 ∧ sleeps 3 5 = 1 := by decide

namespace Host

/-- The host has a keyboard, and a computer on it looks at it every `interval`, for as long as the limit
says. -/
structure Watches (host : Host) (report : Nat → List Int) (interval : Nat) (limit : Option Nat) :
    Prop where
  reports_eq : host.reports = some report
  interval_eq : host.pollInterval = interval
  interval_pos : 1 ≤ interval
  keyWait_eq : host.keyWait = limit.map fun time : Nat => .whole time

namespace Watches

variable {host : Host} {report : Nat → List Int} {interval : Nat} {limit : Option Nat}

/-- The watch of a wait that begins now. -/
theorem awaitKey_eq (h : host.Watches report interval limit) (keys : Keypad) (usage : Usage) :
    host.awaitKey keys usage =
      host.watchKeys (limit.map fun time : Nat => .whole (usage.clock + time)) usage.patience keys
        usage := by
  have hdeadline : host.deadline usage.clock =
      .ok (limit.map fun time : Nat => .whole (usage.clock + time)) := by
    rw [deadline, h.keyWait_eq]
    cases limit with
    | none => rfl
    | some time => rfl
  rw [awaitKey, hdeadline]

/-- After so many sleeps the time is over just if the limit asks for no more of them. -/
theorem isOver_eq (h : host.Watches report interval limit) (start : Int) (tries : Nat) :
    (limit.map fun time : Nat => Quantity.whole (start + time)).any
        (·.isOver (start + tries * host.pollInterval)) =
      limit.any (sleeps · interval ≤ tries) := by
  cases limit with
  | none => rfl
  | some time =>
      have hover := le_mul_iff_sleeps_le h.interval_pos time tries
      simp only [Option.map_some, Option.any_some, Quantity.isOver, decide_eq_decide, ← hover,
        h.interval_eq]
      rw [Int.add_le_add_iff_left]
      exact_mod_cast Iff.rfl

theorem awaitKey_pressed (h : host.Watches report interval limit) (keys : Keypad)
    (usage : Usage) {tries key : Nat} (hpatience : tries ≤ usage.patience)
    (hvain : ∀ i < tries, report (usage.polls + i) = [])
    (hkey : (Keypad.ofReport (report (usage.polls + tries))).lowest = some key)
    (htime : ∀ time, limit = some time → tries ≤ sleeps time interval) :
    host.awaitKey keys usage =
      { wait := .pressed key
        keys := Keypad.ofReport (report (usage.polls + tries))
        usage :=
          { drawn := usage.drawn
            polls := usage.polls + tries + 1
            clock := usage.clock + tries * interval
            patience := usage.patience - tries } } := by
  rw [h.awaitKey_eq, ← h.interval_eq]
  apply watchKeys_eq_pressed h.reports_eq hpatience _ hkey
  · intro i hi
    rw [h.isOver_eq]
    cases limit with
    | none => rfl
    | some time =>
        have := htime time rfl
        simp only [Option.any_some, decide_eq_false_iff_not]
        omega
  · intro i hi
    exact Keypad.lowest_ofReport_eq_none_iff.mpr (hvain i hi)

theorem awaitKey_expired {time : Nat} (h : host.Watches report interval (some time)) (keys : Keypad)
    (usage : Usage) (hpatience : sleeps time interval ≤ usage.patience)
    (hvain : ∀ i ≤ sleeps time interval, report (usage.polls + i) = []) :
    host.awaitKey keys usage =
      { wait := .expired
        keys := .released
        usage :=
          { drawn := usage.drawn
            polls := usage.polls + sleeps time interval + 1
            clock := usage.clock + sleeps time interval * interval
            patience := usage.patience - sleeps time interval } } := by
  have hkeys : Keypad.released =
      Keypad.ofReport (report (usage.polls + sleeps time interval)) := by
    rw [hvain _ (Nat.le_refl _)]
    rfl
  -- The last look has found no key either, so the keys are those of an empty report.
  rw [h.awaitKey_eq, ← h.interval_eq, hkeys]
  apply watchKeys_eq_expired h.reports_eq hpatience
  · intro i hi
    exact Keypad.lowest_ofReport_eq_none_iff.mpr (hvain i hi)
  · -- The time is over after the last sleep, and not earlier.
    intro i hi
    rw [h.isOver_eq, Option.any_some, decide_eq_false_iff_not]
    omega
  · rw [h.isOver_eq, Option.any_some, decide_eq_true_eq]

theorem awaitKey_sleepless (h : host.Watches report interval none) (keys : Keypad) (usage : Usage)
    (hvain : ∀ i ≤ usage.patience, report (usage.polls + i) = []) :
    (host.awaitKey keys usage).wait = .abandoned .sleepless := by
  rw [h.awaitKey_eq]
  apply watchKeys_eq_sleepless h.reports_eq
  · intro i hi
    exact Keypad.lowest_ofReport_eq_none_iff.mpr (hvain i hi)
  · intro i hi
    rfl

end Watches

end Host

/-! ## The cycle of a wait

The cycle looks at the keyboard once before its instruction is known, and that look does not end a
wait: a key has to be reported at look 1 or later, counted from the report that the cycle has begun
with. The three lemmas are the three ends, by a key, by the time, and by surroundings that let the
computer sleep no longer. -/

namespace State

variable {host : Host} {report : Nat → List Int} {interval : Nat} {limit : Option Nat} {state : State}
  {x : Nat}

/-- A wait goes on for the report after the one that its cycle has begun with. -/
theorem fetchUsage_of_watches (h : host.Watches report interval limit) (state : State) (usage : Usage) :
    state.fetchUsage host usage = { usage with polls := usage.polls + 1 } := by
  rw [fetchUsage, Host.refresh_of_reports h.reports_eq]

theorem report_later (report : Nat → List Int) (polls look : Nat) :
    report (polls + 1 + look) = report (polls + (look + 1)) := by
  rw [Nat.add_right_comm, Nat.add_assoc]

/-- The first look at which a key is down completes the cycle, if the wait lasts until then. -/
theorem step_of_reported (usage : Usage) (h : host.Watches report interval limit)
    (hhalt : state.halt = none) (hsize : state.registers.size = 16) (hx : x < 16)
    (hd : Encoding.decode Instruction.table state.nextWord = some (.awaitKey x)) {look : Nat}
    (hlook : 1 ≤ look) (hvain : ∀ earlier ≥ 1, earlier < look → report (usage.polls + earlier) = [])
    (hreport : report (usage.polls + look) ≠ [])
    (htime : ∀ time, limit = some time → look ≤ sleeps time interval + 1)
    (hpatience : look - 1 ≤ usage.patience) :
    let cycle := state.step host usage
    cycle.outcome = .completed ∧
    cycle.usage =
      { drawn := usage.drawn
        polls := usage.polls + 1 + look
        clock := usage.clock + (look - 1 : Nat) * interval
        patience := usage.patience - (look - 1) } ∧
    IsLeast {residue : Nat | ∃ number ∈ report (usage.polls + look), number % 16 = (residue : Int)}
      (cycle.state.register x) ∧
    cycle.state =
      { state with
        registers := state.registers.write x (cycle.state.register x)
        keys := .ofReport (report (usage.polls + look))
        pc := (state.pc + 2) % 4096
        delay := state.delay - 1
        sound := state.sound - 1
        beeping := 0 < state.sound - 1
        redrawn := false
        changes := [] } := by
  intro cycle
  -- Look `tries + 1` of the cycle is look `tries` of its wait.
  obtain ⟨tries, rfl⟩ : ∃ tries, look = tries + 1 := ⟨look - 1, by omega⟩
  cases hkey : (Keypad.ofReport (report (usage.polls + (tries + 1)))).lowest with
  | none => exact absurd (Keypad.lowest_ofReport_eq_none_iff.mp hkey) hreport
  | some key =>
      have hfound : (Keypad.ofReport (report (usage.polls + 1 + tries))).lowest = some key := by
        rw [report_later report, hkey]
      have hresult := h.awaitKey_pressed (host.refresh state.keys usage).1
        { usage with polls := usage.polls + 1 } hpatience
        (fun i hi => (report_later report _ i).trans (hvain (i + 1) (by omega) (by omega))) hfound
        (fun time hlimit => Nat.le_of_add_le_add_right (htime time hlimit))
      rw [← fetchUsage_of_watches h state usage] at hresult
      obtain ⟨hstate, husage, houtcome⟩ := step_of_pressed host usage hhalt hd hresult rfl
      rw [fetchUsage_of_watches h] at husage hstate
      dsimp only at husage hstate
      rw [report_later report] at hstate
      have hregister : cycle.state.register x = key := by
        rw [hstate]
        show (state.registers.write x key).read x = key
        rw [Bank.read_write, if_pos ⟨rfl, by rwa [hsize]⟩]
      refine ⟨houtcome, husage, ?_, ?_⟩
      · rw [hregister]
        exact Keypad.lowest_ofReport_eq_some_iff.mp hkey
      · rw [hregister]
        exact hstate

/-- A wait without a key stalls its cycle when its time is over. -/
theorem step_of_time_over (usage : Usage) {time : Nat}
    (h : host.Watches report interval (some time)) (hhalt : state.halt = none) (hpc : state.pc < 4096)
    (hd : Encoding.decode Instruction.table state.nextWord = some (.awaitKey x))
    (hvain : ∀ look ≥ 1, look ≤ sleeps time interval + 1 → report (usage.polls + look) = [])
    (hpatience : sleeps time interval ≤ usage.patience) :
    let cycle := state.step host usage
    cycle.outcome = .stalled ∧
    cycle.usage =
      { drawn := usage.drawn
        polls := usage.polls + 1 + (sleeps time interval + 1)
        clock := usage.clock + sleeps time interval * interval
        patience := usage.patience - sleeps time interval } ∧
    cycle.state = { state with keys := .released, redrawn := false, changes := [] } := by
  intro cycle
  have hresult := h.awaitKey_expired (host.refresh state.keys usage).1
    { usage with polls := usage.polls + 1 } hpatience
    (fun i hi => (report_later report _ i).trans (hvain (i + 1) (by omega) (by omega)))
  rw [← fetchUsage_of_watches h state usage] at hresult
  obtain ⟨hstate, husage, houtcome⟩ := step_of_expired host usage hhalt hd hresult rfl
  rw [fetchUsage_of_watches h] at husage
  rw [Memory.previous_next hpc] at hstate
  exact ⟨houtcome, husage, hstate⟩

/-- Without a limit and without a key a wait is given up only by the surroundings. -/
theorem step_of_sleepless (usage : Usage) (h : host.Watches report interval none)
    (hhalt : state.halt = none)
    (hd : Encoding.decode Instruction.table state.nextWord = some (.awaitKey x))
    (hvain : ∀ look ≥ 1, report (usage.polls + look) = []) :
    (state.step host usage).outcome = .abandoned .sleepless := by
  have hresult := h.awaitKey_sleepless (host.refresh state.keys usage).1
    { usage with polls := usage.polls + 1 }
    (fun i _ => (report_later report _ i).trans (hvain (i + 1) (by omega)))
  rw [← fetchUsage_of_watches h state usage] at hresult
  exact outcome_step_of_abandoned host usage hhalt hd hresult

/-- A keyboard that reports a key at some look does so at a first one. -/
theorem exists_first_report {reported : Nat → List Int} {look : Nat} (hlook : 1 ≤ look)
    (h : reported look ≠ []) :
    ∃ first ≥ 1, first ≤ look ∧ reported first ≠ [] ∧
      ∀ earlier ≥ 1, earlier < first → reported earlier = [] := by
  have hsome : ∃ look, 1 ≤ look ∧ reported look ≠ [] := ⟨look, hlook, h⟩
  have hspec := Nat.find_spec hsome
  refine ⟨Nat.find hsome, hspec.1, Nat.find_min' hsome ⟨hlook, h⟩, hspec.2, ?_⟩
  intro earlier hearlier hlt
  by_contra hkey
  exact Nat.find_min hsome hlt ⟨hearlier, hkey⟩

end State

/-- A cycle that waits for a key makes `sleeps time interval` sleeps at most, with a look at the keyboard
before each of them and one after the last. If the report of one of these looks is not empty, the first
such report completes the cycle, with the least residue of its numbers in the register and one tick of
the timers. Otherwise the cycle stalls after the last look, and nothing is left of it but the keys of
this look and an empty list of changes, so that the same instruction comes next. In surroundings that let
the computer sleep that often there is no other end. Without a limit, there are surroundings that let it
sleep often enough if and only if a later report is not empty. -/
theorem waits_end_with_key_or_time {host : Host} {report : Nat → List Int} {interval : Nat}
    {limit : Option Nat} {state : State} {x : Nat} (h : host.Watches report interval limit)
    (hhalt : state.halt = none) (hpc : state.pc < 4096) (hsize : state.registers.size = 16)
    (hx : x < 16) (hword : state.nextWord = 0xF00A + 0x100 * x) (usage : Usage) :
    let reported (look : Nat) : List Int := report (usage.polls + look)
    let cycle := state.step host usage
    (∀ look ≥ 1, (∀ earlier ≥ 1, earlier < look → reported earlier = []) → reported look ≠ [] →
      (∀ time, limit = some time → look ≤ sleeps time interval + 1) → look - 1 ≤ usage.patience →
        cycle.outcome = .completed ∧
        cycle.usage =
          { drawn := usage.drawn
            polls := usage.polls + 1 + look
            clock := usage.clock + (look - 1 : Nat) * interval
            patience := usage.patience - (look - 1) } ∧
        IsLeast {residue : Nat | ∃ number ∈ reported look, number % 16 = (residue : Int)}
          (cycle.state.register x) ∧
        cycle.state =
          { state with
            registers := state.registers.write x (cycle.state.register x)
            keys := .ofReport (reported look)
            pc := (state.pc + 2) % 4096
            delay := state.delay - 1
            sound := state.sound - 1
            beeping := 0 < state.sound - 1
            redrawn := false
            changes := [] }) ∧
    (∀ time, limit = some time → sleeps time interval ≤ usage.patience →
      (∀ look ≥ 1, look ≤ sleeps time interval + 1 → reported look = []) →
        cycle.outcome = .stalled ∧
        cycle.usage =
          { drawn := usage.drawn
            polls := usage.polls + 1 + (sleeps time interval + 1)
            clock := usage.clock + sleeps time interval * interval
            patience := usage.patience - sleeps time interval } ∧
        time ≤ sleeps time interval * interval ∧ sleeps time interval * interval < time + interval ∧
        cycle.state = { state with keys := .released, redrawn := false, changes := [] } ∧
        cycle.state.halt = none ∧ cycle.state.nextWord = 0xF00A + 0x100 * x) ∧
    (∀ time, limit = some time → sleeps time interval ≤ usage.patience →
      cycle.outcome = .completed ∨ cycle.outcome = .stalled) ∧
    (limit = none →
      ((∃ patience, (state.step host { usage with patience := patience }).outcome = .completed) ↔
        ∃ look ≥ 1, reported look ≠ []) ∧
      ((∀ look ≥ 1, reported look = []) → ∀ patience,
        (state.step host { usage with patience := patience }).outcome = .abandoned .sleepless)) := by
  intro reported cycle
  have hd : Encoding.decode Instruction.table state.nextWord = some (.awaitKey x) := by
    rw [hword]
    exact Instruction.decode_x hx (by decide) (by decide) (by simp [Instruction.table])
  refine ⟨?_, ?_, ?_, ?_⟩
  · -- a key in time
    intro look hlook hvain hreport htime hpatience
    exact State.step_of_reported usage h hhalt hsize hx hd hlook hvain hreport htime hpatience
  · -- no key in time
    rintro time rfl hpatience hvain
    obtain ⟨houtcome, husage, hstate⟩ := State.step_of_time_over usage h hhalt hpc hd hvain hpatience
    obtain ⟨hlong, hshort⟩ := sleeps_mul_lt h.interval_pos time
    refine ⟨houtcome, husage, hlong, hshort, hstate, ?_, ?_⟩
    · rw [hstate]
      exact hhalt
    · rw [hstate]
      exact hword
  · -- Nothing else can happen: a first key is in time, or there is none.
    rintro time rfl hpatience
    by_cases hvain : ∀ look ≥ 1, look ≤ sleeps time interval + 1 → reported look = []
    · exact .inr (State.step_of_time_over usage h hhalt hpc hd hvain hpatience).1
    · push Not at hvain
      obtain ⟨look, hlook, hlast, hreport⟩ := hvain
      obtain ⟨first, hfirst, hle, hreport, hvain⟩ := State.exists_first_report hlook hreport
      refine .inl (State.step_of_reported usage h hhalt hsize hx hd hfirst hvain hreport ?_ ?_).1
      · rintro _ ⟨⟩
        omega
      · omega
  · -- no limit
    rintro rfl
    refine ⟨⟨?_, ?_⟩, ?_⟩
    · -- Without a key the cycle is given up in all surroundings, so a completed one has had a key.
      rintro ⟨patience, hcompleted⟩
      by_contra hquiet
      push Not at hquiet
      have habandoned := State.step_of_sleepless { usage with patience := patience } h hhalt hd
        hquiet
      rw [hcompleted] at habandoned
      cases habandoned
    · -- The surroundings need to be patient up to the first key only.
      rintro ⟨look, hlook, hreport⟩
      obtain ⟨first, hfirst, -, hreport, hvain⟩ := State.exists_first_report hlook hreport
      refine ⟨first - 1, ?_⟩
      exact (State.step_of_reported { usage with patience := first - 1 } h hhalt hsize hx hd
        hfirst hvain hreport (by rintro _ ⟨⟩) (Nat.le_refl _)).1
    · intro hquiet patience
      exact State.step_of_sleepless { usage with patience := patience } h hhalt hd hquiet

/-- A key that is down when the cycle begins, and keys that are only reported at the last look. -/
def lateKeys (poll : Nat) : List Int := if poll = 0 then [9] else if poll < 4 then [] else [35, -2]

theorem last_look_ends_with_key :
    let host : Host := { reports := some lateKeys, pollInterval := 3, keyWait := some (.whole 7) }
    let state := ((Computer.new {}).call host (.load [0xF5, 0x0A])).state
    let cycle := state.step host { patience := 3 }
    host.Watches lateKeys 3 (some 7) ∧ sleeps 7 3 = 3 ∧ state.halt = none ∧ state.pc < 4096 ∧
      state.registers.size = 16 ∧ state.nextWord = 0xF00A + 0x100 * 5 ∧
      cycle.outcome = .completed ∧ cycle.usage = { polls := 5, clock := 9 } ∧
      cycle.state.register 5 = 3 ∧ cycle.state.pc = 0x202 := by
  intro host state cycle
  have hwatches : host.Watches lateKeys 3 (some 7) := ⟨rfl, rfl, by decide, rfl⟩
  have hhalt : state.halt = none := by decide +kernel
  have hpc : state.pc = 0x200 := by decide +kernel
  have hbound : state.pc < 4096 := by rw [hpc]; decide
  have hsize : state.registers.size = 16 := by decide +kernel
  have hword : state.nextWord = 0xF00A + 0x100 * 5 := by decide +kernel
  obtain ⟨hreported, -⟩ := waits_end_with_key_or_time hwatches hhalt hbound hsize (by decide) hword
    { patience := 3 }
  -- The key that is down at the beginning is not looked at: the fourth look is the first with keys.
  obtain ⟨houtcome, husage, ⟨⟨number, hmem, hresidue⟩, hleast⟩, hstate⟩ :=
    hreported 4 (by decide) (by decide) (by decide) (by rintro _ ⟨⟩; decide) (by decide)
  refine ⟨hwatches, by decide, hhalt, hbound, hsize, hword, houtcome, husage, ?_, ?_⟩
  · have hthree : cycle.state.register 5 ≤ 3 := hleast ⟨35, by decide, by decide⟩
    have hnumber : number = 35 ∨ number = -2 := by simpa [lateKeys] using hmem
    have hregister : number % 16 = (cycle.state.register 5 : Int) := hresidue
    omega
  · show (cycle.state).pc = _
    rw [hstate]
    show (state.pc + 2) % 4096 = _
    rw [hpc]

end ChipEight
