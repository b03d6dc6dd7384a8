import ChipEight.Proofs.History
import ChipEight.Proofs.Surroundings

/-!
# Hosts that cannot be told apart

Every computer asks its host for keys and for the time to wait for them. Four kinds of instruction ask
for more: one takes a random byte, and three look at the dialect. Two hosts that show the same keys and
let a computer wait alike (`Host.WaitsLike`), and that answer these instructions alike
(`Host.OffersSame`), cannot be told apart by a cycle (`Computer.cycle_eq_of_offersSame`).

For a whole run it is enough that they answer alike wherever the first host is asked
(`Computer.FindsSame`): up to there both runs are the same, so the second host is asked the same.
-/

namespace ChipEight

namespace Host

/-- The hosts show a computer the same keys, and it waits for a key as long. -/
structure WaitsLike (first second : Host) : Prop where
  refresh_eq : second.refresh = first.refresh
  pollInterval_eq : second.pollInterval = first.pollInterval
  keyWait_eq : second.keyWait = first.keyWait

/-- Apart from keys, the hosts offer an instruction the same. Of a random byte only the bits count that
the instruction keeps, and of the dialect only the choice that it looks at. -/
def OffersSame (first second : Host) (drawn : Nat) : Instruction → Prop
  | .random _ byte => second.random drawn &&& byte = first.random drawn &&& byte
  | .addToIndex _ => second.dialect.indexOverflowFlag = first.dialect.indexOverflowFlag
  | .store _ | .load _ =>
    second.dialect.loadStoreMovesIndex = first.dialect.loadStoreMovesIndex
  | _ => True

variable {first second : Host}

theorem OffersSame.of_eq (hdialect : second.dialect = first.dialect)
    (hrandom : second.random = first.random) (drawn : Nat) (instruction : Instruction) :
    first.OffersSame second drawn instruction := by
  cases instruction with
  | random x byte => rw [OffersSame, hrandom]
  | addToIndex | store | load => rw [OffersSame, hdialect]
  | _ => trivial

/-! ## One cycle

The three places at which a cycle turns to its host are the fetch, a wait, and the instruction
itself. For the first two `WaitsLike` is enough; for the instruction the hosts have to offer it the
same. -/

namespace WaitsLike

theorem watchKeys_eq (h : first.WaitsLike second) (deadline : Option Quantity) (patience : Nat)
    (keys : Keypad) (usage : Usage) :
    second.watchKeys deadline patience keys usage = first.watchKeys deadline patience keys usage := by
  induction patience generalizing keys usage with
  | zero => rw [watchKeys, watchKeys, h.refresh_eq]
  -- The clocks advance alike, so the rest of the wait is the same by induction.
  | succ patience ih => rw [watchKeys, watchKeys, h.refresh_eq, h.pollInterval_eq]; simp only [ih]

theorem awaitKey_eq (h : first.WaitsLike second) (keys : Keypad) (usage : Usage) :
    second.awaitKey keys usage = first.awaitKey keys usage := by
  have hdeadline : second.deadline usage.clock = first.deadline usage.clock := by
    rw [deadline, deadline, h.keyWait_eq]
  rw [awaitKey, awaitKey, hdeadline]
  split
  · exact h.watchKeys_eq _ _ _ _
  · rfl

theorem fetched_eq (h : first.WaitsLike second) (state : State) (usage : Usage) :
    state.fetched second usage = state.fetched first usage := by
  rw [State.fetched, State.fetched, h.refresh_eq]

theorem fetchUsage_eq (h : first.WaitsLike second) (state : State) (usage : Usage) :
    state.fetchUsage second usage = state.fetchUsage first usage := by
  rw [State.fetchUsage, State.fetchUsage, h.refresh_eq]

end WaitsLike

end Host

section

variable {first second : Host} {word : Nat} {instruction : Instruction} {state : State} {usage : Usage}

theorem execute_eq_of_offersSame (hwaits : first.WaitsLike second)
    (h : first.OffersSame second usage.drawn instruction) :
    execute second word instruction state usage = execute first word instruction state usage := by
  cases instruction with
  | random x byte =>
      have hkept : second.random usage.drawn &&& byte = first.random usage.drawn &&& byte := h
      simp only [execute, hkept]
  | addToIndex x =>
      have hflag : second.dialect.indexOverflowFlag = first.dialect.indexOverflowFlag := h
      simp only [execute, State.addToIndex, hflag]
  | store x =>
      have hmoves : second.dialect.loadStoreMovesIndex = first.dialect.loadStoreMovesIndex := h
      simp only [execute, State.passBytes, hmoves]
  | load x =>
      have hmoves : second.dialect.loadStoreMovesIndex = first.dialect.loadStoreMovesIndex := h
      simp only [execute, State.passBytes, hmoves]
  | awaitKey x => simp only [execute, hwaits.awaitKey_eq]
  | _ => rfl

/-- The instructions that ask for more than keys are always carried out. -/
theorem offersSame_of_not_completed
    (h : (execute first word instruction state usage).outcome ≠ .completed) (drawn : Nat) :
    first.OffersSame second drawn instruction := by
  cases instruction with
  -- A cycle that asks for a byte or for the dialect cannot wait, and cannot trap.
  | random | addToIndex | store | load => exact absurd rfl h
  | _ => trivial

end

namespace Computer

variable {first second : Host} {computer : Computer}

/-- Hosts that offer the same to what is carried out cannot be told apart by a cycle. -/
theorem cycle_eq_of_offersSame (hwaits : first.WaitsLike second) {patience : Nat}
    (h : ∀ executed, computer.executed? first (.step patience) = some executed →
      first.OffersSame second computer.usage.drawn executed.instruction) :
    computer.cycle second patience = computer.cycle first patience := by
  let usage : Usage := { computer.usage with patience := patience }
  show computer.state.step second usage = computer.state.step first usage
  cases hhalt : computer.state.halt with
  | some cause => rw [State.step, State.step, State.stepWith_of_halted hhalt,
      State.stepWith_of_halted hhalt]
  | none =>
      apply State.step_congr hhalt hhalt rfl rfl (hwaits.fetched_eq _ _) (hwaits.fetchUsage_eq _ _)
      intro instruction hd
      apply execute_eq_of_offersSame hwaits
      by_cases hdone : (computer.cycle first patience).outcome = .completed
      · -- It was carried out, and for what is carried out the hosts offer the same.
        rw [State.fetchUsage_drawn]
        exact h _ (executed?_of_completed hdone hd)
      · -- It was not, so it is an instruction that asks for no more than keys.
        apply offersSame_of_not_completed
        rwa [cycle, State.step, State.stepWith_of_decode_some hhalt hd, State.finish_outcome] at hdone

/-! ## Runs

`FindsSame` is about the first run only. By induction the second run has come to the same state
before each call, so that it is the same instruction that asks there. -/

/-- On both hosts a computer does the same in all calls, one after the other. -/
structure SameRun (first second : Host) (computer : Computer) (requests : List Call) : Prop where
  calls_eq : ∀ count, computer.calls second (requests.take count) =
    computer.calls first (requests.take count)
  outcomes_eq : computer.outcomes second requests = computer.outcomes first requests

theorem call_eq_of_cycle_eq {request : Call}
    (h : ∀ patience, request = .step patience →
      computer.cycle second patience = computer.cycle first patience) :
    computer.call second request = computer.call first request ∧
      computer.outcome? second request = computer.outcome? first request := by
  cases request with
  | step patience =>
      rw [call, call, outcome?, outcome?, h patience rfl]
      exact ⟨rfl, rfl⟩
  | _ => exact ⟨rfl, rfl⟩

/-- Whatever calls carry out on the first host, the second offers it the same. -/
def FindsSame (first second : Host) (computer : Computer) (requests : List Call) : Prop :=
  ∀ earlier request later executed, requests = earlier ++ request :: later →
    (computer.calls first earlier).executed? first request = some executed →
    first.OffersSame second (computer.calls first earlier).usage.drawn executed.instruction

namespace FindsSame

variable {request : Call} {rest requests : List Call}

theorem head (h : computer.FindsSame first second (request :: rest)) {executed : Executed}
    (hexecuted : computer.executed? first request = some executed) :
    first.OffersSame second computer.usage.drawn executed.instruction :=
  h [] request rest executed rfl hexecuted

theorem tail (h : computer.FindsSame first second (request :: rest)) :
    (computer.call first request).FindsSame first second rest := by
  intro earlier next later executed hsplit hexecuted
  exact h (request :: earlier) next later executed (by rw [hsplit]; rfl) hexecuted

theorem take (h : computer.FindsSame first second requests) (count : Nat) :
    computer.FindsSame first second (requests.take count) := by
  intro earlier request later executed hsplit hexecuted
  -- The run of fewer calls ends earlier, and what it has carried out the longer one has too.
  refine h earlier request (later ++ requests.drop count) executed ?_ hexecuted
  rw [← List.cons_append, ← List.append_assoc, ← hsplit, List.take_append_drop]

/-- A run that finds on both hosts the same is the same on both. -/
theorem calls_eq (hwaits : first.WaitsLike second) (h : computer.FindsSame first second requests) :
    computer.calls second requests = computer.calls first requests ∧
      computer.outcomes second requests = computer.outcomes first requests := by
  induction requests generalizing computer with
  | nil => exact ⟨rfl, rfl⟩
  | cons request rest ih =>
      -- The first call is the same on both hosts, so the rest starts from the same computer.
      obtain ⟨hcall, houtcome⟩ : computer.call second request = computer.call first request ∧
          computer.outcome? second request = computer.outcome? first request := by
        apply call_eq_of_cycle_eq
        rintro patience rfl
        exact cycle_eq_of_offersSame hwaits fun executed => h.head
      obtain ⟨hcalls, houtcomes⟩ := ih h.tail
      refine ⟨?_, ?_⟩
      · rw [calls_cons, calls_cons, hcall, hcalls]
      · rw [outcomes, outcomes, houtcome, hcall, houtcomes]

theorem sameRun (hwaits : first.WaitsLike second) (h : computer.FindsSame first second requests) :
    SameRun first second computer requests where
  calls_eq count := ((h.take count).calls_eq hwaits).1
  outcomes_eq := (h.calls_eq hwaits).2

end FindsSame

end Computer

end ChipEight
