import ChipEight.Proofs.LikeHosts
import ChipEight.Proofs.WellFormed

/-!
# Random bytes

One instruction takes a random byte, and nothing else does. So the history of a computer tells how many
bytes it has taken (`Computer.drawn_calls`), and the next one it takes is the next of the stream. A
reset puts the computer back, but not the stream.

What an instruction takes it masks, so of the byte only the bits under the mask count. Two streams that
agree in these bits, draw by draw, make no difference: up to a draw both runs are the same, so they
draw at the same place of the stream and with the same mask (`random_bytes_in_order`).
-/

namespace ChipEight

/-- The mask with which an instruction takes a random byte, if it takes one. -/
def Instruction.mask? : Instruction → Option Nat
  | .random _ byte => some byte
  | _ => none

/-- The masks with which the instructions of a history take random bytes, in the order of the bytes. -/
def masks (history : List Executed) : List Nat := history.filterMap (·.instruction.mask?)

theorem masks_append (first second : List Executed) :
    masks (first ++ second) = masks first ++ masks second := List.filterMap_append

/-- The host with another stream of random bytes. -/
def Host.drawing (host : Host) (stream : Nat → Nat) : Host := { host with random := stream }

theorem masks_singleton (executed : Executed) :
    masks [executed] = executed.instruction.mask?.toList := by
  cases h : executed.instruction.mask? <;> simp [masks, h]

/-! ## What draws

The count of random bytes is followed through everything a cycle can do: looking at the keyboard,
waiting, executing. Only one instruction moves it, and that one cannot fail, so counting completed
instructions is the same as counting bytes. -/

namespace Host

variable (host : Host)

theorem drawn_refresh {keys seen : Keypad} {usage after : Usage}
    (h : host.refresh keys usage = (seen, after)) : after.drawn = usage.drawn := by
  have husage := congrArg Usage.drawn (host.refresh_usage keys usage)
  rwa [h] at husage

/-- Looking at the keyboard takes no random bytes. -/
theorem drawn_watchKeys (deadline : Option Quantity) (patience : Nat) (keys : Keypad)
    (usage : Usage) :
    (host.watchKeys deadline patience keys usage).usage.drawn = usage.drawn := by
  -- Every look refreshes the keys, whatever comes after it.
  fun_induction host.watchKeys deadline patience keys usage with
  | case1 patience keys usage seen after hrefresh =>
      have hdrawn := host.drawn_refresh hrefresh
      exact hdrawn
  | case2 patience keys usage seen after hrefresh =>
      have hdrawn := host.drawn_refresh hrefresh
      exact hdrawn
  | case3 keys usage seen after hrefresh =>
      have hdrawn := host.drawn_refresh hrefresh
      exact hdrawn
  | case4 keys usage seen after hrefresh hlowest hover patience ih =>
      have hdrawn := host.drawn_refresh hrefresh
      exact ih.trans hdrawn

theorem drawn_awaitKey (keys : Keypad) (usage : Usage) :
    (host.awaitKey keys usage).usage.drawn = usage.drawn := by
  unfold awaitKey
  split
  · exact host.drawn_watchKeys _ _ _ _
  · rfl

end Host

theorem drawn_execute {host : Host} {word : Nat} {instruction : Instruction} {state : State}
    {usage : Usage} :
    (execute host word instruction state usage).usage.drawn =
      usage.drawn + instruction.mask?.toList.length := by
  cases instruction with
  | ret =>
      by_cases h : state.depth = 0
      · rw [execute_ret_of_empty h]
        rfl
      · rw [execute_ret_of_open h]
        rfl
  | call address =>
      by_cases h : State.stackCapacity ≤ state.depth
      · rw [execute_call_of_full h]
        rfl
      · rw [execute_call_of_room h]
        rfl
  | awaitKey x =>
      have hwait := host.drawn_awaitKey state.keys usage
      dsimp only [execute]
      split <;> exact hwait
  | _ => rfl

namespace Computer

variable {host : Host} {computer : Computer}

/-- A cycle takes the random byte of the instruction that it carries out, and no other. -/
theorem drawn_cycle (host : Host) (computer : Computer) (patience : Nat) :
    (computer.cycle host patience).usage.drawn =
      computer.usage.drawn +
        (masks (computer.executed? host (.step patience)).toList).length := by
  have hnone (h : (computer.cycle host patience).outcome ≠ .completed) :
      computer.executed? host (.step patience) = none := if_neg h
  cases hhalt : computer.state.halt with
  | some cause =>
      rw [hnone (by rw [cycle, State.step, State.stepWith_of_halted hhalt]; simp), cycle, State.step,
        State.stepWith_of_halted hhalt]
      rfl
  | none =>
      cases State.step_ends hhalt host { computer.usage with patience := patience } with
      -- the one end at which an instruction can have drawn
      | completed instruction decoded carried state_eq usage_eq outcome_eq =>
          rw [executed?_of_completed outcome_eq decoded, Option.toList_some, masks_singleton, cycle,
            usage_eq, drawn_execute, State.fetchUsage_drawn]
      -- The other ends carry out nothing that draws, and are no part of the history.
      | stalled x decoded result result_eq expired state_eq usage_eq outcome_eq =>
          rw [hnone (by rw [cycle, outcome_eq]; simp), cycle, usage_eq, ← result_eq,
            Host.drawn_awaitKey, State.fetchUsage_drawn]
          rfl
      | abandoned x decoded result result_eq error given_up state_eq usage_eq outcome_eq =>
          rw [hnone (by rw [cycle, outcome_eq]; simp), cycle, usage_eq, ← result_eq,
            Host.drawn_awaitKey, State.fetchUsage_drawn]
          rfl
      | trapped trap traps state_eq usage_eq outcome_eq =>
          rw [hnone (by rw [cycle, outcome_eq]; simp), cycle, usage_eq, State.fetchUsage_drawn]
          rfl

theorem drawn_call (request : Call) :
    (computer.call host request).usage.drawn =
      computer.usage.drawn + (masks (computer.executed? host request).toList).length := by
  cases request with
  | load rom =>
      by_cases hsize : rom.length > Memory.programCapacity
      · simp [call, State.load, hsize, executed?, masks]
      · simp [call, State.load, hsize, executed?, masks]
  | step patience => exact drawn_cycle host computer patience
  | _ => rfl

/-- The bytes that calls take are those of their history. -/
theorem drawn_calls (requests : List Call) :
    (computer.calls host requests).usage.drawn =
      computer.usage.drawn + (masks (computer.history host requests)).length := by
  induction requests generalizing computer with
  | nil => rfl
  | cons request rest ih =>
      rw [calls_cons, ih, drawn_call, history_cons, masks_append, List.length_append, Nat.add_assoc]

/-- What a draw puts into its register: the next byte of the stream, under the mask. -/
theorem register_of_random (host : Host) (patience : Nat) {x byte : Nat}
    (hwell : computer.state.WellFormed) (hhalt : computer.state.halt = none)
    (hd : Encoding.decode Instruction.table computer.state.nextWord = some (.random x byte)) :
    (computer.cycle host patience).outcome = .completed ∧
      (computer.cycle host patience).state.register x =
        host.random computer.usage.drawn &&& byte := by
  -- The register exists, so it holds what was written.
  have hx : x < 16 := (Instruction.decode_inRange hd).1
  let usage : Usage := { computer.usage with patience := patience }
  have hdone : (execute host computer.state.nextWord (.random x byte)
      (computer.state.fetched host usage) (computer.state.fetchUsage host usage)).outcome =
        .completed := rfl
  rw [cycle, State.step_of_carried hhalt hd hdone]
  refine ⟨rfl, ?_⟩
  show (computer.state.registers.write x
    (host.random (computer.state.fetchUsage host usage).drawn &&& byte)).read x = _
  rw [Bank.read_write, if_pos ⟨rfl, by rw [hwell.registers.size_eq]; exact hx⟩,
    State.fetchUsage_drawn]

/-! ## Streams that agree where it matters

The masks of a run are listed in the order of its draws, so the draw at place `i` of the list takes
byte `i` of what is left of the stream. If two streams agree there under that mask, the hosts offer
the same to every instruction that is carried out. -/

/-- The mask of a draw stands in the history behind those of all earlier draws. -/
theorem getElem?_masks {earlier later : List Call} {request : Call} {executed : Executed} {mask : Nat}
    (h : (computer.calls host earlier).executed? host request = some executed)
    (hmask : executed.instruction.mask? = some mask) :
    (masks (computer.history host (earlier ++ request :: later)))[
      (masks (computer.history host earlier)).length]? = some mask := by
  have hfirst : masks [executed] = [mask] := by rw [masks_singleton, hmask, Option.toList_some]
  rw [history_append, history_cons, h, Option.toList_some, masks_append, masks_append, hfirst,
    List.getElem?_append_right (Nat.le_refl _), Nat.sub_self]
  rfl

/-- Random bytes are taken in the order of their stream, one by each draw, and a reset does not give any
back: a draw takes the byte whose number is that of the draws before it. Cycles that do not complete
take none. Of each byte only the bits under the mask of its draw matter: two streams that agree in
these bits, for all draws that a computer makes with the first, make no difference to it. -/
theorem random_bytes_in_order (host : Host) :
    (∀ usage requests,
      let computer := (new usage).calls host requests
      let draws := (masks ((new usage).history host requests)).length
      computer.usage.drawn = usage.drawn + draws ∧
      ∀ patience,
        let cycle := computer.cycle host patience
        (cycle.outcome ≠ .completed → cycle.usage.drawn = computer.usage.drawn) ∧
        ∀ x byte, computer.state.halt = none →
          Encoding.decode Instruction.table computer.state.nextWord = some (.random x byte) →
          cycle.outcome = .completed ∧ cycle.usage.drawn = computer.usage.drawn + 1 ∧
            cycle.state.register x = host.random (usage.drawn + draws) &&& byte) ∧
    ∀ (first second : Nat → Nat) (computer : Computer) requests,
      (∀ i mask, (masks (computer.history (host.drawing first) requests))[i]? = some mask →
        second (computer.usage.drawn + i) &&& mask = first (computer.usage.drawn + i) &&& mask) →
      SameRun (host.drawing first) (host.drawing second) computer requests := by
  refine ⟨?_, ?_⟩
  · -- the order
    intro usage requests computer draws
    have hreachable : Reachable host computer := ⟨usage, requests, rfl⟩
    have hdrawn : computer.usage.drawn = usage.drawn + draws := drawn_calls requests
    refine ⟨hdrawn, ?_⟩
    intro patience cycle
    refine ⟨?_, ?_⟩
    · -- cycles that do not complete
      intro houtcome
      have hcycle := drawn_cycle host computer patience
      rwa [executed?, if_neg houtcome] at hcycle
    · -- a draw
      intro x byte hhalt hd
      obtain ⟨hdone, hregister⟩ := register_of_random host patience hreachable.wellFormed hhalt hd
      have hcycle := drawn_cycle host computer patience
      rw [executed?_of_completed hdone hd, Option.toList_some, masks_singleton] at hcycle
      rw [hdrawn] at hregister
      exact ⟨hdone, hcycle, hregister⟩
  · -- two streams
    intro first second computer requests hagree
    apply FindsSame.sameRun (⟨rfl, rfl, rfl⟩ : (host.drawing first).WaitsLike (host.drawing second))
    rintro earlier request later executed rfl hexecuted
    rw [drawn_calls]
    cases hinstruction : executed.instruction with
    | random x byte =>
        exact hagree _ _ (getElem?_masks hexecuted (by rw [hinstruction]; rfl))
    | addToIndex | store | load => rfl
    | _ => trivial

/-- A program that draws a byte for its low digit and one for its high digit, and begins again. -/
def dice : Rom := [0xC0, 0x0F, 0xC1, 0xF0, 0x12, 0x00]

/-- A stream of random bytes. -/
def rolls (i : Nat) : Nat := (0x35 + 0x47 * i) % 0x100

/-- Another stream, with the same low digits in its even places and the same high digits in its odd
ones. -/
def loadedRolls (i : Nat) : Nat := rolls i ^^^ (if i % 2 = 0 then 0xF0 else 0x0F)

theorem dice_draw_in_order :
    let host : Host := Host.drawing {} rolls
    let requests : List Call := [.load dice, .step 0, .step 0, .step 0, .reset, .step 0]
    let computer := (new {}).calls host requests
    masks ((new {}).history host requests) = [0x0F, 0xF0, 0x0F] ∧
      computer.usage.drawn = 3 ∧ computer.state.halt = none ∧
      Encoding.decode Instruction.table computer.state.nextWord = some (.random 1 0xF0) ∧
      (computer.cycle host 0).state.register 1 = rolls 3 &&& 0xF0 ∧
      loadedRolls 1 ≠ rolls 1 ∧
      SameRun host (Host.drawing {} loadedRolls) (new {}) requests := by
  intro host requests computer
  have hmasks : masks ((new {}).history host requests) = [0x0F, 0xF0, 0x0F] := by decide +kernel
  have hnext : computer.state.halt = none ∧
      Encoding.decode Instruction.table computer.state.nextWord = some (.random 1 0xF0) := by
    decide +kernel
  obtain ⟨hhalt, hd⟩ := hnext
  obtain ⟨hdrawn, hcycle⟩ := (random_bytes_in_order host).1 {} requests
  rw [hmasks] at hdrawn hcycle
  refine ⟨hmasks, hdrawn, hhalt, hd, ?_, by decide, ?_⟩
  · exact ((hcycle 0).2 1 0xF0 hhalt hd).2.2
  · apply (random_bytes_in_order {}).2 rolls loadedRolls (new {}) requests
    -- Three draws, each under its mask; there is no fourth.
    intro i mask hmask
    rw [show Host.drawing {} rolls = host from rfl, hmasks] at hmask
    match i with
    | 0 | 1 | 2 =>
        cases hmask
        decide
    | i + 3 => cases hmask

end Computer

end ChipEight
