import Mathlib.Data.List.Induction
import Mathlib.Data.List.Infix
import ChipEight.Proofs.History
import ChipEight.Proofs.WellFormed

/-!
# Open calls

The stack of a computer is a bank of cells with a depth, and cells above the depth keep what earlier
calls have left there. What counts are the cells below the depth, `State.returnAddresses`. They tell
which calls of the history have not returned: the depth is the number of calls less the number of
returns, and the return addresses are those of the open calls, the outermost first
(`returnAddresses_eq_openCalls`).

A subroutine that comes back therefore comes back to its caller (`comes_back`): while the depth stays
above the caller's, nothing writes to the cells that the caller relies on.
-/

namespace ChipEight

/-! ## The stack as a list

A call writes to the cell at the depth and moves the depth up, and a return only moves it down. On
the list of return addresses that is an append and a `dropLast`. -/

namespace State

variable {state : State}

/-- Where the open calls return to, the outermost call first. -/
def returnAddresses (state : State) : List Nat := (List.range state.depth).map state.stack.read

theorem returnAddresses_push (h : state.depth < state.stack.size) (value : Nat) :
    (List.range (state.depth + 1)).map (state.stack.write state.depth value).read =
      state.returnAddresses ++ [value] := by
  rw [List.range_succ, List.map_append, List.map_singleton]
  have hold : (List.range state.depth).map (state.stack.write state.depth value).read =
      state.returnAddresses := by
    apply List.map_congr_left
    intro i hi
    rw [Bank.read_write, if_neg]
    intro hsame
    exact Nat.ne_of_gt (List.mem_range.mp hi) hsame.1
  rw [hold, Bank.read_write, if_pos ⟨rfl, h⟩]

theorem returnAddresses_pop :
    (List.range (state.depth - 1)).map state.stack.read = state.returnAddresses.dropLast := by
  cases hdepth : state.depth with
  | zero => simp [returnAddresses, hdepth]
  | succ n => simp [returnAddresses, hdepth, List.range_succ]

end State

/-! ## Calls and returns in a history

A history is read from its end to its beginning, because whether a call is still open is decided by
what comes after it. What is proved of it is about one more instruction at the end: a call is open
at first, a return closes the innermost open call, and no other instruction matters. -/

namespace Executed

def isCall (executed : Executed) : Bool :=
  match executed.instruction with
  | .call _ => true
  | _ => false

def isReturn (executed : Executed) : Bool :=
  match executed.instruction with
  | .ret => true
  | _ => false

theorem isReturn_of_isCall {executed : Executed} (h : executed.isCall = true) :
    executed.isReturn = false := by
  obtain ⟨before, instruction⟩ := executed
  cases instruction with
  | call address => rfl
  | _ => cases h

theorem isCall_of_isReturn {executed : Executed} (h : executed.isReturn = true) :
    executed.isCall = false := by
  obtain ⟨before, instruction⟩ := executed
  cases instruction with
  | ret => rfl
  | _ => cases h

end Executed

/-- The number of returns in a history that belong to calls before it. -/
def unmatchedReturns : List Executed → Nat
  | [] => 0
  | executed :: later =>
    if executed.isCall then unmatchedReturns later - 1
    else if executed.isReturn then unmatchedReturns later + 1
    else unmatchedReturns later

/-- The addresses of the calls in a history that have not returned, the outermost call first. A call
has returned if a return after it belongs to it or to an earlier call. -/
def openCalls : List Executed → List Nat
  | [] => []
  | executed :: later =>
    if executed.isCall && unmatchedReturns later == 0 then executed.before.pc :: openCalls later
    else openCalls later

/-- One more call is open, and nothing else changes. -/
theorem openCalls_concat_call {executed : Executed} (h : executed.isCall = true)
    (history : List Executed) :
    openCalls (history ++ [executed]) = openCalls history ++ [executed.before.pc] ∧
      unmatchedReturns (history ++ [executed]) = unmatchedReturns history := by
  induction history with
  | nil => simp [openCalls, unmatchedReturns, h]
  | cons first later ih =>
      rw [List.cons_append, openCalls, openCalls, unmatchedReturns, unmatchedReturns, ih.1, ih.2]
      refine ⟨?_, rfl⟩
      split <;> simp

/-- One more return closes the innermost open call, or else it belongs to a call before the history. -/
theorem openCalls_concat_return {executed : Executed} (hcall : executed.isCall = false)
    (h : executed.isReturn = true) (history : List Executed) :
    openCalls (history ++ [executed]) = (openCalls history).dropLast ∧
      unmatchedReturns (history ++ [executed]) =
        if openCalls history = [] then unmatchedReturns history + 1 else unmatchedReturns history := by
  induction history with
  | nil => simp [openCalls, unmatchedReturns, hcall, h]
  | cons first later ih =>
      rw [List.cons_append, openCalls, openCalls, unmatchedReturns, unmatchedReturns, ih.1, ih.2]
      by_cases hfirst : first.isCall = true
      · by_cases hlater : openCalls later = []
        · by_cases hmatched : unmatchedReturns later = 0
          · -- The first call is the innermost open one, and the return is its own.
            simp [hfirst, hlater, hmatched]
          · -- It has returned already, so one more return belongs to a call before the history.
            simp [hfirst, hlater, hmatched]
            omega
        · by_cases hmatched : unmatchedReturns later = 0
          · simp [hfirst, hlater, hmatched, List.dropLast_cons_of_ne_nil]
          · simp [hfirst, hlater, hmatched]
      · by_cases hlater : openCalls later = []
        · simp [hfirst, hlater]
          split <;> rfl
        · simp [hfirst, hlater]

theorem openCalls_concat_other {executed : Executed} (hcall : executed.isCall = false)
    (hreturn : executed.isReturn = false) (history : List Executed) :
    openCalls (history ++ [executed]) = openCalls history ∧
      unmatchedReturns (history ++ [executed]) = unmatchedReturns history := by
  induction history with
  | nil => simp [openCalls, unmatchedReturns, hcall, hreturn]
  | cons first later ih =>
      rw [List.cons_append, openCalls, openCalls, unmatchedReturns, unmatchedReturns, ih.1, ih.2]
      exact ⟨rfl, rfl⟩

namespace Computer

variable {host : Host} {computer : Computer}

/-- A computer that is new or was just reset. -/
inductive Fresh (host : Host) : Computer → Prop
  | new (usage : Usage) : Fresh host (new usage)
  | reset {earlier : Computer} (reachable : Reachable host earlier) :
      Fresh host (earlier.call host .reset)

theorem Fresh.reachable (h : Fresh host computer) : Reachable host computer := by
  cases h with
  | new usage => exact ⟨usage, [], rfl⟩
  | reset reachable => exact reachable.calls [.reset]

theorem Fresh.depth_eq_zero (h : Fresh host computer) : computer.state.depth = 0 := by
  cases h with
  | new usage => rfl
  | @reset earlier reachable =>
      simp only [call, State.reset]
      split <;> rfl

/-- What a call other than a reset does to the stack. -/
inductive Stacks (host : Host) (computer : Computer) (request : Call) : Prop
  | called (executed : Executed)
      (executed_eq : computer.executed? host request = some executed)
      (isCall : executed.isCall = true)
      (before_eq : executed.before = computer.state)
      (room : computer.state.depth < State.stackCapacity)
      (stack_eq : (computer.call host request).state.stack =
        computer.state.stack.write computer.state.depth (Memory.next computer.state.pc))
      (depth_eq : (computer.call host request).state.depth = computer.state.depth + 1)
  | returned (executed : Executed)
      (executed_eq : computer.executed? host request = some executed)
      (isReturn : executed.isReturn = true)
      (opened : computer.state.depth ≠ 0)
      (stack_eq : (computer.call host request).state.stack = computer.state.stack)
      (depth_eq : (computer.call host request).state.depth = computer.state.depth - 1)
      (pc_eq : (computer.call host request).state.pc =
        computer.state.stack.read (computer.state.depth - 1))
  | kept
      (other : ∀ executed, computer.executed? host request = some executed →
        executed.isCall = false ∧ executed.isReturn = false)
      (stack_eq : (computer.call host request).state.stack = computer.state.stack)
      (depth_eq : (computer.call host request).state.depth = computer.state.depth)

theorem call_stacks (host : Host) (computer : Computer) {request : Call}
    (hreset : request ≠ .reset) : Stacks host computer request := by
  cases call_does host computer hreset with
  | idle executed state_eq =>
      refine .kept (by simp [executed]) ?_ ?_
      · rw [state_eq]
      · rw [state_eq]
  | carriedOut usage instruction executed decoded carried state_eq =>
      -- Fetching has moved `pc` past the instruction, and the tick leaves the stack alone.
      cases instruction with
      | ret =>
          have hopen : (computer.state.fetched host usage).depth ≠ 0 := by
            intro hempty
            rw [execute_ret_of_empty hempty] at carried
            cases carried
          rw [execute_ret_of_open hopen] at state_eq
          refine .returned _ executed rfl hopen ?_ ?_ ?_
          all_goals
            rw [state_eq]
            rfl
      | call address =>
          have hroom : ¬ State.stackCapacity ≤ (computer.state.fetched host usage).depth := by
            intro hfull
            rw [execute_call_of_full hfull] at carried
            cases carried
          rw [execute_call_of_room hroom] at state_eq
          refine .called _ executed rfl rfl (Nat.lt_of_not_le hroom) ?_ ?_
          all_goals
            rw [state_eq]
            rfl
      | _ =>
          refine .kept ?_ ?_ ?_
          · intro e he
            rw [executed] at he
            cases he
            exact ⟨rfl, rfl⟩
          · rw [state_eq]
            exact (execute_stack (by simp) (by simp)).1
          · rw [state_eq]
            exact (execute_stack (by simp) (by simp)).2

/-! ## Histories

One call more, then by induction any number of them. The induction goes over the last call, for that
is where the history grows. -/

/-- A call keeps the return addresses those of the open calls. -/
theorem returnAddresses_call (h : computer.state.InRange) {request : Call}
    (hreset : request ≠ .reset) {history : List Executed}
    (hopened : computer.state.returnAddresses = (openCalls history).map Memory.next) :
    (computer.call host request).state.returnAddresses =
      (openCalls (history ++ (computer.executed? host request).toList)).map Memory.next := by
  cases call_stacks host computer hreset with
  | called executed executed_eq isCall before_eq room stack_eq depth_eq =>
      -- The cell at the depth exists, because the depth is below the capacity.
      have hfits : computer.state.depth < computer.state.stack.size := by
        rw [h.stack.size_eq]
        exact room
      calc (computer.call host request).state.returnAddresses
          = computer.state.returnAddresses ++ [Memory.next computer.state.pc] := by
            rw [State.returnAddresses, stack_eq, depth_eq, State.returnAddresses_push hfits]
        _ = (openCalls history ++ [executed.before.pc]).map Memory.next := by
            rw [hopened, before_eq, List.map_append]
            rfl
        _ = _ := by
            rw [executed_eq, Option.toList_some, (openCalls_concat_call isCall history).1]
  | returned executed executed_eq isReturn opened stack_eq depth_eq pc_eq =>
      calc (computer.call host request).state.returnAddresses
          = computer.state.returnAddresses.dropLast := by
            rw [State.returnAddresses, stack_eq, depth_eq, State.returnAddresses_pop]
        _ = (openCalls history).dropLast.map Memory.next := by rw [hopened, List.map_dropLast]
        _ = _ := by
            rw [executed_eq, Option.toList_some,
              (openCalls_concat_return (Executed.isCall_of_isReturn isReturn) isReturn history).1]
  | kept other stack_eq depth_eq =>
      have hkept : openCalls (history ++ (computer.executed? host request).toList) =
          openCalls history := by
        cases he : computer.executed? host request with
        | none => rw [Option.toList_none, List.append_nil]
        | some executed =>
            rw [Option.toList_some]
            exact (openCalls_concat_other (other executed he).1 (other executed he).2 history).1
      rw [hkept, ← hopened, State.returnAddresses, stack_eq, depth_eq]
      rfl

/-- Calls after power-on or a reset keep the return addresses those of the open calls. -/
theorem returnAddresses_eq_openCalls (h : Fresh host computer) {requests : List Call}
    (hreset : Call.reset ∉ requests) :
    (computer.calls host requests).state.returnAddresses =
      (openCalls (computer.history host requests)).map Memory.next := by
  induction requests using List.reverseRecOn with
  | nil =>
      show (List.range computer.state.depth).map _ = _
      rw [h.depth_eq_zero]
      rfl
  | append_singleton requests last ih =>
      simp only [List.mem_append, List.mem_singleton, not_or] at hreset
      have hrange := (h.reachable.calls requests).wellFormed.toInRange
      rw [calls_append, history_append, history_cons, history_nil, List.append_nil]
      exact returnAddresses_call hrange (Ne.symm hreset.2) (ih hreset.1)

/-- The depth grows by one with each call and shrinks by one with each return. -/
theorem depth_calls (host : Host) (computer : Computer) {requests : List Call}
    (hreset : Call.reset ∉ requests) :
    (computer.calls host requests).state.depth +
        (computer.history host requests).countP Executed.isReturn =
      computer.state.depth + (computer.history host requests).countP Executed.isCall := by
  induction requests generalizing computer with
  | nil => rfl
  | cons request rest ih =>
      -- Each way the first call changes the depth is balanced by one count.
      obtain ⟨hfirst, hlater⟩ := List.ne_and_not_mem_of_not_mem_cons hreset
      have hrest := @ih (computer.call host request) hlater
      rw [calls_cons, history_cons, List.countP_append, List.countP_append]
      cases call_stacks host computer hfirst.symm with
      | called executed executed_eq isCall before_eq room stack_eq depth_eq =>
          simp [executed_eq, isCall, Executed.isReturn_of_isCall isCall]
          omega
      | returned executed executed_eq isReturn opened stack_eq depth_eq pc_eq =>
          simp [executed_eq, isReturn, Executed.isCall_of_isReturn isReturn]
          omega
      | kept other stack_eq depth_eq =>
          cases he : computer.executed? host request with
          | none =>
              simp
              omega
          | some executed =>
              simp [other executed he]
              omega

/-! ## Coming back

A cell below the depth is written only when the depth has come down to it. So whatever a subroutine
does, as long as it stays above the depth of its caller, the address that the caller has left behind
is still there when the subroutine ends. -/

theorem stack_read_call {request : Call} (hreset : request ≠ .reset) {i : Nat}
    (hi : i < computer.state.depth) :
    (computer.call host request).state.stack.read i = computer.state.stack.read i := by
  cases call_stacks host computer hreset with
  | called executed executed_eq isCall before_eq room stack_eq depth_eq =>
      -- The cell that is written is the one at the depth.
      rw [stack_eq, Bank.read_write, if_neg]
      intro hsame
      exact Nat.ne_of_gt hi hsame.1
  | returned executed executed_eq isReturn opened stack_eq => rw [stack_eq]
  | kept other stack_eq depth_eq => rw [stack_eq]

/-- Calls that stay above a depth change no cell up to it. -/
theorem stack_read_calls {requests : List Call} (hreset : Call.reset ∉ requests) {k : Nat}
    (habove : ∀ earlier, earlier <+: requests → k < (computer.calls host earlier).state.depth)
    {i : Nat} (hi : i ≤ k) :
    (computer.calls host requests).state.stack.read i = computer.state.stack.read i := by
  induction requests generalizing computer with
  | nil => rfl
  | cons request rest ih =>
      obtain ⟨hfirst, hlater⟩ := List.ne_and_not_mem_of_not_mem_cons hreset
      -- The depth is above `k` before the first call and, by the hypothesis of the induction,
      -- later.
      have hnow : k < computer.state.depth := habove [] List.nil_prefix
      rw [calls_cons, ih hlater]
      · exact stack_read_call hfirst.symm (Nat.lt_of_le_of_lt hi hnow)
      · intro earlier hprefix
        exact habove (request :: earlier) (List.cons_prefix_cons.mpr ⟨rfl, hprefix⟩)

/-- Only a return makes the depth smaller. -/
theorem isReturn_of_depth_lt {request : Call} (hreset : request ≠ .reset)
    (h : (computer.call host request).state.depth < computer.state.depth) :
    (∃ executed, computer.executed? host request = some executed ∧ executed.isReturn = true) ∧
      (computer.call host request).state.stack = computer.state.stack ∧
      (computer.call host request).state.pc =
        computer.state.stack.read (computer.call host request).state.depth := by
  cases call_stacks host computer hreset with
  | called executed executed_eq isCall before_eq room stack_eq depth_eq => omega
  | returned executed executed_eq isReturn opened stack_eq depth_eq pc_eq =>
      exact ⟨⟨executed, executed_eq, isReturn⟩, stack_eq, by rw [pc_eq, depth_eq]⟩
  | kept other stack_eq depth_eq => omega

/-- Calls that stay above a depth until the last of them ends at it: the last one returns to what was
in the cell at that depth, and the cells below are as before. -/
theorem comes_back {requests : List Call} {last : Call} (hreset : Call.reset ∉ requests)
    (hlast : last ≠ .reset) {k : Nat}
    (habove : ∀ earlier, earlier <+: requests → k < (computer.calls host earlier).state.depth)
    (hback : (computer.calls host (requests ++ [last])).state.depth = k) :
    (∃ executed, (computer.calls host requests).executed? host last = some executed ∧
        executed.isReturn = true) ∧
      (computer.calls host (requests ++ [last])).state.pc = computer.state.stack.read k ∧
      ∀ i ≤ k, (computer.calls host (requests ++ [last])).state.stack.read i =
        computer.state.stack.read i := by
  rw [calls_append, calls_cons, calls_nil] at hback ⊢
  -- The last call has made the depth smaller, which only a return does.
  have hshallower : ((computer.calls host requests).call host last).state.depth <
      (computer.calls host requests).state.depth := by
    rw [hback]
    exact habove requests (List.prefix_refl requests)
  obtain ⟨hreturn, hstack, hpc⟩ := isReturn_of_depth_lt hlast hshallower
  refine ⟨hreturn, ?_, ?_⟩
  · rw [hpc, hback]
    exact stack_read_calls hreset habove (Nat.le_refl k)
  · intro i hi
    rw [hstack]
    exact stack_read_calls hreset habove hi

/-- After power-on or a reset the depth is the number of calls less that of returns, and the stack below
it has the addresses that the open calls return to. And when a call of a reachable computer is carried
out, and the depth stays above what it was before until it is that again, then it was a return that
made it so, the computer is just past the call, and the stack is as it was. -/
theorem depth_and_stack_of_history (host : Host) :
    (∀ computer, Fresh host computer → ∀ requests, Call.reset ∉ requests →
      let after := (computer.calls host requests).state
      let history := computer.history host requests
      after.depth + history.countP Executed.isReturn = history.countP Executed.isCall ∧
        after.returnAddresses = (openCalls history).map Memory.next) ∧
    ∀ computer, Reachable host computer → ∀ patience executed,
      computer.executed? host (.step patience) = some executed → executed.isCall = true →
      ∀ requests last, Call.reset ∉ requests → last ≠ .reset →
        let called := computer.call host (.step patience)
        let after := called.calls host (requests ++ [last])
        (∀ earlier, earlier <+: requests →
          computer.state.depth < (called.calls host earlier).state.depth) →
        after.state.depth = computer.state.depth →
        (∃ returned, (called.calls host requests).executed? host last = some returned ∧
          returned.isReturn = true) ∧
        after.state.pc = Memory.next computer.state.pc ∧
        after.state.returnAddresses = computer.state.returnAddresses := by
  constructor
  · -- The history after power-on or a reset.
    intro computer hfresh requests hreset
    refine ⟨?_, returnAddresses_eq_openCalls hfresh hreset⟩
    have hdepth := depth_calls host computer hreset
    rwa [hfresh.depth_eq_zero, Nat.zero_add] at hdepth
  · -- A call that comes back.
    intro computer hreachable patience executed hexecuted hcall requests last hreset hlast called
      after habove hback
    obtain ⟨hreturn, hpc, hstack⟩ := comes_back hreset hlast habove hback
    -- The call itself has written the address to the cell at the old depth.
    have hsize := hreachable.wellFormed.toInRange.stack.size_eq
    cases call_stacks host computer (show Call.step patience ≠ .reset by simp) with
    | called executed' executed_eq isCall before_eq room stack_eq depth_eq =>
        refine ⟨hreturn, ?_, ?_⟩
        · rw [hpc, stack_eq, Bank.read_write, if_pos ⟨rfl, hsize ▸ room⟩]
        · rw [State.returnAddresses, hback]
          apply List.map_congr_left
          intro i hi
          have hlt := List.mem_range.mp hi
          rw [hstack i (Nat.le_of_lt hlt), stack_eq, Bank.read_write, if_neg]
          exact fun hsame => Nat.ne_of_gt hlt hsame.1
    -- It was carried out as a call, so it is none of the others.
    | returned executed' executed_eq isReturn =>
        rw [hexecuted] at executed_eq
        cases executed_eq
        rw [Executed.isReturn_of_isCall hcall] at isReturn
        cases isReturn
    | kept other =>
        rw [(other executed hexecuted).1] at hcall
        cases hcall

/-- A program that calls a subroutine, which calls another one; then both return. -/
def nestedCalls : Call := .load [0x22, 0x04, 0x00, 0xE0, 0x22, 0x08, 0x00, 0xEE, 0x00, 0xEE]

theorem nestedCalls_depth_and_stack :
    let loaded := (new {}).calls {} [nestedCalls]
    let called := loaded.call {} (.step 0)
    Fresh {} (new {}) ∧
      ((new {}).calls {} [nestedCalls, .step 0, .step 0]).state.returnAddresses =
        [0x202, 0x206] ∧
      Reachable {} loaded ∧ (loaded.executed? {} (.step 0)).map Executed.isCall = some true ∧
      (called.calls {} ([.step 0, .step 0] ++ [.step 0])).state.pc = 0x202 := by
  have hreachable : Reachable {} ((new {}).calls {} [nestedCalls]) := ⟨{}, _, rfl⟩
  have hrun :
      let loaded := (new {}).calls {} [nestedCalls]
      let called := loaded.call {} (.step 0)
      openCalls ((new {}).history {} [nestedCalls, .step 0, .step 0]) = [0x200, 0x204] ∧
        (loaded.executed? {} (.step 0)).map Executed.isCall = some true ∧
        (∀ earlier ∈ [Call.step 0, .step 0].inits,
          loaded.state.depth < (called.calls {} earlier).state.depth) ∧
        (called.calls {} ([.step 0, .step 0] ++ [.step 0])).state.depth = loaded.state.depth := by
    decide +kernel
  obtain ⟨hopen, hcall, habove, hback⟩ := hrun
  obtain ⟨executed, hexecuted, hisCall⟩ := Option.map_eq_some_iff.mp hcall
  refine ⟨.new {}, ?_, hreachable, hcall, ?_⟩
  · rw [((depth_and_stack_of_history {}).1 (new {}) (.new {})
      [nestedCalls, .step 0, .step 0] (by decide)).2, hopen]
    rfl
  · rw [((depth_and_stack_of_history {}).2 _ hreachable 0 executed hexecuted hisCall
      [.step 0, .step 0] (.step 0) (by decide) (by decide)
      (fun earlier h => habove earlier ((List.mem_inits _ _).mpr h)) hback).2.1]
    rfl

end Computer

end ChipEight
