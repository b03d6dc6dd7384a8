import Mathlib.Data.Int.Order.Basic
import Mathlib.Data.List.Sort
import ChipEight.Proofs.KeyReports
import ChipEight.Proofs.TonePlayers

/-!
# Keys pressed in a window

Sixteen keys of the keyboard stand for the keys of the keypad, and no two of them for the same one
(`KeySymbol.keypad?_inj`). So a key of the keypad is down just when the last stroke of its own key on the
keyboard has gone down, whatever other strokes there have been (`HeldKeys.Follows`). Strokes of different
keys therefore commute, and every tick that goes well leaves exactly these keys down in the computer
(`Window.keys_follow_strokes`).
-/

namespace ChipEight

/-! ## Keys held down

The keys are kept in a list that is in ascending order and has each of them once. With the order,
two lists with the same members are equal, so it is enough to say which numbers are in them. -/

namespace HeldKeys

variable {held : HeldKeys} {key other number : Int}

/-- The keys are in ascending order, so each of them is there once. -/
def Ascending (held : HeldKeys) : Prop := held.keys.Pairwise (· < ·)

theorem mem_insertKey {keys : List Int} :
    number ∈ insertKey key keys ↔ number = key ∨ number ∈ keys := by
  induction keys with
  | nil => simp [insertKey]
  | cons first rest ih =>
      rw [insertKey]
      split
      · exact List.mem_cons
      · split
        · next hsame => simp [hsame]
        · simp [ih, or_left_comm]

theorem pairwise_insertKey {keys : List Int} (h : keys.Pairwise (· < ·)) :
    (insertKey key keys).Pairwise (· < ·) := by
  induction keys with
  | nil => exact List.pairwise_singleton _ _
  | cons first rest ih =>
      obtain ⟨hfirst, hrest⟩ := List.pairwise_cons.mp h
      rw [insertKey]
      split
      · next hlt =>
        refine List.pairwise_cons.mpr ⟨?_, h⟩
        intro n hn
        rcases List.mem_cons.mp hn with rfl | hlater
        · exact hlt
        · exact Int.lt_trans hlt (hfirst n hlater)
      · split
        · exact h
        · next hge hne =>
          refine List.pairwise_cons.mpr ⟨?_, ih hrest⟩
          intro n hn
          rcases mem_insertKey.mp hn with rfl | hlater
          · omega
          · exact hfirst n hlater

/-- Puts a key down, or up. -/
def put (held : HeldKeys) (key : Int) (down : Bool) : HeldKeys :=
  if down then held.press key else held.release key

theorem mem_put {down : Bool} :
    number ∈ (held.put key down).keys ↔ if number = key then down = true else number ∈ held.keys := by
  cases down with
  | true =>
      rw [show (held.put key true).keys = insertKey key held.keys from rfl, mem_insertKey]
      by_cases hsame : number = key <;> simp [hsame]
  | false =>
      rw [show (held.put key false).keys = held.keys.filter (· != key) from rfl, List.mem_filter]
      by_cases hsame : number = key <;> simp [hsame]

theorem Ascending.put (h : held.Ascending) (key : Int) (down : Bool) : (held.put key down).Ascending := by
  cases down with
  | true => exact pairwise_insertKey h
  | false => exact List.Pairwise.filter _ h

theorem Ascending.ext {first second : HeldKeys} (h : first.Ascending) (h' : second.Ascending)
    (hsame : ∀ number, number ∈ first.keys ↔ number ∈ second.keys) : first = second :=
  congrArg HeldKeys.mk (h.eq_of_mem_iff h' hsame)

theorem Ascending.put_comm (h : held.Ascending) (hne : key ≠ other) (down down' : Bool) :
    (held.put key down).put other down' = (held.put other down').put key down := by
  apply Ascending.ext ((h.put _ _).put _ _) ((h.put _ _).put _ _)
  intro number
  simp only [mem_put]
  -- The last stroke of a key decides, and it is the same stroke in both orders.
  by_cases hkey : number = key
  · simp [hkey, hne]
  · simp [hkey]

end HeldKeys

/-! ## Keys of the keyboard

The table is short, so what it has to satisfy is decided by looking at all of it. -/

namespace KeySymbol

variable {symbol symbol' : KeySymbol} {key : Nat}

theorem mem_of_keypad? (h : keypad? symbol = some key) : (symbol, key) ∈ keypad := by
  obtain ⟨before, after, hsplit, -⟩ := List.lookup_eq_some_iff.mp h
  rw [hsplit]
  exact List.mem_append_right _ List.mem_cons_self

theorem keypad?_lt (h : keypad? symbol = some key) : key < 16 := by
  have hall : ∀ entry ∈ keypad, entry.2 < 16 := by decide
  exact hall _ (mem_of_keypad? h)

/-- No two keys of the keyboard stand for the same key of the keypad. -/
theorem keypad?_inj (h : keypad? symbol = some key) (h' : keypad? symbol' = some key) :
    symbol = symbol' := by
  have honce : (keypad.map Prod.snd).Nodup := by decide
  have hsame := List.inj_on_of_nodup_map honce (mem_of_keypad? h) (mem_of_keypad? h') rfl
  exact congrArg Prod.fst hsame

end KeySymbol

/-! ## Strokes

The strokes are taken from the happenings in order, and whether a key is held depends on the last
stroke of this key only. `Follows` is the invariant that ties the window to this: it holds of a
window without strokes, and each happening preserves it. -/

/-- The key of the keyboard that is struck, and whether it goes down. -/
def Happening.stroke? : Happening → Option (KeySymbol × Bool)
  | .keyPress symbol => some (symbol, true)
  | .keyRelease symbol => some (symbol, false)
  | .tick | .measure _ | .redraw | .close => none

/-- The last stroke of a key of the keyboard has gone down. -/
def Held (happenings : List Happening) (symbol : KeySymbol) : Prop :=
  ((happenings.filterMap Happening.stroke?).filter (·.1 == symbol)).getLast? = some (symbol, true)

instance (happenings : List Happening) (symbol : KeySymbol) : Decidable (Held happenings symbol) :=
  inferInstanceAs (Decidable (_ = some (symbol, true)))

section

variable {earlier : List Happening} {last : Happening} {symbol struck : KeySymbol} {down : Bool}

theorem not_held_nil (symbol : KeySymbol) : ¬ Held [] symbol := nofun

theorem held_concat_of_none (h : last.stroke? = none) :
    Held (earlier ++ [last]) symbol ↔ Held earlier symbol := by
  rw [Held, List.filterMap_append, List.filterMap_cons_none h, List.filterMap_nil, List.append_nil]
  rfl

theorem held_concat_of_some (h : last.stroke? = some (struck, down)) :
    Held (earlier ++ [last]) symbol ↔ if symbol = struck then down = true else Held earlier symbol := by
  rw [Held, List.filterMap_append, List.filterMap_cons_some h, List.filterMap_nil, List.filter_append]
  by_cases hsame : symbol = struck
  · rw [if_pos hsame, List.filter_cons_of_pos (by simp [hsame]), List.filter_nil,
      List.getLast?_concat]
    simp [hsame]
  · rw [if_neg hsame, List.filter_cons_of_neg (by simpa using Ne.symm hsame), List.filter_nil,
      List.append_nil]
    rfl

end

namespace HeldKeys

variable {held : HeldKeys} {happenings earlier : List Happening} {last : Happening}
  {symbol symbol' : KeySymbol} {down down' : Bool}

/-- What a stroke does to the keys that are held down. -/
def heed (held : HeldKeys) (symbol : KeySymbol) (down : Bool) : HeldKeys :=
  match KeySymbol.keypad? symbol with
  | some key => held.put key down
  | none => held

theorem heed_of_some {key : Nat} (h : KeySymbol.keypad? symbol = some key) :
    held.heed symbol down = held.put key down := by rw [heed, h]

theorem heed_of_none (h : KeySymbol.keypad? symbol = none) : held.heed symbol down = held := by
  rw [heed, h]

/-- Strokes of different keys commute. -/
theorem Ascending.heed_comm (h : held.Ascending) (hne : symbol ≠ symbol') :
    (held.heed symbol down).heed symbol' down' = (held.heed symbol' down').heed symbol down := by
  cases hkey : KeySymbol.keypad? symbol with
  | none => rw [heed_of_none hkey, heed_of_none hkey]
  | some key =>
      cases hkey' : KeySymbol.keypad? symbol' with
      | none => rw [heed_of_none hkey', heed_of_none hkey']
      | some key' =>
          -- Keys of the keyboard that are different stand for different keys of the keypad.
          have hother : (key : Int) ≠ key' := by
            intro hsame
            obtain rfl := Int.natCast_inj.mp hsame
            exact hne (KeySymbol.keypad?_inj hkey hkey')
          simp only [heed_of_some hkey, heed_of_some hkey']
          exact h.put_comm hother down down'

/-- The keys that are held down are those of the keys of the keyboard whose last stroke has gone down. -/
structure Follows (held : HeldKeys) (happenings : List Happening) : Prop where
  ascending : held.Ascending
  mem_iff_held : ∀ symbol key, KeySymbol.keypad? symbol = some key →
    ((key : Int) ∈ held.keys ↔ Held happenings symbol)
  mapped : ∀ number ∈ held.keys, ∃ symbol key,
    KeySymbol.keypad? symbol = some key ∧ number = (key : Int)

namespace Follows

theorem nil : Follows {} [] where
  ascending := List.Pairwise.nil
  mem_iff_held symbol _ _ := ⟨nofun, fun h => absurd h (not_held_nil symbol)⟩
  mapped := nofun

theorem concat_of_none (h : held.Follows earlier) (hlast : last.stroke? = none) :
    held.Follows (earlier ++ [last]) where
  ascending := h.ascending
  mem_iff_held symbol key hkey := (h.mem_iff_held symbol key hkey).trans (held_concat_of_none hlast).symm
  mapped := h.mapped

theorem concat_of_some (h : held.Follows earlier) (hlast : last.stroke? = some (symbol, down)) :
    (held.heed symbol down).Follows (earlier ++ [last]) := by
  cases hkey : KeySymbol.keypad? symbol with
  | none =>
      rw [heed_of_none hkey]
      refine ⟨h.ascending, ?_, h.mapped⟩
      intro other key hother
      have hne : other ≠ symbol := by
        rintro rfl
        rw [hkey] at hother
        cases hother
      rw [held_concat_of_some hlast, if_neg hne, h.mem_iff_held other key hother]
  | some key =>
      rw [heed_of_some hkey]
      refine ⟨h.ascending.put _ _, ?_, ?_⟩
      · intro other key' hother
        rw [mem_put, held_concat_of_some hlast, h.mem_iff_held other key' hother]
        -- The keys of the keypad are the same just when the ones of the keyboard are.
        have hsame : (key' : Int) = key ↔ other = symbol := by
          constructor
          · intro heq
            obtain rfl := Int.natCast_inj.mp heq
            exact KeySymbol.keypad?_inj hother hkey
          · rintro rfl
            rw [hkey] at hother
            rw [Option.some.inj hother]
        simp only [hsame]
      · -- What is in the list is mapped: the new key by the stroke, the others as before.
        intro number hnumber
        rw [mem_put] at hnumber
        split at hnumber
        · next hsame => exact ⟨symbol, key, hkey, hsame⟩
        · exact h.mapped number hnumber

theorem mem_iff (h : held.Follows happenings) (number : Int) :
    number ∈ held.keys ↔ ∃ symbol key, KeySymbol.keypad? symbol = some key ∧ number = (key : Int) ∧
      Held happenings symbol := by
  constructor
  · intro hnumber
    obtain ⟨symbol, key, hkey, rfl⟩ := h.mapped number hnumber
    exact ⟨symbol, key, hkey, rfl, (h.mem_iff_held symbol key hkey).mp hnumber⟩
  · rintro ⟨symbol, key, hkey, rfl, hheld⟩
    exact (h.mem_iff_held symbol key hkey).mpr hheld

/-- The computer that gets these keys as a report has them down, and no others. -/
theorem isDown_iff (h : held.Follows happenings) (k : Nat) :
    (Keypad.ofReport held.report).isDown k = true ↔
      ∃ symbol, KeySymbol.keypad? symbol = some k ∧ Held happenings symbol := by
  have hkey : ∀ {symbol : KeySymbol} {key : Nat}, KeySymbol.keypad? symbol = some key →
      Keypad.key key = key := by
    intro symbol key h
    have hlt := KeySymbol.keypad?_lt h
    simp only [Keypad.key, Keypad.size]
    omega
  rw [Keypad.isDown_ofReport]
  constructor
  · rintro ⟨number, hnumber, hdown⟩
    obtain ⟨symbol, key, hmapped, rfl, hheld⟩ := (h.mem_iff number).mp hnumber
    rw [hkey hmapped] at hdown
    exact ⟨symbol, hdown ▸ hmapped, hheld⟩
  · rintro ⟨symbol, hmapped, hheld⟩
    exact ⟨k, (h.mem_iff k).mpr ⟨symbol, k, hmapped, rfl, hheld⟩, hkey hmapped⟩

end Follows

end HeldKeys

/-! ## Cycles

The window lets its computer wait for no time at all, so every look in a cycle finds the same
report. The keys after the cycle are those of this report, whichever end the cycle has come to. -/

/-- A cycle goes on only if the computer has not been halted. -/
theorem State.halt_of_goesOn {host : Host} {state : State} {usage : Usage}
    (h : (state.step host usage).outcome.goesOn = true) : state.halt = none := by
  cases hhalt : state.halt with
  | none => rfl
  | some cause =>
      rw [step, stepWith_of_halted hhalt] at h
      cases h

/-- With a keyboard that always gives the same report, and no time to wait, every cycle of a computer
that is not halted leaves the reported keys down. -/
theorem State.keys_step_of_reports {host : Host} {state : State} {usage : Usage} {numbers : List Int}
    (hreports : host.reports = some fun _ => numbers) (htime : host.keyWait = some (.whole 0))
    (hhalt : state.halt = none) :
    (state.step host usage).state.keys = Keypad.ofReport numbers := by
  have hseen : ∀ keys usage, (host.refresh keys usage).1 = Keypad.ofReport numbers := by
    intro keys usage
    rw [Host.refresh_of_reports hreports]
  have hwait : ∀ keys usage, (host.awaitKey keys usage).keys = Keypad.ofReport numbers := by
    intro keys usage
    rw [Host.awaitKey_of_no_time htime]
    exact hseen keys usage
  cases step_ends hhalt host usage with
  | completed instruction decoded carried state_eq =>
      rw [state_eq]
      by_cases hwaits : ∃ x, instruction = .awaitKey x
      · obtain ⟨x, rfl⟩ := hwaits
        -- A wait looks at the keyboard again, and finds the same keys.
        cases hresult : (host.awaitKey (state.fetched host usage).keys
          (state.fetchUsage host usage)).wait <;>
          simp [execute, hresult, hwait, State.tick, State.setRegister]
      · exact (keys_execute fun x hx => hwaits ⟨x, hx⟩).trans (hseen _ _)
  | stalled x decoded result result_eq expired state_eq =>
      rw [state_eq, ← result_eq]
      exact hwait _ _
  | abandoned x decoded result result_eq error given_up state_eq =>
      rw [state_eq, ← result_eq]
      exact hwait _ _
  | trapped trap traps state_eq =>
      rw [state_eq]
      exact hseen _ _

/-! ## Windows

A stroke does two things that do not touch each other. It changes the keys that are held down, and
two keys of the keyboard work the window itself, whether or not they are mapped. Everything else
that happens leaves the held keys alone. -/

namespace Window

variable {setup : Setup} {rom : Rom} {window : Window} {happening : Happening}
  {symbol symbol' : KeySymbol} {down down' : Bool}

/-- The window with other keys held down. -/
def withPressed (window : Window) (pressed : HeldKeys) : Window := { window with pressed := pressed }

/-- The window after the debugging log has been turned on or off. -/
def toggleLog (window : Window) : Window :=
  let on := window.threshold != .debug
  { window with threshold := if on then .debug else .warning }.note (.debugLog on)

/-- What a stroke does to a window but for the keys that are held down. -/
def command (window : Window) (symbol : KeySymbol) (down : Bool) : Window :=
  if down then
    if symbol = KeySymbol.escape then window.close
    else if symbol = KeySymbol.logToggle then window.toggleLog
    else window
  else window

theorem keyPress_eq (window : Window) (symbol : KeySymbol) :
    window.keyPress symbol =
      (window.command symbol true).withPressed (window.pressed.heed symbol true) := by
  rw [keyPress, command, if_pos rfl]
  split
  · next hescape =>
    rw [hescape]
    rfl
  · split
    · next htoggle =>
      rw [htoggle]
      rfl
    · rw [HeldKeys.heed]
      cases KeySymbol.keypad? symbol <;> rfl

theorem keyRelease_eq (window : Window) (symbol : KeySymbol) :
    window.keyRelease symbol =
      (window.command symbol false).withPressed (window.pressed.heed symbol false) := by
  rw [keyRelease, command, HeldKeys.heed]
  cases KeySymbol.keypad? symbol <;> rfl

theorem happen_of_stroke (h : happening.stroke? = some (symbol, down)) :
    window.happen happening =
      (window.command symbol down).withPressed (window.pressed.heed symbol down) := by
  cases happening with
  | keyPress struck =>
      cases h
      exact keyPress_eq window symbol
  | keyRelease struck =>
      cases h
      exact keyRelease_eq window symbol
  | tick | measure | redraw | close => cases h

theorem pressed_tick (window : Window) : window.tick.pressed = window.pressed := by
  rcases goesOn_or_trap window with hgoes | ⟨trap, htrap⟩
  · rw [tick, runOnce_of_goesOn hgoes]
    rfl
  · rw [tick, runOnce_of_trap htrap]
    rfl

/-- Only strokes press and release keys. -/
theorem pressed_happen_of_none (h : happening.stroke? = none) :
    (window.happen happening).pressed = window.pressed := by
  cases happening with
  | keyPress struck => cases h
  | keyRelease struck => cases h
  | tick =>
      rw [happen]
      split
      · exact pressed_tick window
      · rfl
  | measure elapsed =>
      rw [happen]
      split
      · rw [measure]
        cases Quantity.rate window.redraws elapsed <;> rfl
      · rfl
  | redraw => rfl
  | close => rfl

theorem follows_after (hopened : Opened setup rom window) (happenings : List Happening) :
    (window.after happenings).pressed.Follows happenings := by
  induction happenings using List.reverseRecOn with
  | nil =>
      rw [after_nil, hopened.pressed_eq]
      exact .nil
  | append_singleton earlier last ih =>
      rw [after_concat]
      cases hlast : last.stroke? with
      | none =>
          rw [pressed_happen_of_none hlast]
          exact ih.concat_of_none hlast
      | some stroke =>
          rw [happen_of_stroke hlast]
          exact ih.concat_of_some hlast

/-! ### Strokes of different keys

Commuting comes apart in the same way: the commands to the window commute because closing and
logging are independent of each other, and the held keys because different keys are. -/

theorem command_withPressed (window : Window) (pressed : HeldKeys) (symbol : KeySymbol) (down : Bool) :
    (window.withPressed pressed).command symbol down =
      (window.command symbol down).withPressed pressed := by
  unfold command
  split
  · split
    · rfl
    · split <;> rfl
  · rfl

theorem command_comm (window : Window) (symbol symbol' : KeySymbol) (down down' : Bool) :
    (window.command symbol down).command symbol' down' =
      (window.command symbol' down').command symbol down := by
  unfold command
  split_ifs <;> rfl

/-- Strokes of different keys commute in all that they do to a window. -/
theorem happen_comm (hascending : window.pressed.Ascending) {first second : Happening}
    (hfirst : first.stroke? = some (symbol, down)) (hsecond : second.stroke? = some (symbol', down'))
    (hne : symbol ≠ symbol') :
    (window.happen first).happen second = (window.happen second).happen first := by
  have htwo : ∀ {one two : Happening} {s s' : KeySymbol} {d d' : Bool}, one.stroke? = some (s, d) →
      two.stroke? = some (s', d') → (window.happen one).happen two =
        ((window.command s d).command s' d').withPressed ((window.pressed.heed s d).heed s' d') := by
    intro one two s s' d d' hone htwo
    rw [happen_of_stroke htwo, happen_of_stroke hone, command_withPressed]
    rfl
  rw [htwo hfirst hsecond, htwo hsecond hfirst, command_comm, hascending.heed_comm hne]

/-- A stroke of a key that stands for no key of the keypad leaves the keys as they are. Unless it closes
the window, it does nothing else but turn the log on or off. -/
theorem happen_of_unmapped (window : Window) (hstroke : happening.stroke? = some (symbol, down))
    (hunmapped : KeySymbol.keypad? symbol = none) :
    (window.happen happening).pressed = window.pressed ∧
      (symbol ≠ KeySymbol.escape →
        (∃ threshold log, window.happen happening =
          { window with threshold := threshold, log := log }) ∧
        (symbol ≠ KeySymbol.logToggle → window.happen happening = window)) := by
  rw [happen_of_stroke hstroke, HeldKeys.heed_of_none hunmapped]
  refine ⟨rfl, fun hescape => ⟨?_, fun htoggle => ?_⟩⟩
  · -- Closing is excluded, so the command is the one to the log, or none.
    unfold command
    split
    · split
      · exact ⟨_, _, rfl⟩
      · exact ⟨_, _, rfl⟩
    · exact ⟨_, _, rfl⟩
  · rw [command, if_neg hescape, if_neg htoggle, ite_self]
    rfl

/-! ### Ticks

A window that is still open after a tick was open before it, and its cycle has gone on: a trap would
have closed it. -/

/-- A tick that leaves the window open leaves the keys down in the computer that are held down in the
window. -/
theorem keys_happen_tick (hopened : Opened setup rom window) {happenings : List Happening}
    (hopen : ((window.after happenings).happen .tick).closings = 0) :
    ((window.after happenings).happen .tick).console.state.keys =
      Keypad.ofReport (window.after happenings).pressed.report := by
  have hlast : (window.after (happenings ++ [.tick])).closings = 0 := by
    rw [after_concat]
    exact hopen
  have hgoes : (window.after happenings).cycle.outcome.goesOn = true := goesOn_of_open hopened hlast
  have hbefore : (window.after happenings).closings = 0 := by
    have hle := closings_le_after (window.after happenings) [.tick]
    rw [after_cons, after_nil] at hle
    omega
  have hawaits : (window.after happenings).awaits .tick = true := by
    rw [awaits_after hopened, hbefore]
    rfl
  rw [happen, if_pos hawaits, (tick_of_goesOn hgoes).1]
  exact State.keys_step_of_reports rfl rfl (State.halt_of_goesOn hgoes)

/-- Take a window in which a program has been opened, and anything that happens to it. The keys that it
reports are those of the keypad that stand for the keys of the keyboard whose last stroke has gone down,
each once and in ascending order. So

* strokes of different keys, one right after the other, can change places,
* strokes of keys that stand for no key of the keypad leave the keys as they are; apart from the two keys
  that work the window they do nothing at all,
* every tick that leaves the window open leaves just these keys down in the computer. -/
theorem keys_follow_strokes (setup : Setup) (rom : Rom) {opened : Window}
    (hlaunch : (launch setup rom).result = .ok opened) (happenings : List Happening) :
    let window := opened.after happenings
    window.pressedKeys.Pairwise (· < ·) ∧
    (∀ number, number ∈ window.pressedKeys ↔ ∃ symbol key,
      KeySymbol.keypad? symbol = some key ∧ number = (key : Int) ∧ Held happenings symbol) ∧
    (∀ (first second : Happening) (symbol symbol' : KeySymbol) (down down' : Bool),
      first.stroke? = some (symbol, down) → second.stroke? = some (symbol', down') →
        symbol ≠ symbol' →
          (window.happen first).happen second = (window.happen second).happen first) ∧
    (∀ (stroke : Happening) (symbol : KeySymbol) (down : Bool),
      stroke.stroke? = some (symbol, down) → KeySymbol.keypad? symbol = none →
        (window.happen stroke).pressedKeys = window.pressedKeys ∧
          (symbol ≠ KeySymbol.escape →
            (∃ threshold log, window.happen stroke =
              { window with threshold := threshold, log := log }) ∧
            (symbol ≠ KeySymbol.logToggle → window.happen stroke = window))) ∧
    let ticked := window.happen .tick
    ticked.closings = 0 → ∀ k, ticked.console.state.keys.isDown k = true ↔
      ∃ symbol, KeySymbol.keypad? symbol = some k ∧ Held happenings symbol := by
  intro window
  have hopened := opened_of_launch hlaunch
  have hfollows : window.pressed.Follows happenings := follows_after hopened happenings
  -- The first two parts are the invariant of the strokes.
  refine ⟨hfollows.ascending, hfollows.mem_iff, ?_, ?_, ?_⟩
  · -- strokes of different keys
    intro first second symbol symbol' down down' hfirst hsecond hne
    exact happen_comm hfollows.ascending hfirst hsecond hne
  · -- a stroke of an unmapped key
    intro stroke symbol down hstroke hunmapped
    obtain ⟨hpressed, heffect⟩ := happen_of_unmapped window hstroke hunmapped
    exact ⟨congrArg HeldKeys.report hpressed, heffect⟩
  · -- the keys that a tick leaves down
    intro ticked hopen k
    rw [keys_happen_tick hopened hopen]
    exact hfollows.isDown_iff k

/-- Two keys go down and one of them up again, with the release of a third that has never been down. -/
def overlap : List Happening := [.keyPress "Q", .tick, .keyPress "V", .keyRelease "Q", .keyRelease "W"]

theorem keys_follow_overlap :
    let rom : Rom := [0x12, 0x00]
    let opened := furnished {} rom standardInterval
    let ticked := opened.after (overlap ++ [.tick])
    (launch {} rom).result = .ok opened ∧ ticked.closings = 0 ∧
      (0xF : Int) ∈ (opened.after overlap).pressedKeys ∧
      ticked.console.state.keys.isDown 0xF = true ∧ ¬ ticked.console.state.keys.isDown 0x4 = true := by
  intro rom opened ticked
  have hlaunch : (launch {} rom).result = .ok opened :=
    launch_at_scale 10 (by decide) (by decide) (by decide)
  have hopen : ticked.closings = 0 := by decide +kernel
  have hlow : KeySymbol.keypad? "Q" = some 0x4 := rfl
  have hhigh : KeySymbol.keypad? "V" = some 0xF := rfl
  have hheld : Held overlap "V" := by decide
  have hreleased : ¬ Held overlap "Q" := by decide
  obtain ⟨-, hmem, -, -, hdown⟩ := keys_follow_strokes {} rom hlaunch overlap
  rw [← after_concat] at hdown
  refine ⟨hlaunch, hopen, (hmem 0xF).mpr ⟨"V", 0xF, hhigh, rfl, hheld⟩,
    (hdown hopen 0xF).mpr ⟨"V", hhigh, hheld⟩, ?_⟩
  intro hlowDown
  obtain ⟨symbol, hsymbol, hother⟩ := (hdown hopen 0x4).mp hlowDown
  obtain rfl := KeySymbol.keypad?_inj hsymbol hlow
  -- The only key that could be 4 has been released.
  exact hreleased hother

end Window

end ChipEight
