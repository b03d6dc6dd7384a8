import Mathlib.Algebra.BigOperators.Group.Finset.Basic
import Mathlib.Algebra.GroupWithZero.Nat
import ChipEight.Proofs.Pixels
import ChipEight.Proofs.Stores

/-!
# Sprites drawn over one another

A word that draws a sprite at the point of two registers, neither of them the flag, is a stamp. Drawing
changes the flag and the screen alone, so after any stamps each further one still goes to the same place
and looks the same (`State.SameGround`). All of them together flip the pixels that each of them flips
(`State.stampedBy_stamped`), and a pixel is turned over if it is flipped an odd number of times. So only
the stamps that occur an odd number of times matter, and their order does not (`sprites_cancel_in_pairs`).

The same holds in the cycles of a session that carries out nothing but stamps, whatever else is in it
(`Computer.calls_stampedBy`).
-/

namespace ChipEight

/-! ## Parity

A pixel that is flipped twice is as it was, so drawing depends on counts modulo two only. The lemma
about sums carries this over from the stamps to their pixels, which may belong to several stamps at
once. -/

/-- A sum over a list of which each member occurs an odd number of times in both lists or in neither. -/
theorem sum_map_mod_two {α : Type} [DecidableEq α] {first second : List α}
    (h : ∀ a, second.count a % 2 = first.count a % 2) (f : α → Nat) :
    (second.map f).sum % 2 = (first.map f).sum % 2 := by
  let members := (first ++ second).toFinset
  -- Both sums are taken over all members of both lists, with the counts as factors.
  have hsum : ∀ l : List α, (∀ a ∈ l, a ∈ members) →
      (l.map f).sum = ∑ a ∈ members, l.count a * f a := by
    intro l hl
    rw [Finset.sum_list_map_count]
    apply Finset.sum_subset
    · intro a ha
      exact hl a (List.mem_toFinset.mp ha)
    · intro a _ ha
      rw [List.count_eq_zero_of_not_mem fun hmem => ha (List.mem_toFinset.mpr hmem), zero_nsmul]
  rw [hsum first (by simp +contextual [members]), hsum second (by simp +contextual [members]),
    Finset.sum_nat_mod, Finset.sum_nat_mod members 2 fun a => first.count a * f a]
  congr 1
  apply Finset.sum_congr rfl
  intro a _
  -- The factors are the only difference, and they have the same parity.
  rw [Nat.mul_mod, h, ← Nat.mul_mod]

namespace Screen

variable {screen : Screen}

/-- What is on the screen in the end does not depend on what is recorded of the way there. -/
theorem screen_foldl_flip (points : List (Nat × Nat)) (drawing : Drawing) :
    (points.foldl Drawing.flip drawing).screen = (drawing.screen.draw points).screen := by
  induction points generalizing drawing with
  | nil => rfl
  | cons p ps ih =>
      -- The first flip is the same whatever has been recorded before.
      rw [List.foldl_cons, ih]
      exact (ih (Drawing.flip ⟨drawing.screen, [], false⟩ p)).symm

theorem screen_draw_append (first second : List (Nat × Nat)) :
    (screen.draw (first ++ second)).screen = ((screen.draw first).screen.draw second).screen := by
  rw [draw, List.foldl_append, screen_foldl_flip]
  rfl

/-- Pixels that are flipped an odd number of times by both lists or by neither look the same. -/
theorem screen_draw_eq (h : screen.rows.Fits 32 (2 ^ 64)) {first second : List (Nat × Nat)}
    (hfirst : ∀ p ∈ first, OnScreen p) (hsecond : ∀ p ∈ second, OnScreen p)
    (hodd : ∀ p, second.count p % 2 = first.count p % 2) :
    (screen.draw second).screen = (screen.draw first).screen := by
  apply ext_lit (foldl_flip_fits second h) (foldl_flip_fits first h)
  intro x y
  rw [lit_foldl_flip hsecond h.size_eq, lit_foldl_flip hfirst h.size_eq, hodd]

end Screen

/-! ## Stamps

A stamp looks at two registers, the index and the bytes of its sprite, and none of these is changed
by drawing. `SameGround` says that they are the same in two states, and then a stamp has the same
pixels in both. -/

/-- A word that draws a sprite at the point of two registers, neither of them the flag. -/
structure Stamp where
  word : Nat
  word_lt : word < 0x10000
  draws : word / 0x1000 = 0xD
  x_ne : Word.x word ≠ State.flagRegister
  y_ne : Word.y word ≠ State.flagRegister
  deriving DecidableEq

/-- The states agree in all that says where a stamp goes and what it looks like: the registers but the
flag, the index and the bytes that it points to. -/
structure State.SameGround (state other : State) : Prop where
  register_eq : ∀ i, i ≠ flagRegister → other.register i = state.register i
  index_eq : other.index = state.index
  byte_eq : ∀ row < 15, other.memory.read (Memory.wrap (state.index + row)) =
    state.memory.read (Memory.wrap (state.index + row))

namespace State.SameGround

variable {state other third : State}

theorem refl (state : State) : SameGround state state := ⟨fun _ _ => rfl, rfl, fun _ _ => rfl⟩

theorem trans (h : SameGround state other) (h' : SameGround other third) : SameGround state third where
  register_eq i hi := (h'.register_eq i hi).trans (h.register_eq i hi)
  index_eq := h'.index_eq.trans h.index_eq
  byte_eq row hrow := by
    have hbyte := h'.byte_eq row hrow
    rw [h.index_eq] at hbyte
    exact hbyte.trans (h.byte_eq row hrow)

end State.SameGround

namespace Stamp

variable {state after : State} {host : Host}

def instruction (stamp : Stamp) : Instruction :=
  .draw (Word.x stamp.word) (Word.y stamp.word) (Word.nibble stamp.word)

theorem decode_word (stamp : Stamp) :
    Encoding.decode Instruction.table stamp.word = some stamp.instruction :=
  (Instruction.decode_eq_draw_iff stamp.word_lt).mpr
    ⟨stamp.draws, (Word.x_eq _).symm, (Word.y_eq _).symm, (Word.nibble_eq _).symm⟩

/-- The pixels that a stamp flips. -/
def points (state : State) (stamp : Stamp) : List (Nat × Nat) :=
  Sprite.points (state.register (Word.x stamp.word)) (state.register (Word.y stamp.word))
    (Memory.bytes state.memory state.index (Word.nibble stamp.word))

theorem onScreen_of_mem_points {stamp : Stamp} {p : Nat × Nat} (h : p ∈ stamp.points state) :
    Screen.OnScreen p := Sprite.onScreen_of_mem_points h

theorem nibble_lt (stamp : Stamp) : Word.nibble stamp.word < 16 := by
  rw [Word.nibble_eq]
  omega

theorem points_nodup (state : State) (stamp : Stamp) : (stamp.points state).Nodup := by
  apply Sprite.points_nodup
  rw [Memory.length_bytes]
  exact Nat.le_of_lt (Nat.lt_trans stamp.nibble_lt (by decide))

theorem points_eq (h : State.SameGround state after) (stamp : Stamp) :
    stamp.points after = stamp.points state := by
  have hbytes : Memory.bytes after.memory after.index (Word.nibble stamp.word) =
      Memory.bytes state.memory state.index (Word.nibble stamp.word) := by
    rw [h.index_eq]
    apply List.map_congr_left
    intro address haddress
    obtain ⟨row, hrow, rfl⟩ := List.mem_map.mp haddress
    have hlast := stamp.nibble_lt
    exact h.byte_eq row (by have := List.mem_range.mp hrow; omega)
  rw [points, points, h.register_eq _ stamp.x_ne, h.register_eq _ stamp.y_ne, hbytes]

theorem flatMap_points_eq (h : State.SameGround state after) (stamps : List Stamp) :
    stamps.flatMap (·.points after) = stamps.flatMap (·.points state) :=
  List.flatMap_congr fun stamp _ => points_eq h stamp

/-- What a stamp makes of a state: its pixels are flipped and reported, and the flag says whether one of
them was lit. -/
structure Leaves (stamp : Stamp) (state after : State) : Prop where
  ground : State.SameGround state after
  size_eq : after.registers.size = state.registers.size
  screen_eq : after.screen = (state.screen.draw (stamp.points state)).screen
  changes_eq : after.changes = (state.screen.draw (stamp.points state)).changes
  flag_eq : state.registers.size = 16 →
    after.register State.flagRegister =
      if (state.screen.draw (stamp.points state)).collision then 1 else 0

theorem execute_leaves (stamp : Stamp) (host : Host) (word : Nat) (state : State) (usage : Usage) :
    stamp.Leaves state (execute host word stamp.instruction state usage).state where
  ground := by
    refine ⟨?_, rfl, fun _ _ => rfl⟩
    intro i hi
    show (state.registers.write State.flagRegister _).read i = _
    rw [Bank.read_write, if_neg fun h => hi h.1.symm]
    rfl
  size_eq := Bank.size_write _ _ _
  screen_eq := rfl
  changes_eq := rfl
  flag_eq hsize := by
    show (state.registers.write State.flagRegister _).read State.flagRegister = _
    rw [Bank.read_write, hsize, if_pos ⟨rfl, by decide⟩]
    rfl

theorem carryOut_leaves (stamp : Stamp) (host : Host) (usage : Usage) (state : State) :
    stamp.Leaves state (state.carryOut host usage stamp.word) := by
  rw [State.carryOut_of_decode stamp.decode_word]
  exact stamp.execute_leaves host stamp.word state usage

end Stamp

/-! ## One stamp after the other

The pixels of all stamps are those that each has in the first state, because the ground stays the
same. So drawing one after the other is drawing one long list of points. -/

namespace State

variable {state : State}

/-- The state after the words of stamps have been carried out one after the other. -/
def stamped (host : Host) (usage : Usage) (state : State) (stamps : List Stamp) : State :=
  stamps.foldl (fun state stamp => state.carryOut host usage stamp.word) state

/-- Stamps flip what each of them flips, and leave the ground as it is. -/
structure StampedBy (stamps : List Stamp) (state after : State) : Prop where
  ground : SameGround state after
  screen_eq : after.screen = (state.screen.draw (stamps.flatMap (·.points state))).screen

theorem StampedBy.nil {after : State} (hground : SameGround state after)
    (hscreen : after.screen = state.screen) : StampedBy [] state after := ⟨hground, hscreen⟩

theorem StampedBy.idle {stamps : List Stamp} {first after : State} (hground : SameGround state first)
    (hscreen : first.screen = state.screen) (hrest : StampedBy stamps first after) :
    StampedBy stamps state after where
  ground := hground.trans hrest.ground
  screen_eq := by rw [hrest.screen_eq, Stamp.flatMap_points_eq hground, hscreen]

theorem StampedBy.cons {stamp : Stamp} {stamps : List Stamp} {first after : State}
    (hfirst : stamp.Leaves state first) (hrest : StampedBy stamps first after) :
    StampedBy (stamp :: stamps) state after where
  ground := hfirst.ground.trans hrest.ground
  screen_eq := by
    rw [hrest.screen_eq, Stamp.flatMap_points_eq hfirst.ground, hfirst.screen_eq, List.flatMap_cons,
      Screen.screen_draw_append]

theorem stampedBy_stamped (host : Host) (usage : Usage) (state : State) (stamps : List Stamp) :
    StampedBy stamps state (state.stamped host usage stamps) := by
  induction stamps generalizing state with
  | nil => exact .nil (.refl state) rfl
  | cons stamp stamps ih => exact .cons (stamp.carryOut_leaves host usage state) (ih _)

/-- Of stamps on the same ground only those count that there is an odd number of. -/
theorem StampedBy.screen_eq_of_odd {stamps stamps' : List Stamp} {state' after after' : State}
    (hrange : state.InRange) (h : StampedBy stamps state after) (h' : StampedBy stamps' state' after')
    (hground : SameGround state state') (hscreen : state'.screen = state.screen)
    (hodd : ∀ stamp, stamps'.count stamp % 2 = stamps.count stamp % 2) :
    after'.screen = after.screen := by
  have honScreen : ∀ stamps : List Stamp, ∀ p ∈ stamps.flatMap (·.points state), Screen.OnScreen p := by
    intro stamps p hp
    obtain ⟨stamp, -, hmem⟩ := List.mem_flatMap.mp hp
    exact Stamp.onScreen_of_mem_points hmem
  rw [h.screen_eq, h'.screen_eq, hscreen, Stamp.flatMap_points_eq hground]
  apply Screen.screen_draw_eq hrange.rows (honScreen stamps) (honScreen stamps')
  intro p
  rw [List.count_flatMap, List.count_flatMap]
  exact sum_map_mod_two hodd _

end State

/-- The second of two equal stamps takes the first one away again, and hits what that one has lit. -/
theorem Stamp.Leaves.twice {stamp : Stamp} {state first second : State} (hrange : state.InRange)
    (hfirst : stamp.Leaves state first) (hsecond : stamp.Leaves first second) :
    second.screen = state.screen ∧
      second.register State.flagRegister = if first.changes.any (·.lit) then 1 else 0 := by
  constructor
  · -- Two stamps are as good as none.
    have hnone : State.StampedBy [] state state := .nil (.refl state) rfl
    have htwo : State.StampedBy [stamp, stamp] state second :=
      .cons hfirst (.cons hsecond (.nil (.refl second) rfl))
    apply hnone.screen_eq_of_odd hrange htwo (.refl state) rfl
    intro other
    simp only [List.count_cons, List.count_nil]
    omega
  · -- The second one finds its pixels as the first one has reported them.
    let points := stamp.points state
    have hpoints : ∀ p ∈ points, Screen.OnScreen p := fun _ => onScreen_of_mem_points
    have hnodup : points.Nodup := stamp.points_nodup state
    have hsize := hrange.rows.size_eq
    have hdrawn : first.screen.rows.size = Screen.height := by
      rw [hfirst.screen_eq]
      exact (Screen.foldl_flip_fits points hrange.rows).size_eq
    -- The second report names the same pixels, each with the opposite value.
    have hchanges : (first.screen.draw points).changes =
        first.changes.map fun change => { change with lit := !change.lit } := by
      rw [hfirst.changes_eq, Screen.changes_draw hdrawn hnodup hpoints,
        Screen.changes_draw hsize hnodup hpoints, List.map_map]
      apply List.map_congr_left
      intro p hp
      have hlit := Screen.lit_draw hsize hnodup hpoints p.1 p.2
      rw [← hfirst.screen_eq, decide_eq_true hp, Bool.xor_true] at hlit
      simp [hlit]
    have hcollision : (first.screen.draw points).collision =
        (first.screen.draw points).changes.any (!·.lit) :=
      Screen.collision_foldl_flip hpoints hdrawn rfl
    have hflag := hsecond.flag_eq (hfirst.size_eq.trans hrange.registers.size_eq)
    rw [points_eq hfirst.ground, hcollision, hchanges, List.any_map] at hflag
    simpa [Function.comp_def] using hflag

/-! ## Sessions that stamp

In a session stamps come with fetches, ticks, keys and stalled waits in between. None of these
touches the ground or the screen, so by induction on the calls the session is as good as its stamps. -/

namespace Computer

variable {host : Host} {computer : Computer}

/-- A call that carries out a stamp does what the stamp does. -/
theorem call_leaves {request : Call} {stamp : Stamp} (hreset : request ≠ .reset)
    (h : (computer.executed? host request).map (·.instruction) = some stamp.instruction) :
    stamp.Leaves computer.state (computer.call host request).state := by
  cases call_does host computer hreset with
  | idle executed state_eq =>
      rw [executed] at h
      cases h
  | carriedOut usage instruction executed decoded carried state_eq =>
      rw [executed] at h
      obtain rfl : instruction = stamp.instruction := Option.some.inj h
      have hleaves := stamp.execute_leaves host computer.state.nextWord
        (computer.state.fetched host usage) (computer.state.fetchUsage host usage)
      -- Fetching and the tick touch nothing that a stamp looks at or changes.
      rw [state_eq]
      exact ⟨⟨hleaves.ground.register_eq, hleaves.ground.index_eq, hleaves.ground.byte_eq⟩,
        hleaves.size_eq, hleaves.screen_eq, hleaves.changes_eq, hleaves.flag_eq⟩

/-- A call that carries out nothing leaves the ground and the screen as they are. -/
theorem call_idle {request : Call} (hkeeps : request.KeepsMemory)
    (h : computer.executed? host request = none) :
    State.SameGround computer.state (computer.call host request).state ∧
      (computer.call host request).state.screen = computer.state.screen := by
  have hmemory : (computer.call host request).state.memory = computer.state.memory := by
    rw [memory_call hkeeps, h]
    rfl
  cases call_does host computer hkeeps.1 with
  | carriedOut usage instruction executed decoded carried state_eq =>
      rw [executed] at h
      cases h
  | idle executed state_eq =>
      have hregisters := congrArg State.registers state_eq
      have hindex := congrArg State.index state_eq
      have hscreen := congrArg State.screen state_eq
      refine ⟨⟨?_, hindex, ?_⟩, hscreen⟩
      · intro i _
        exact congrArg (Bank.read · i) hregisters
      · intro row _
        rw [hmemory]

/-- A session without loads and resets that carries out nothing but stamps does what they do, with
whatever keys and vain waits in between. -/
theorem calls_stampedBy {requests : List Call} {stamps : List Stamp}
    (hkeep : ∀ request ∈ requests, request.KeepsMemory)
    (h : (computer.history host requests).map (·.instruction) = stamps.map (·.instruction)) :
    State.StampedBy stamps computer.state (computer.calls host requests).state := by
  induction requests generalizing computer stamps with
  | nil =>
      obtain rfl : stamps = [] := List.map_eq_nil_iff.mp h.symm
      exact .nil (.refl _) rfl
  | cons request rest ih =>
      have hfirst : request.KeepsMemory := hkeep request (by simp)
      have hrest : ∀ request ∈ rest, request.KeepsMemory := fun r hr => hkeep r (by simp [hr])
      rw [history_cons] at h
      rw [calls_cons]
      cases hexecuted : computer.executed? host request with
      | none =>
          rw [hexecuted] at h
          obtain ⟨hground, hscreen⟩ := call_idle hfirst hexecuted
          exact .idle hground hscreen (ih hrest h)
      | some executed =>
          rw [hexecuted] at h
          cases stamps with
          | nil => cases h
          | cons stamp stamps =>
              obtain ⟨hinstruction, hlater⟩ := List.cons.inj h
              have hleaves : stamp.Leaves computer.state (computer.call host request).state := by
                apply call_leaves hfirst.1
                rw [hexecuted]
                exact congrArg some hinstruction
              exact .cons hleaves (ih hrest hlater)

end Computer

/-! ## Pairs of stamps

Everything follows from the one fact about odd numbers: permuting changes no number, and taking out
two equal stamps lowers one of them by two. -/

/-- Words that draw without the flag register are carried out one after the other. What is on the screen
in the end is told by the state before and by which words occur an odd number of times: their order does
not matter, and two equal ones can be left out. A word that is carried out twice in a row leaves the
screen as it was, and sets the flag the second time just if it turned a pixel on the first time. The
cycles of a session which carries out nothing else leave the same screen, on any computer whose
registers, index, sprite bytes and screen are those of the state. -/
theorem sprites_cancel_in_pairs (host : Host) (usage : Usage) {state : State} (hrange : state.InRange) :
    let drawn (stamps : List Stamp) : State := state.stamped host usage stamps
    (∀ stamps stamps' : List Stamp,
      (∀ stamp, stamps'.count stamp % 2 = stamps.count stamp % 2) →
      (drawn stamps').screen = (drawn stamps).screen) ∧
    (∀ stamps stamps' : List Stamp, stamps'.Perm stamps →
      (drawn stamps').screen = (drawn stamps).screen) ∧
    (∀ first second third : List Stamp, ∀ stamp,
      (drawn (first ++ stamp :: (second ++ stamp :: third))).screen =
        (drawn (first ++ (second ++ third))).screen) ∧
    (∀ stamp,
      (drawn [stamp, stamp]).screen = state.screen ∧
        (drawn [stamp, stamp]).register 0xF =
          if (drawn [stamp]).changes.any (·.lit) then 1 else 0) ∧
    (∀ computer : Computer, state.SameGround computer.state → computer.state.screen = state.screen →
      ∀ requests : List Call, (∀ request ∈ requests, request.KeepsMemory) →
      ∀ stamps stamps' : List Stamp,
        (computer.history host requests).map (·.instruction) = stamps'.map (·.instruction) →
        (∀ stamp, stamps'.count stamp % 2 = stamps.count stamp % 2) →
        (computer.calls host requests).state.screen = (drawn stamps).screen) ∧
    (∀ computer : Computer, computer.state.InRange → ∀ (stamp : Stamp) (patience patience' : Nat),
      let first := computer.call host (.step patience)
      let second := first.call host (.step patience')
      (computer.executed? host (.step patience)).map (·.instruction) = some stamp.instruction →
      (first.executed? host (.step patience')).map (·.instruction) = some stamp.instruction →
        second.state.screen = computer.state.screen ∧
          second.state.register 0xF = if first.state.changes.any (·.lit) then 1 else 0) := by
  intro drawn
  have hdrawn : ∀ stamps, state.StampedBy stamps (drawn stamps) :=
    state.stampedBy_stamped host usage
  have hodd : ∀ stamps stamps' : List Stamp,
      (∀ stamp, stamps'.count stamp % 2 = stamps.count stamp % 2) →
      (drawn stamps').screen = (drawn stamps).screen :=
    fun stamps stamps' h => (hdrawn stamps).screen_eq_of_odd hrange (hdrawn stamps') (.refl state) rfl h
  refine ⟨hodd, ?_, ?_, ?_, ?_, ?_⟩
  · -- another order
    intro stamps stamps' hperm
    apply hodd
    intro stamp
    rw [hperm.count_eq]
  · -- two stamps left out
    intro first second third stamp
    apply hodd
    intro other
    simp only [List.count_append, List.count_cons]
    omega
  · -- the same stamp twice
    intro stamp
    exact (stamp.carryOut_leaves host usage state).twice hrange (stamp.carryOut_leaves host usage _)
  · -- sessions
    intro computer hground hscreen requests hkeep stamps stamps' hhistory hpairs
    exact (hdrawn stamps).screen_eq_of_odd hrange (Computer.calls_stampedBy hkeep hhistory) hground
      hscreen hpairs
  · -- two cycles with the same stamp
    intro computer hcomputer stamp patience patience' first second hfirst hsecond
    have hleaves := Computer.call_leaves (by simp) hfirst
    exact hleaves.twice hcomputer (Computer.call_leaves (by simp) hsecond)

/-- A program that draws the digit 0, draws it again three pixels to the right, and takes the first one
away. -/
def overlay : Rom := [0x61, 0x03, 0xD0, 0x05, 0xD1, 0x05, 0xD0, 0x05]

theorem overlay_cancels_in_pairs :
    let computer := (Computer.new {}).calls {} [.load overlay, .step 0]
    let zero : Stamp := ⟨0xD005, by decide, by decide, by decide, by decide⟩
    let further : Stamp := ⟨0xD105, by decide, by decide, by decide, by decide⟩
    let requests : List Call := [.step 0, .pressKey 7, .step 0, .step 0]
    computer.state.InRange ∧ (∀ request ∈ requests, request.KeepsMemory) ∧
      (computer.history {} requests).map (·.instruction) =
        [zero, further, zero].map Stamp.instruction ∧
      (∀ stamp, [zero, further, zero].count stamp % 2 = [further].count stamp % 2) ∧
      (computer.calls {} requests).state.screen = (computer.state.stamped {} {} [further]).screen ∧
      (computer.state.stamped {} {} [zero, zero]).register 0xF = 1 := by
  intro computer zero further requests
  have hreachable : Computer.Reachable {} computer := ⟨{}, _, rfl⟩
  have hrange : computer.state.InRange := hreachable.wellFormed.toInRange
  have hkeep : ∀ request ∈ requests, request.KeepsMemory := by
    simp [requests, Call.KeepsMemory]
  have hhistory : (computer.history {} requests).map (·.instruction) =
      [zero, further, zero].map Stamp.instruction := by
    decide +kernel
  have hpairs : ∀ stamp, [zero, further, zero].count stamp % 2 = [further].count stamp % 2 := by
    intro stamp
    simp only [List.count_cons, List.count_nil]
    omega
  obtain ⟨-, -, -, htwice, hsession, -⟩ := sprites_cancel_in_pairs {} {} hrange
  have hscreen := hsession computer (.refl _) rfl requests hkeep [further] _ hhistory hpairs
  have hlit : (computer.state.stamped {} {} [zero]).changes.any (·.lit) = true := by
    decide +kernel
  have hflag := (htwice zero).2
  rw [if_pos hlit] at hflag
  exact ⟨hrange, hkeep, hhistory, hpairs, hscreen, hflag⟩

end ChipEight
