import Mathlib.Data.Finset.Lattice.Fold
import Mathlib.Data.Fintype.Basic
import Mathlib.Data.List.Induction
import Mathlib.Data.List.Infix
import Mathlib.Order.Lattice.Nat
import GroundControl.EpochClock

/-!
# The readings of the signing clock

Each synchronisation moves the clock on by one at least, and to the epoch of the wall clock at
least.  So what it shows is the greatest of several numbers: that of the synchronisations, and for
each wall time its epoch and one for each synchronisation since.

* `CountsUnits`, the epoch of a wall time, with `countsUnits_epochAt`;
* `EpochClock.reach`, what wall times lead to, with `reach_concat`: one more of them;
* `current_foldl_advance` and `readings_foldl_advance`, what the clock shows;
* `lt_of_mem_readings`, `forall₂_readings`: it goes forward, and the wall clock does not pass it;
* `EpochClock.ClosedForm` and `readings_closed_form`, for every list of wall times.
-/

namespace GroundControl

/-- The span of an epoch, ten microseconds. -/
def epochLength : Int := 10000

/-- `n` is the number of whole epochs from the start of 2015 to a wall time; there are none before,
and beyond the last one they are not told apart. -/
def CountsUnits (wall : WallTime) (n : Nat) : Prop :=
  wall < epochOrigin * 1000000000 ∧ n = 0 ∨
    n < lastEpoch ∧ epochOrigin * 1000000000 + n * epochLength ≤ wall ∧
      wall < epochOrigin * 1000000000 + (n + 1) * epochLength ∨
    n = lastEpoch ∧ epochOrigin * 1000000000 + n * epochLength ≤ wall

theorem countsUnits_epochAt (wall : WallTime) : CountsUnits wall (epochAt wall) := by
  unfold CountsUnits epochAt epochOrigin epochLength lastEpoch WallTime at *
  omega

namespace EpochClock

theorem epochAt_le_lastEpoch (wall : WallTime) : epochAt wall ≤ lastEpoch := Nat.min_le_right ..

/-- The epoch that wall times lead to, if there were no last one: one for each of them, or the epoch
of one of them and one for each later one. -/
def reach (walls : List WallTime) : Nat :=
  max walls.length
    (Finset.univ.sup fun i : Fin walls.length => epochAt walls[i] + (walls.length - (i + 1)))

theorem reach_le_iff {walls : List WallTime} {n : Nat} :
    reach walls ≤ n ↔ walls.length ≤ n ∧
      ∀ i (h : i < walls.length), epochAt walls[i] + (walls.length - (i + 1)) ≤ n := by
  unfold reach
  rw [Nat.max_le, Finset.sup_le_iff]
  exact and_congr_right' ⟨fun h i hi => h ⟨i, hi⟩ (Finset.mem_univ _), fun h i _ => h i i.isLt⟩

/-- One more wall time counts with its epoch, and all others have one more. -/
theorem reach_concat (walls : List WallTime) (wall : WallTime) :
    reach (walls ++ [wall]) = max (epochAt wall) (reach walls + 1) := by
  refine eq_of_forall_ge_iff fun n => ?_
  have hlength : (walls ++ [wall]).length = walls.length + 1 := List.length_append
  rw [reach_le_iff, Nat.max_le]
  constructor
  · rintro ⟨hn, hall⟩
    have hlast := hall walls.length (by omega)
    rw [List.getElem_concat_length rfl] at hlast
    have hreach : reach walls ≤ n - 1 := reach_le_iff.2 ⟨by omega, fun i hi => by
      have := hall i (by omega)
      rw [List.getElem_append_left hi] at this
      omega⟩
    omega
  · rintro ⟨hwall, hreach⟩
    obtain ⟨hn, hall⟩ := reach_le_iff.1 (show reach walls ≤ n - 1 by omega)
    refine ⟨by omega, fun i hi => ?_⟩
    rcases Nat.lt_or_ge i walls.length with hlt | hge
    · have := hall i hlt
      rw [List.getElem_append_left hlt]
      omega
    · obtain rfl : i = walls.length := by omega
      rw [List.getElem_concat_length rfl]
      omega

/-- What the clock shows after some synchronisations. -/
theorem current_foldl_advance (walls : List WallTime) :
    (walls.foldl advance new).current = min lastEpoch (reach walls) := by
  induction walls using List.reverseRecOn with
  | nil => rfl
  | append_singleton walls wall ih =>
    have hwall := epochAt_le_lastEpoch wall
    rw [List.foldl_append, reach_concat]
    show max (epochAt wall) (min ((walls.foldl advance new).current + 1) lastEpoch) = _
    rw [ih]
    omega

/-- The readings are what the clock shows after each of the synchronisations. -/
theorem readings_foldl_advance (past walls : List WallTime) :
    (past.foldl advance new).readings walls =
      walls.inits.tail.map fun l => ((past ++ l).foldl advance new).current := by
  induction walls generalizing past with
  | nil => rfl
  | cons wall rest ih =>
    have hrest := ih (past ++ [wall])
    rw [List.foldl_append] at hrest
    have hinits : rest.inits = [] :: rest.inits.tail := by cases rest <;> rfl
    rw [List.inits_cons, List.tail_cons, hinits, List.map_cons, List.map_cons, List.map_map]
    refine congrArg₂ List.cons ?_ (hrest.trans (List.map_congr_left fun l _ => ?_))
    · rw [List.foldl_append]
      rfl
    · rw [List.append_assoc]
      rfl

section Readings

variable {c : EpochClock} {walls : List WallTime} {n : Nat}

/-- Each reading is ahead of the clock before, unless both show the last epoch. -/
theorem lt_of_mem_readings (hc : c.current ≤ lastEpoch) (h : n ∈ c.readings walls) :
    c.current < n ∨ c.current = lastEpoch ∧ n = lastEpoch := by
  induction walls generalizing c with
  | nil => cases h
  | cons wall rest ih =>
    have hwall := epochAt_le_lastEpoch wall
    have hnext : (c.advance wall).current =
      max (epochAt wall) (min (c.current + 1) lastEpoch) := rfl
    rcases List.mem_cons.1 h with rfl | h
    · omega
    · have := ih (by omega) h
      omega

theorem pairwise_readings (hc : c.current ≤ lastEpoch) (walls : List WallTime) :
    (c.readings walls).Pairwise fun a b => a < b ∨ a = lastEpoch ∧ b = lastEpoch := by
  induction walls generalizing c with
  | nil => exact .nil
  | cons wall rest ih =>
    have hwall := epochAt_le_lastEpoch wall
    have hnext : (c.advance wall).current ≤ lastEpoch := by
      show max (epochAt wall) (min (c.current + 1) lastEpoch) ≤ _
      omega
    exact .cons (fun n hn => lt_of_mem_readings hnext hn) (ih hnext)

/-- The wall clock does not pass the readings. -/
theorem forall₂_readings (c : EpochClock) (walls : List WallTime) :
    List.Forall₂ (fun wall n => epochAt wall ≤ n) walls (c.readings walls) := by
  induction walls generalizing c with
  | nil => exact .nil
  | cons wall rest ih => exact .cons (epochAt_le_current_advance c wall) (ih _)

end Readings

/-! ### From the beginning -/

/-- What can be said of a clock that is synchronised with `walls` from its beginning on. -/
structure ClosedForm (walls : List WallTime) : Prop where
  /-- each synchronisation tells what the clock shows from then on -/
  shown : new.readings walls =
    walls.inits.tail.map fun past => (past.foldl advance new).current
  /-- and this is the epoch that the wall times up to then lead to, or the last one -/
  closed : ∀ past, past <+: walls →
    (past.foldl advance new).current =
      min lastEpoch (max past.length
        (Finset.univ.sup fun i : Fin past.length => epochAt past[i] + (past.length - (i + 1))))
  /-- epochs count whole units of ten microseconds -/
  units : ∀ wall ∈ walls, CountsUnits wall (epochAt wall)
  /-- the readings go forward until they have come to the last epoch -/
  forward : (new.readings walls).Pairwise fun a b => a < b ∨ a = lastEpoch ∧ b = lastEpoch
  /-- the wall clock does not pass them -/
  ahead : List.Forall₂ (fun wall n => epochAt wall ≤ n) walls (new.readings walls)

/-- **The readings of the signing clock in closed form**, whichever way the wall clock moves. -/
theorem readings_closed_form (walls : List WallTime) : ClosedForm walls where
  shown := readings_foldl_advance [] walls
  closed past _ := current_foldl_advance past
  units wall _ := countsUnits_epochAt wall
  forward := pairwise_readings (Nat.zero_le lastEpoch) walls
  ahead := forall₂_readings new walls

/-- A wall clock that starts 25 microseconds after the origin, falls back by decades and
recovers. -/
example : new.readings [1420070400000025000, 0, 1420070400000100000] = [2, 3, 10] := by decide

end EpochClock

end GroundControl
