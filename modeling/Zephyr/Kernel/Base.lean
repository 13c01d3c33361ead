import Zephyr.Library.StableQueue

/-! Types and constants that the kernel services share. -/

namespace Zephyr.Kernel

open Zephyr.Library

def eperm : Int := 1

def eagain : Int := 11

def enomem : Int := 12

def ebusy : Int := 16

def einval : Int := 22

def enomsg : Int := 35

def edeadlk : Int := 45

/-- `k_timeout_t`: relative ticks, or an absolute tick packed below `K_TICKS_FOREVER`. -/
structure KTimeout where
  ticks : Int64
  deriving DecidableEq, Repr

def kTicksForever : Int64 := -1

def kForever : KTimeout := ⟨kTicksForever⟩

def kNoWait : KTimeout := ⟨0⟩

/-- `Z_TICK_ABS`; at least zero exactly for absolute timeouts. -/
def zTickAbs (ticks : Int64) : Int64 :=
  kTicksForever - 1 - ticks

/-- `z_sched_prio_cmp` without deadlines: positive when the first is more urgent. -/
def zSchedPrioCmp (prio1 prio2 : Int) : Int :=
  if prio1 ≠ prio2 then prio2 - prio1 else 0

variable {α : Type*}

/-- `z_priq_dumb_add`: insert before the first thread that is less urgent. -/
def zPriqDumbAdd (prio : α → Int) (thread : α) : List α → List α
  | [] => [thread]
  | t :: rest =>
      if zSchedPrioCmp (prio thread) (prio t) > 0 then thread :: t :: rest
      else t :: zPriqDumbAdd prio thread rest

theorem zSchedPrioCmp_pos {prio1 prio2 : Int} : zSchedPrioCmp prio1 prio2 > 0 ↔ prio1 < prio2 := by
  unfold zSchedPrioCmp
  split <;> omega

theorem zPriqDumbAdd_eq_stableInsert (prio : α → Int) (thread : α) (queue : List α)
    : zPriqDumbAdd prio thread queue = stableInsert prio thread queue := by
  induction queue with
  | nil => rfl
  | cons t rest ih =>
      simp only [zPriqDumbAdd, zSchedPrioCmp_pos, ih, stableInsert, List.orderedInsert_cons]

end Zephyr.Kernel
