import SimulatedLinux.Kernel.Step

/-! # How long `sleep` and `usleep` ask for

Both convert their argument to milliseconds in 32 bits before `pdMS_TO_TICKS` goes on in
64. A tick lasts one millisecond.
-/

namespace SimulatedLinux.Kernel

/-- `unsigned int` and `unsigned long` have 32 bits. -/
def ulongModulus : Nat := 2 ^ 32

/-- The ticks of `sleep`. -/
def sleepTicks (seconds : Nat) : Nat := pdMsToTicks (seconds * 1000 % ulongModulus)

/-- The ticks of `usleep`: at least one, unless the time is zero. -/
def usleepTicks (useconds : Nat) : Nat :=
  let ticks := pdMsToTicks (useconds / 1000)
  if ticks = 0 ∧ 0 < useconds then 1 else ticks

/-- A time of 32 bits is the same number of milliseconds and of ticks. -/
theorem pdMsToTicks_eq {ms : Nat} (hms : ms < ulongModulus) : pdMsToTicks ms = ms := by
  rw [pdMsToTicks, Nat.mul_div_cancel ms (by decide)]
  exact Nat.mod_eq_of_lt hms

theorem sleepTicks_eq (seconds : Nat) : sleepTicks seconds = seconds * 1000 % ulongModulus :=
  pdMsToTicks_eq (Nat.mod_lt _ (by decide))

theorem usleepTicks_eq {useconds : Nat} (hlt : useconds < ulongModulus) :
    usleepTicks useconds = if useconds / 1000 = 0 ∧ 0 < useconds then 1 else useconds / 1000 := by
  have hms : useconds / 1000 < ulongModulus := Nat.lt_of_le_of_lt (Nat.div_le_self ..) hlt
  simp only [usleepTicks, pdMsToTicks_eq hms]

/-- The product of `sleep` keeps its value just where it fits. -/
theorem le_sleepTicks (seconds : Nat) :
    seconds * 1000 ≤ sleepTicks seconds ↔ seconds * 1000 < ulongModulus := by
  rw [sleepTicks_eq]
  constructor
  · intro hle
    exact Nat.lt_of_le_of_lt hle (Nat.mod_lt _ (by decide))
  · intro hlt
    exact Nat.le_of_eq (Nat.mod_eq_of_lt hlt).symm

/-- The division of `usleep` loses a remainder, except below one millisecond. -/
theorem le_usleepTicks {useconds : Nat} (hlt : useconds < ulongModulus) :
    useconds ≤ usleepTicks useconds * 1000 ↔ useconds < 1000 ∨ useconds % 1000 = 0 := by
  rw [usleepTicks_eq hlt]
  split
  next hshort => omega
  next => omega

/-- The ticks that `sleep` and `usleep` ask for cover their argument just where the
product does not wrap, and where no remainder is lost. -/
theorem sleep_covers_iff (seconds useconds : BitVec 32) :
    (seconds.toNat * 1000 ≤ sleepTicks seconds.toNat * 1 ↔ seconds.toNat ≤ 4294967) ∧
      (useconds.toNat ≤ usleepTicks useconds.toNat * 1000 ↔
        useconds.toNat < 1000 ∨ useconds.toNat % 1000 = 0) := by
  refine ⟨?_, le_usleepTicks useconds.isLt⟩
  rw [Nat.mul_one, le_sleepTicks, ulongModulus]
  omega

/-- A sleep of fifty days is over in less than a second, and one of 1.5 milliseconds
after one. -/
theorem sleep_returns_early :
    ¬ (4294968#32).toNat * 1000 ≤ sleepTicks (4294968#32).toNat * 1 ∧
      ¬ (1500#32).toNat ≤ usleepTicks (1500#32).toNat * 1000 := by
  decide

end SimulatedLinux.Kernel
