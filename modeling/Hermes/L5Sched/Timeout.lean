import Mathlib

/-!
# Timeouts in ticks

`clock_ns_until`, `clock_ticks_from_ns` and `clock_ticks_from_timespec` of `drivers/timer/clock.c`, and what
`sys_clock_nanosleep`, `sys_futex` and `sys_rt_sigtimedwait` make of the timespec they are given. The unsigned
arithmetic is written with its reductions modulo `2 ^ 64`.

`pit_initialize(PIT_DEFAULT_HZ)` divides the input clock by 1193, so that a tick is 1193 / 1193182 of a second; `ticks_hz()`
is the quotient the other way round, 1000, and a tick counts as a millisecond.

* `timeouts_cover`: for each call, exactly the timeouts that last long enough. A sleep of a given number of ticks does where
  rounding up makes up for the short ticks (`Rounded`) and the seconds are not cut; the loop of `sleep_until` does where its
  deadline is not cut and does not wrap around.
* `deadline_missed`: an ordinary timeout that is too short, deadlines of these days that are over at once, and one that is
  cut.
-/
namespace Hermes.L5.Timeout

/-- `NS_PER_SEC` -/
abbrev nsPerSec : Nat := 1000000000

/-- `PIT_BASE_HZ` -/
abbrev pitBaseHz : Nat := 1193182

/-- `divisor` of `pit_initialize(PIT_DEFAULT_HZ)`: the input clock's periods in a tick -/
def pitDivisor : Nat := pitBaseHz / 1000

/-- `ticks_hz`: the `frequency` that `pit_initialize` computes -/
def ticksHz : Nat := pitBaseHz / pitDivisor

/-- `struct timespec_k` -/
structure Timespec where
  sec : Int
  nsec : Int

/-- The check of the system calls. -/
def Timespec.valid (ts : Timespec) : Bool := 0 ≤ ts.sec && 0 ≤ ts.nsec && decide (ts.nsec < nsPerSec)

/-- The time it stands for. -/
def Timespec.ns (ts : Timespec) : Int := ts.sec * nsPerSec + ts.nsec

/-- `clock_ns_until`, with the clock at `now` -/
def clockNsUntil (now : Nat) (deadline : Timespec) : Int := (deadline.ns - now).bmod (2 ^ 64)

/-- `clock_ticks_from_ns` -/
def clockTicksFromNs (ns : Nat) : Nat :=
  let ticks := (ns / nsPerSec * ticksHz + (ns % nsPerSec * ticksHz + nsPerSec - 1) % 2 ^ 64 / nsPerSec) % 2 ^ 64
  if ticks ≠ 0 then ticks else 1

/-- The seconds are cut to `10 ^ 9`. -/
def cutNs (ts : Timespec) : Nat :=
  let sec := if ts.sec > 1000000000 then 1000000000 else ts.sec.toNat
  sec * nsPerSec + ts.nsec.toNat

/-- `clock_ticks_from_timespec` -/
def clockTicksFromTimespec (ts : Timespec) : Nat := clockTicksFromNs (cutNs ts)

/-- What a call comes to. -/
inductive Outcome
  /-- `-EINVAL` -/
  | invalid
  /-- it does not sleep -/
  | expired
  /-- it sleeps once -/
  | sleep (ticks : Nat)
  /-- `sleep_until` -/
  | until (deadline : Nat)
deriving DecidableEq

/-- `sys_futex`: `FUTEX_WAIT_BITSET` has an absolute timeout. -/
def sysFutex (now : Nat) (bitset : Bool) (ts : Timespec) : Outcome :=
  if !ts.valid then .invalid
  else if bitset then
    let left := clockNsUntil now ts
    if left ≤ 0 then .expired else .sleep (clockTicksFromNs left.toNat)
  else .sleep (clockTicksFromTimespec ts)

/-- `sys_rt_sigtimedwait` -/
def sysRtSigtimedwait (ts : Timespec) : Outcome :=
  if !ts.valid then .invalid
  else if ts.sec = 0 ∧ ts.nsec = 0 then .expired
  else .sleep (clockTicksFromTimespec ts)

/-- `sleep_until`, given what it reads from the clock turn after turn: the ticks of its sleeps, and the reading with which it
returns. -/
def sleepUntil (deadline : Nat) : List Nat → List Nat × Option Nat
  | [] => ([], none)
  | now :: readings =>
    if deadline ≤ now then ([], some now)
    else
      let r := sleepUntil deadline readings
      (clockTicksFromNs (deadline - now) :: r.1, r.2)

/-- `sys_clock_nanosleep`; `sys_nanosleep` is the relative one. -/
def sysClockNanosleep (now : Nat) (abstime : Bool) (ts : Timespec) : Outcome :=
  if !ts.valid then .invalid
  else if cutNs ts = 0 ∧ !abstime then .expired
  else .until (if abstime then cutNs ts else (now + cutNs ts) % 2 ^ 64)

/-- The call lasts for `d` nanoseconds from `now`: the ticks do, or the clock has moved by as much when `sleep_until` returns;
without a sleep the time is over. -/
def Outcome.Covers (now : Nat) (d : Int) : Outcome → Prop
  | .invalid => False
  | .expired => d ≤ 0
  | .sleep n => d * pitBaseHz ≤ n * pitDivisor * nsPerSec
  | .until deadline => ∀ readings t, (sleepUntil deadline (now :: readings)).2 = some t → d ≤ t - now

/-- Rounding `d` nanoseconds up to whole ticks of a nominal millisecond makes up for what the ticks lack: 182 / 1193182 of
each. -/
def Rounded (d : Int) : Prop := d ≤ 0 ∨ d % 1000000 ≠ 0 ∧ d % 1000000 * 1193182 + d / 1000000 * 182000000 ≤ 1193000000000

variable {now ns : Nat} {ts : Timespec}

lemma clockTicksFromNs_eq (hns : ns < 2 ^ 64) : clockTicksFromNs ns = max 1 ((ns + 999999) / 1000000) := by
  have hhz : ticksHz = 1000 := rfl
  have hr := Nat.mod_lt ns (show 0 < nsPerSec by decide)
  have hq := Nat.div_add_mod' ns nsPerSec
  unfold clockTicksFromNs
  rw [hhz]
  generalize ns / nsPerSec = q at *
  generalize ns % nsPerSec = r at *
  simp only [nsPerSec] at *
  clear hhz
  subst hq
  -- neither sum wraps around
  have hup : (r * 1000 + 1000000000 - 1) / 1000000000 = (r + 999999) / 1000000 := by omega
  have hsum : q * 1000 + (r + 999999) / 1000000 = (q * 1000000000 + r + 999999) / 1000000 := by omega
  have hlow : (r * 1000 + 1000000000 - 1) % 2 ^ 64 = r * 1000 + 1000000000 - 1 := Nat.mod_eq_of_lt (by omega)
  have hhigh : (q * 1000000000 + r + 999999) / 1000000 % 2 ^ 64 = (q * 1000000000 + r + 999999) / 1000000 :=
    Nat.mod_eq_of_lt (by omega)
  rw [hlow, hup, hsum, hhigh]
  split <;> omega

/-- A sleep for the ticks of `ns` nanoseconds. -/
lemma sleep_covers_iff {d : Int} (hns : ns < 2 ^ 64) : (Outcome.sleep (clockTicksFromNs ns)).Covers now d ↔
    d * 1193182 ≤ max 1 ((ns + 999999) / 1000000) * 1193 * 1000000000 := by
  unfold Outcome.Covers
  rw [clockTicksFromNs_eq hns]
  exact_mod_cast Iff.rfl

lemma sleep_rounded_iff {d : Int} (hns : ns < 2 ^ 64) (hd : d = ns) :
    (Outcome.sleep (clockTicksFromNs ns)).Covers now d ↔ Rounded d := by
  rw [sleep_covers_iff hns, Rounded, hd]
  have hq := Nat.div_add_mod' ns 1000000
  have hr := Nat.mod_lt ns (show 0 < 1000000 by decide)
  have hup : (ns + 999999) / 1000000 = ns / 1000000 + if ns % 1000000 = 0 then 0 else 1 := by
    split <;> omega
  rw [hup]
  generalize ns / 1000000 = q at *
  split <;> omega

/-- Ticks of less than a second do not make up for a second that is missing. -/
lemma not_sleep_covers {d : Int} (hns : ns < 2 ^ 64) (hd : ns + 1000000 < d) :
    ¬ (Outcome.sleep (clockTicksFromNs ns)).Covers now d := by
  rw [sleep_covers_iff hns]
  omega

lemma until_covers_iff {deadline : Nat} {d : Int} :
    (Outcome.until deadline).Covers now d ↔ d ≤ 0 ∨ d ≤ (deadline : Int) - now := by
  have hreach : ∀ readings t, (sleepUntil deadline readings).2 = some t → deadline ≤ t := by
    intro readings
    induction readings with
    | nil => exact nofun
    | cons r readings ih =>
      intro t ht
      rw [sleepUntil] at ht
      split at ht
      · cases ht
        assumption
      · exact ih t ht
  by_cases hnow : deadline ≤ now
  · have hret : ∀ readings, (sleepUntil deadline (now :: readings)).2 = some now := fun _ => by
      rw [sleepUntil, if_pos hnow]
    constructor
    · intro h
      have := h [] now (hret [])
      omega
    · intro h readings t ht
      cases (hret readings).symm.trans ht
      omega
  constructor
  · -- the clock may come to stand exactly at the deadline
    intro h
    right
    refine h [deadline] deadline ?_
    simp [sleepUntil, hnow]
  · intro h readings t ht
    have := hreach _ t ht
    omega

lemma cutNs_le (hv : ts.valid = true) : (ts.sec ≤ 1000000000 ∧ (cutNs ts : Int) = ts.ns ∨
    1000000000 < ts.sec ∧ 0 < cutNs ts ∧ (cutNs ts : Int) + 1000000 < ts.ns) ∧ cutNs ts < 2 ^ 61 ∧ 0 ≤ ts.ns := by
  simp only [Timespec.valid, Bool.and_eq_true, decide_eq_true_eq, nsPerSec] at hv
  simp only [cutNs, Timespec.ns, nsPerSec]
  split <;> omega

/-- The two calls that sleep for the ticks of a relative timespec. -/
lemma timespec_covers_iff (hv : ts.valid = true) : (Outcome.sleep (clockTicksFromTimespec ts)).Covers now ts.ns ↔
    ts.sec ≤ 1000000000 ∧ Rounded ts.ns := by
  obtain ⟨hcut, hlt, -⟩ := cutNs_le hv
  rcases hcut with ⟨hs, heq⟩ | ⟨hs, -, hless⟩
  · rw [clockTicksFromTimespec, sleep_rounded_iff (by omega) heq.symm, and_iff_right hs]
  · exact iff_of_false (not_sleep_covers (by omega) hless) fun h => by omega

/-- `FUTEX_WAIT_BITSET` sleeps for the ticks of what is left, modulo `2 ^ 64`. -/
lemma futex_bitset_covers_iff (hnow : now < 2 ^ 64) (hv : ts.valid = true) :
    (sysFutex now true ts).Covers now (ts.ns - now) ↔
      ts.ns ≤ now ∨ ts.ns - now < 2 ^ 63 ∧ Rounded (ts.ns - now) := by
  obtain ⟨-, -, hns⟩ := cutNs_le hv
  have hlt := Int.bmod_lt (x := ts.ns - now) (m := 2 ^ 64) (by decide)
  have hge := Int.le_bmod (x := ts.ns - now) (m := 2 ^ 64) (by decide)
  have hmod := Int.bmod_emod (x := ts.ns - now) (m := 2 ^ 64)
  rw [sysFutex, if_neg (by simp [hv]), if_pos rfl]
  dsimp only [clockNsUntil]
  generalize hleft : (ts.ns - now).bmod (2 ^ 64) = left at *
  generalize hd : ts.ns - now = d at *
  split <;> rename_i h0
  · show d ≤ 0 ↔ _
    unfold Rounded
    omega
  rcases le_or_gt d 0 with hneg | hpos
  · refine iff_of_true ?_ (.inl (by omega))
    rw [sleep_covers_iff (by omega)]
    omega
  by_cases hfar : d < 2 ^ 63
  · obtain rfl : left = d := by omega
    rw [sleep_rounded_iff (by omega) (by omega)]
    exact ⟨fun h => .inr ⟨hfar, h⟩, fun h => h.elim (fun h => absurd h (by omega)) And.right⟩
  · exact iff_of_false (not_sleep_covers (by omega) (by omega)) (by omega)

/-- **Timeouts.** When the calls last for what a valid timespec asks for. -/
theorem timeouts_cover (hnow : now < 2 ^ 64) (hv : ts.valid = true) :
    ((sysFutex now false ts).Covers now ts.ns ↔ ts.sec ≤ 1000000000 ∧ Rounded ts.ns) ∧
    ((sysRtSigtimedwait ts).Covers now ts.ns ↔ ts.sec ≤ 1000000000 ∧ Rounded ts.ns) ∧
    ((sysFutex now true ts).Covers now (ts.ns - now) ↔ ts.ns ≤ now ∨ ts.ns - now < 2 ^ 63 ∧ Rounded (ts.ns - now)) ∧
    ((sysClockNanosleep now false ts).Covers now ts.ns ↔ ts.ns = 0 ∨ ts.sec ≤ 1000000000 ∧ now + ts.ns < 2 ^ 64) ∧
    ((sysClockNanosleep now true ts).Covers now (ts.ns - now) ↔ ts.ns ≤ now ∨ ts.sec ≤ 1000000000) := by
  have hn : ¬ (!ts.valid) = true := by simp [hv]
  obtain ⟨hcut, hlt, hns⟩ := cutNs_le hv
  refine ⟨?_, ?_, futex_bitset_covers_iff hnow hv, ?_, ?_⟩
  · rw [sysFutex, if_neg hn]
    exact timespec_covers_iff hv
  · rw [sysRtSigtimedwait, if_neg hn]
    split <;> rename_i h0
    · have hz : ts.ns = 0 := by simp [Timespec.ns, h0]
      rw [hz]
      exact iff_of_true le_rfl ⟨by omega, .inl le_rfl⟩
    · exact timespec_covers_iff hv
  · rw [sysClockNanosleep, if_neg hn]
    split <;> rename_i h0
    · show ts.ns ≤ 0 ↔ _
      omega
    rw [if_neg (by decide), until_covers_iff]
    simp only [Bool.not_false, and_true] at h0
    omega
  · rw [sysClockNanosleep, if_neg hn, if_neg (by simp), if_pos rfl, until_covers_iff]
    omega

/-- A second and a half microsecond on every call. -/
theorem timeouts_cover_overOneSecond : (sysFutex 0 false ⟨1, 500⟩).Covers 0 1000000500 ∧
    (sysFutex 0 true ⟨1, 500⟩).Covers 0 1000000500 ∧ (sysClockNanosleep 7 false ⟨1, 500⟩).Covers 7 1000000500 :=
  have h := @timeouts_cover 0 ⟨1, 500⟩ (by decide) rfl
  have h7 := @timeouts_cover 7 ⟨1, 500⟩ (by decide) rfl
  ⟨h.1.2 ⟨by decide, .inr (by decide)⟩, h.2.2.1.2 (.inr ⟨by decide, .inr (by decide)⟩),
    h7.2.2.2.1.2 (.inr ⟨by decide, by decide⟩)⟩

/-- A minute of `FUTEX_WAIT` is 60000 ticks, which are 9 milliseconds less. A `TIMER_ABSTIME` deadline ten seconds ahead and a
`FUTEX_WAIT_BITSET` one centuries ahead are over at once, and `FUTEX_WAIT` sleeps for half of the time that it is given. -/
theorem deadline_missed : (sysFutex 0 false ⟨60, 0⟩ = .sleep 60000 ∧ ¬ (sysFutex 0 false ⟨60, 0⟩).Covers 0 60000000000) ∧
    sysClockNanosleep 1700000000000000000 true ⟨1700000010, 0⟩ = .until 1000000000000000000 ∧
    (sleepUntil 1000000000000000000 [1700000000000000000]).2 = some 1700000000000000000 ∧
    sysFutex 1000000000 true ⟨18446744074, 0⟩ = .expired ∧
    sysFutex 0 false ⟨2000000000, 0⟩ = sysFutex 0 false ⟨1000000000, 0⟩ := by
  refine ⟨⟨by decide, ?_⟩, by decide, by decide, by decide, by decide⟩
  show ¬ (_ : Int) ≤ _
  decide

end Hermes.L5.Timeout
