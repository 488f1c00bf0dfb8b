import RoundRobin.Proofs.Host.SleepRequest

/-!
# Units of sleep

A sleep for a duration is the sleep for its whole ticks, down to the halts, if the duration can be
multiplied by the tick rate. So nothing depends on the unit in which a program gives its durations.
-/

namespace RoundRobin.Host

open Scheduler

variable {h : Host}

theorem sleep_of_masked {ticks : Nat} (hlevel : h.level ≠ .on) :
    (sleep ticks : HostM Unit) h = .error .sleepMasked h :=
  (bind_of_ok (level_eq_ok_iff.mpr ⟨rfl, rfl⟩)).trans (bind_of_error (require_eq_error hlevel))

/-- A sleep that is not even a tick long is the sleep of no ticks: the busy wait leaves nothing
behind. -/
theorem sleepFor_eq_sleep {num denom : Nat} (hloops : h.scheduler.loopsPerTick < Word.limit32)
    (hthousand : 1000 ≤ denom) (hbillion : denom ≤ 1000000000)
    (hfits : num * Config.tickHz < Word.limit64) :
    (sleepFor num denom : HostM Unit) h = (sleep (wholeTicks num denom) : HostM Unit) h := by
  have hmul : (liftM (Word.mul Word.limit64 num Config.tickHz) : HostM Nat) h =
      .ok (num * Config.tickHz) h :=
    liftM_eq_ok_iff.mpr ⟨Word.mul_eq_ok_iff.mpr ⟨hfits, rfl⟩, rfl⟩
  have hdiv : (liftM (Word.div (num * Config.tickHz) denom) : HostM Nat) h =
      .ok (wholeTicks num denom) h :=
    liftM_eq_ok_iff.mpr ⟨Word.div_eq_ok_iff.mpr ⟨by omega, rfl⟩, rfl⟩
  have hread : (Port.level : HostM Level) h = .ok h.level h := level_eq_ok_iff.mpr ⟨rfl, rfl⟩
  by_cases hlevel : h.level = .on
  · by_cases hzero : wholeTicks num denom = 0
    · have hnothing : (sleep (wholeTicks num denom) : HostM Unit) h = .ok () h :=
        sleep_eq_ok_iff.mpr ⟨hlevel, Or.inl ⟨hzero, rfl⟩⟩
      have hspin : ∃ count, spinCount h.scheduler.loopsPerTick num denom = .ok count :=
        spinCount_ok hloops hzero hthousand hbillion
      rw [hnothing]
      exact sleepFor_eq_ok_iff.mpr ⟨hfits, by omega, fun _ => hspin, hnothing⟩
    · rw [sleepFor, bind_of_ok hmul, bind_of_ok hdiv, bind_of_ok hread,
        bind_of_ok (require_eq_ok hlevel), if_pos (Nat.pos_of_ne_zero hzero)]
  · rw [sleepFor, bind_of_ok hmul, bind_of_ok hdiv, bind_of_ok hread,
      bind_of_error (require_eq_error hlevel), sleep_of_masked hlevel]

theorem wholeTicks_mul (d perTick : Nat) : wholeTicks d (perTick * Config.tickHz) = d / perTick :=
  Nat.mul_div_mul_right d perTick (by decide)

section

variable {d : Nat} (hloops : h.scheduler.loopsPerTick < Word.limit32)
  (hfits : d * Config.tickHz < Word.limit64)

include hloops hfits

theorem msleep_eq_sleep : (msleep d : HostM Unit) h = (sleep (d / 10) : HostM Unit) h := by
  rw [← wholeTicks_mul]
  exact sleepFor_eq_sleep hloops (by decide) (by decide) hfits

theorem usleep_eq_sleep : (usleep d : HostM Unit) h = (sleep (d / 10000) : HostM Unit) h := by
  rw [← wholeTicks_mul]
  exact sleepFor_eq_sleep hloops (by decide) (by decide) hfits

theorem nsleep_eq_sleep : (nsleep d : HostM Unit) h = (sleep (d / 10000000) : HostM Unit) h := by
  rw [← wholeTicks_mul]
  exact sleepFor_eq_sleep hloops (by decide) (by decide) hfits

end

/-- Take any state of a host whose busy-wait loop is calibrated to a word of 32 bits, whoever runs
and whatever came before. A sleep of `d` milliseconds, microseconds or nanoseconds that can be
multiplied by the tick rate ends as the sleep for its whole ticks does, in the same state or with
the same halt. If interrupts are on and `d` is less than a tick, nothing changes at all. So one
duration written in several units comes to the same as long as the products fit. -/
theorem sleep_in_any_unit (hloops : h.scheduler.loopsPerTick < Word.limit32) :
    (∀ d, d * Config.tickHz < Word.limit64 →
      (msleep d : HostM Unit) h = (sleep (d / 10) : HostM Unit) h ∧
      (usleep d : HostM Unit) h = (sleep (d / 10000) : HostM Unit) h ∧
      (nsleep d : HostM Unit) h = (sleep (d / 10000000) : HostM Unit) h) ∧
    (h.level = .on → ∀ d, d * Config.tickHz < Word.limit64 →
      (d / 10 = 0 → (msleep d : HostM Unit) h = .ok () h) ∧
      (d / 10000 = 0 → (usleep d : HostM Unit) h = .ok () h) ∧
      (d / 10000000 = 0 → (nsleep d : HostM Unit) h = .ok () h)) ∧
    (∀ n, 1000 * n * Config.tickHz < Word.limit64 →
      (msleep n : HostM Unit) h = (usleep (1000 * n) : HostM Unit) h) ∧
    (∀ n, 1000000 * n * Config.tickHz < Word.limit64 →
      (msleep n : HostM Unit) h = (nsleep (1000000 * n) : HostM Unit) h ∧
      (usleep (1000 * n) : HostM Unit) h = (nsleep (1000000 * n) : HostM Unit) h) := by
  refine ⟨fun d hfits => ⟨msleep_eq_sleep hloops hfits, usleep_eq_sleep hloops hfits,
    nsleep_eq_sleep hloops hfits⟩, ?_, ?_, ?_⟩
  · intro hlevel d hfits
    have hnothing : (sleep 0 : HostM Unit) h = .ok () h :=
      sleep_eq_ok_iff.mpr ⟨hlevel, Or.inl ⟨rfl, rfl⟩⟩
    refine ⟨fun hzero => ?_, fun hzero => ?_, fun hzero => ?_⟩
    · rw [msleep_eq_sleep hloops hfits, hzero, hnothing]
    · rw [usleep_eq_sleep hloops hfits, hzero, hnothing]
    · rw [nsleep_eq_sleep hloops hfits, hzero, hnothing]
  · intro n hmicro
    have hmilli : n * Config.tickHz < Word.limit64 := by
      simp only [Config.tickHz] at *
      omega
    have hticks : 1000 * n / 10000 = n / 10 := Nat.mul_div_mul_left n 10 (by decide)
    rw [msleep_eq_sleep hloops hmilli, usleep_eq_sleep hloops hmicro, hticks]
  · intro n hnano
    obtain ⟨hmilli, hmicro⟩ : n * Config.tickHz < Word.limit64 ∧
        1000 * n * Config.tickHz < Word.limit64 := by
      simp only [Config.tickHz] at *
      omega
    have hticks : 1000000 * n / 10000000 = n / 10 := Nat.mul_div_mul_left n 10 (by decide)
    have hticks' : 1000 * n / 10000 = n / 10 := Nat.mul_div_mul_left n 10 (by decide)
    rw [msleep_eq_sleep hloops hmilli, usleep_eq_sleep hloops hmicro,
      nsleep_eq_sleep hloops hnano, hticks, hticks']
    exact ⟨rfl, rfl⟩

/-- One tick after boot, on a processor that is as fast as a calibration can tell. -/
def fastSample : Host :=
  tickedSample.2.withScheduler { tickedSample.2.scheduler with loopsPerTick := 4294967295 }

/-- Durations on both sides of one tick, one in three units, and the longest that can be
converted. -/
theorem sleep_in_any_unit_sample :
    fastSample.scheduler.loopsPerTick = 4294967295 ∧ fastSample.level = .on ∧
      (msleep 9 : HostM Unit) fastSample = .ok () fastSample ∧
      (msleep 10 : HostM Unit) fastSample = (sleep 1 : HostM Unit) fastSample ∧
      (usleep 9999 : HostM Unit) fastSample = .ok () fastSample ∧
      (nsleep 184467440737095516 : HostM Unit) fastSample =
        (sleep 18446744073 : HostM Unit) fastSample ∧
      (msleep 25 : HostM Unit) fastSample = (usleep 25000 : HostM Unit) fastSample ∧
      (msleep 25 : HostM Unit) fastSample = (nsleep 25000000 : HostM Unit) fastSample := by
  have hlevel : fastSample.level = .on := by decide +kernel
  obtain ⟨hwhole, hshort, hmicro, hnano⟩ := sleep_in_any_unit (h := fastSample) (by decide)
  exact ⟨rfl, hlevel, (hshort hlevel 9 (by decide)).1 rfl, (hwhole 10 (by decide)).1,
    (hshort hlevel 9999 (by decide)).2.1 rfl, (hwhole 184467440737095516 (by decide)).2.2,
    hmicro 25 (by decide), (hnano 25 (by decide)).1⟩

end RoundRobin.Host
