import Faxchain.Filters.Types

/-!
# `time.Timer` under Go's pre-1.23 semantics

A filter's deadline timer (`api.go:128,220,390,545-550`). The runtime fires an armed timer at
`when` by `sendTime`, a non-blocking send into the 1-buffered channel `C`; `Stop` disarms and
reports whether the timer was armed, leaving a fired tick in `C`; `Reset` re-arms without
draining `C`. `GetFilterChanges` stops the timer and, when `Stop` reports it already fired,
receives the tick (`stopDrain`); that receive blocks when `C` is empty.

`Live t` (armed, or fired with its tick unconsumed) is what every registered filter's timer
satisfies; under it the drain never blocks and leaves a timer that `Reset` makes live again.
-/

namespace Faxchain.Filters

/-- A timer: armed (`running`), a tick waiting in `C` (`tick`), the instant it fires (`when`). -/
structure Timer where
  running : Bool
  tick : Bool
  when : ℕ
  deriving DecidableEq, Repr

/-- `time.NewTimer(d)` at `now`. -/
def newTimer (now d : ℕ) : Timer := ⟨true, false, now + d⟩

/-- `t.Stop()`: whether the timer was armed, and the disarmed timer. -/
def Timer.stop (t : Timer) : Bool × Timer := (t.running, { t with running := false })

/-- `t.Reset(d)` at `now` (its result is unused by the filter API). -/
def Timer.reset (t : Timer) (now d : ℕ) : Timer := { t with running := true, when := now + d }

/-- The runtime firing an armed timer: `sendTime` fills the buffer (or drops the value when a
tick is already there). -/
def Timer.sendTime (t : Timer) : Timer := { t with running := false, tick := true }

/-- `<-t.C`: consumes the tick; `none` when the channel is empty and the receive blocks. -/
def Timer.recv (t : Timer) : Option Timer := if t.tick then some { t with tick := false } else none

/-- `if !t.Stop() { <-t.C }` (`api.go:545-549`). -/
def Timer.stopDrain (t : Timer) : Option Timer :=
  if t.stop.1 then some t.stop.2 else t.stop.2.recv

/-- Armed, or fired with its tick unconsumed. -/
def Timer.Live (t : Timer) : Prop := t.running = !t.tick

instance (t : Timer) : Decidable t.Live := inferInstanceAs (Decidable (_ = _))

@[simp] theorem newTimer_running (now d : ℕ) : (newTimer now d).running = true := rfl
@[simp] theorem newTimer_tick (now d : ℕ) : (newTimer now d).tick = false := rfl
@[simp] theorem newTimer_when (now d : ℕ) : (newTimer now d).when = now + d := rfl
@[simp] theorem Timer.reset_running (t : Timer) (now d : ℕ) :
    (t.reset now d).running = true := rfl
@[simp] theorem Timer.reset_tick (t : Timer) (now d : ℕ) : (t.reset now d).tick = t.tick := rfl
@[simp] theorem Timer.reset_when (t : Timer) (now d : ℕ) : (t.reset now d).when = now + d := rfl
@[simp] theorem Timer.sendTime_running (t : Timer) : t.sendTime.running = false := rfl
@[simp] theorem Timer.sendTime_tick (t : Timer) : t.sendTime.tick = true := rfl
@[simp] theorem Timer.sendTime_when (t : Timer) : t.sendTime.when = t.when := rfl

theorem newTimer_live (now d : ℕ) : (newTimer now d).Live := rfl

theorem Timer.sendTime_live (t : Timer) : t.sendTime.Live := rfl

theorem Timer.stopDrain_live {t : Timer} (h : t.Live) :
    t.stopDrain = some { t with running := false, tick := false } := by
  obtain ⟨r, k, w⟩ := t
  simp only [Live] at h
  subst h
  cases k <;> rfl

theorem Timer.stopDrain_eq_none (t : Timer) :
    t.stopDrain = none ↔ t.running = false ∧ t.tick = false := by
  obtain ⟨r, k, w⟩ := t
  cases r <;> cases k <;> simp [stopDrain, stop, recv]

theorem Timer.stopDrain_reset {t t' : Timer} (h : t.Live) (hd : t.stopDrain = some t')
    (now d : ℕ) : t'.reset now d = ⟨true, false, now + d⟩ := by
  rw [stopDrain_live h] at hd
  cases hd
  rfl

end Faxchain.Filters
