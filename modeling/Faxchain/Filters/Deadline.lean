import Faxchain.Filters.Lifecycle

/-!
# Deadline timers and the sweeper (api.go:89-107, 532-551)

Untimed: in every reachable state each registered filter's timer is `Live`, so the receive
`<-f.deadline.C` that `GetFilterChanges` makes under `filtersMu` after a failed `Stop` never
blocks (`getFilterChanges_never_blocks`).

Timed: `TimedSteps` are the runs in which a timer fires exactly at its instant and the clock
never passes an armed timer's instant. They carry a ghost map of each filter's last touch: the
step whose subscribe call issued its id, or its last `GetFilterChanges` that returned changes.
Only a touch sets a timer's instant (`step_deadline`), so a registered filter's timer fires one
window after its last touch (`TimedSteps.when_eq`), and a sweep at time `T` evicts the filters
touched more than a window before `T` and keeps those touched less than a window before
(`timeoutLoop_sweeps_on_time`).
-/

namespace Faxchain.Filters

variable {E : Env} {s s' : State} {id : ID}

/-- A registered filter's timer is armed or holds its tick, so `GetFilterChanges` never blocks. -/
theorem getFilterChanges_never_blocks (hr : Reachable E s) :
    (∀ id f, s.filters id = some f →
      f.deadline.running = true ∨ (f.deadline.running = false ∧ f.deadline.tick = true)) ∧
    (∀ id f, s.filters id = some f → f.deadline.stop.1 = false →
      f.deadline.stop.2.recv.isSome) ∧
    ∀ lim id, (getFilterChanges s lim id).isSome := by
  have live : ∀ id f, s.filters id = some f → f.deadline.Live :=
    fun id f hf => (hr.good.registered id f hf).1
  have drains : ∀ id f, s.filters id = some f → f.deadline.stopDrain ≠ none := fun id f hf hd => by
    obtain ⟨h1, h2⟩ := (Timer.stopDrain_eq_none _).mp hd
    simpa [Timer.Live, h1, h2] using live id f hf
  refine ⟨fun id f hf => ?_, fun id f hf hs => ?_, fun lim id => ?_⟩
  · have := live id f hf
    simp only [Timer.Live] at this
    cases h : f.deadline.running <;> simp_all
  · simpa [Timer.stopDrain, hs, Option.isSome_iff_ne_none] using drains id f hf
  · unfold getFilterChanges
    split
    · split
      · rfl
      · simpa [Option.isSome_iff_ne_none] using drains _ _ ‹_›
    · rfl

/-- A fired timer does not block `GetFilterChanges` of its filter. -/
theorem getFilterChanges_never_blocks_fired :
    ∃ s, Steps Env.sample State.init
        [(.newBlockFilter (fun _ => true) none, .id "0x"), (.expire "0x", .none)] s ∧
      ((s.filters "0x").map fun f => f.deadline.stop.1) = some false ∧
      (getFilterChanges s (fun _ => true) "0x").isSome :=
  have h := Steps.of_run Env.sample State.init
    [.newBlockFilter (fun _ => true) none, .expire "0x"] rfl
  ⟨_, h, by decide, (getFilterChanges_never_blocks ⟨_, h⟩).2.2 _ _⟩

/-! ### What a step does to a deadline timer -/

/-- Whether a step answering `r` is a `GetFilterChanges(id)` that returned changes. -/
def polls (id : ID) : Action → Reply → Bool
  | .getFilterChanges _ i, .changes (.ok _) => i == id
  | _, _ => false

/-- Whether a step from `s` to `s'` touches filter `id`: its subscribe call is the one that
issued `id`, or it polls `id` successfully. A rate-limited or not-found poll is no touch. -/
def touches (E : Env) (s s' : State) (a : Action) (r : Reply) (id : ID) : Bool :=
  (s'.nextSub == s.nextSub + 1 && E.newID s.nextSub == id) || polls id a r

/-- The timer `id` has after a step: a touch arms it one window from now; any other step keeps
the old timer, or is the runtime firing it. -/
def TimerAfter (E : Env) (s s' : State) (a : Action) (r : Reply) (id : ID) (d : Timer) : Prop :=
  touches E s s' a r id = true ∧ d = newTimer s.now deadline ∨
    touches E s s' a r id = false ∧ ∃ f, s.filters id = some f ∧
      (d = f.deadline ∨ a = .expire id ∧ f.deadline.running = true ∧ d = f.deadline.sendTime)

theorem Keeps.timerAfter (k : Keeps Filter.deadline s s') (hn : s'.nextSub = s.nextSub)
    {a : Action} {r : Reply} (ha : polls id a r = false) {f' : Filter}
    (hf' : s'.filters id = some f') : TimerAfter E s s' a r id f'.deadline :=
  let ⟨f, hf, he⟩ := k id f' hf'
  .inr ⟨by simp [touches, hn, ha], f, hf, .inl he⟩

theorem timerAfter_register {k : TaskKind} {a : Action} {r : Reply} (ha : polls id a r = false)
    (hs : s'.filters = (register E s k).filters) (hn : s'.nextSub = s.nextSub + 1) {f' : Filter}
    (hf' : s'.filters id = some f') : TimerAfter E s s' a r id f'.deadline := by
  rw [hs] at hf'
  by_cases hi : E.newID s.nextSub = id
  · subst hi
    simp only [register, Function.update_same, Option.some.injEq] at hf'
    exact .inl ⟨by simp [touches, hn], hf' ▸ rfl⟩
  · refine .inr ⟨by simp [touches, hn, hi, ha], f', ?_, .inl rfl⟩
    simpa [register, Function.update_noteq (Ne.symm hi)] using hf'

theorem timerAfter_hashFilter {k : TaskKind} {a : Action} {r : Reply} (ha : polls id a r = false)
    (he : s' = register E s k ∨ s' = s) {f' : Filter} (hf' : s'.filters id = some f') :
    TimerAfter E s s' a r id f'.deadline := by
  rcases he with rfl | rfl
  exacts [timerAfter_register ha rfl rfl hf', (Keeps.refl _).timerAfter rfl ha hf']

theorem step_deadline (g : Good E s) {a : Action} {r : Reply} (h : step E s a = some (s', r))
    {f' : Filter} (hf' : s'.filters id = some f') : TimerAfter E s s' a r id f'.deadline := by
  cases step_spec h with
  | newPendingTransactionFilter lim sub =>
    exact timerAfter_hashFilter (by rfl) (newPendingTransactionFilter_fst E s lim sub) hf'
  | newBlockFilter lim sub =>
    exact timerAfter_hashFilter (by rfl) (newBlockFilter_fst E s lim sub) hf'
  | newFilter lim c sub =>
    rcases newFilter_fst E s lim c sub with he | he <;> rw [he] at hf' ⊢
    exacts [timerAfter_register (by rfl) rfl rfl hf', (Keeps.refl s).timerAfter rfl (by rfl) hf']
  | newFilterReturn _ | advance _ => exact (Keeps.refl s).timerAfter rfl (by rfl) hf'
  | uninstallFilter i =>
    exact keeps_uninstallFilter.timerAfter (by unfold uninstallFilter; split <;> rfl) (by rfl) hf'
  | @getFilterChanges lim i u res hu =>
    rcases getFilterChanges_eq_some hu with ⟨rfl, e, rfl⟩ | ⟨f, t, hf, ht, hu⟩
    · exact (Keeps.refl _).timerAfter rfl (by rfl) hf'
    · obtain ⟨hl, -, -, k, -, hk⟩ := g.registered i f hf
      have hres : (takeChanges s i { f with deadline := t.reset s.now deadline }).2 = _ :=
        takeChanges_snd hk
      obtain ⟨g', rfl, -, hd, -⟩ := takeChanges_fst hu
      rw [hu] at hres
      subst hres
      by_cases hi : i = id
      · subst hi
        simp only [Function.update_same, Option.some.injEq] at hf'
        subst hf'
        exact .inl ⟨by simp [touches, polls], by rw [hd, Timer.stopDrain_reset hl ht]; rfl⟩
      · exact .inr ⟨by simp [touches, polls, hi], f', by simpa [Function.update_noteq (Ne.symm hi)]
          using hf', .inl rfl⟩
  | timeoutLoop => exact keeps_timeoutLoopTick.timerAfter rfl (by rfl) hf'
  | @expire i u hu =>
    obtain ⟨f, hf, hr, rfl⟩ := expire_eq_some hu
    by_cases hi : id = i
    · subst hi
      simp only [Function.update_same, Option.some.injEq] at hf'
      subst hf'
      exact .inr ⟨by simp [touches, polls], f, hf, .inr ⟨rfl, hr, rfl⟩⟩
    · exact .inr ⟨by simp [touches, polls], f', by simpa [Function.update_noteq hi] using hf',
        .inl rfl⟩
  | @event i t _ ev =>
    obtain ⟨fs, ts, he⟩ := onEvent_fst E s i t ev
    exact (keeps_deadline_onEvent _ ev).timerAfter (by rw [he]) (by rfl) hf'
  | @error i t _ =>
    obtain ⟨fs, ts, he⟩ := onError_fst s i t
    exact (keeps_onError _).timerAfter (by rw [he]) (by rfl) hf'

theorem step_now {a : Action} {r : Reply} (h : step E s a = some (s', r))
    (ha : ∀ t, a ≠ .advance t) : s'.now = s.now := by
  cases step_spec h with
  | newPendingTransactionFilter lim sub =>
    rcases newPendingTransactionFilter_fst E s lim sub with he | he <;> simp [he]
  | newBlockFilter lim sub => rcases newBlockFilter_fst E s lim sub with he | he <;> simp [he]
  | newFilter lim c sub => rcases newFilter_fst E s lim c sub with he | he <;> simp [he]
  | newFilterReturn _ | timeoutLoop => rfl
  | uninstallFilter i => unfold uninstallFilter; split <;> rfl
  | getFilterChanges hu =>
    rcases getFilterChanges_eq_some hu with ⟨rfl, -⟩ | ⟨f, t, -, -, hu⟩
    · rfl
    · obtain ⟨g, rfl, -⟩ := takeChanges_fst hu
      rfl
  | expire hu =>
    obtain ⟨f, -, -, rfl⟩ := expire_eq_some hu
    rfl
  | @event i t _ ev =>
    obtain ⟨fs, ts, he⟩ := onEvent_fst E s i t ev
    simp [he]
  | @error i t _ =>
    obtain ⟨fs, ts, he⟩ := onError_fst s i t
    simp [he]
  | advance _ => exact absurd rfl (ha _)

/-! ### The timed model -/

/-- The steps the timed model admits: a timer fires once its instant has come, and the clock
passes no armed timer's instant. -/
def Timely (s : State) : Action → Prop
  | .expire id => ∀ f, s.filters id = some f → f.deadline.when ≤ s.now
  | .advance t =>
    ∀ id f, s.filters id = some f → f.deadline.running = true → t ≤ f.deadline.when
  | _ => True

/-- The last touches after a step from `s` to `s'`: `s.now` for the filters it touches. -/
def touchAfter (E : Env) (s s' : State) (a : Action) (r : Reply) (last : ID → Option ℕ) :
    ID → Option ℕ :=
  fun id => if touches E s s' a r id then some s.now else last id

/-- The runs of the timed model from `s₀`, with the ghost map of last touches. -/
inductive TimedSteps (E : Env) (s₀ : State) :
    List (Action × Reply) → State → (ID → Option ℕ) → Prop
  | refl : TimedSteps E s₀ [] s₀ fun _ => none
  | tail {tr : List (Action × Reply)} {s s' : State} {last : ID → Option ℕ} (a : Action)
      {r : Reply} : TimedSteps E s₀ tr s last → Timely s a → step E s a = some (s', r) →
        TimedSteps E s₀ (tr ++ [(a, r)]) s' (touchAfter E s s' a r last)

theorem TimedSteps.steps {tr : List (Action × Reply)} {last : ID → Option ℕ} {s₀ : State}
    (h : TimedSteps E s₀ tr s last) : Steps E s₀ tr s := by
  induction h with
  | refl => exact .refl _
  | tail _ _ _ hs ih => exact ih.tail hs

/-- An armed timer's instant has not passed, a fired timer's instant has come. -/
def OnTime (s : State) : Prop :=
  ∀ id f, s.filters id = some f →
    (f.deadline.running = true → s.now ≤ f.deadline.when) ∧
      (f.deadline.tick = true → f.deadline.when ≤ s.now)

theorem OnTime.step (ho : OnTime s) (g : Good E s) {a : Action} {r : Reply} (ht : Timely s a)
    (h : step E s a = some (s', r)) : OnTime s' := by
  intro id f' hf'
  by_cases ha : ∃ t, a = .advance t
  · obtain ⟨t, rfl⟩ := ha
    cases step_spec h with
    | advance hle =>
      have := ho id f' hf'
      exact ⟨fun hr => ht id f' hf' hr, fun hk => Nat.le_trans (this.2 hk) hle⟩
  · rw [step_now h (fun t e => ha ⟨t, e⟩)]
    rcases step_deadline g h hf' with ⟨-, hd⟩ | ⟨-, f, hf, hd | ⟨rfl, -, hd⟩⟩
    · simp [hd]
    · rw [hd]; exact ho id f hf
    · simpa [hd] using ht f hf

theorem TimedSteps.onTime {tr : List (Action × Reply)} {last : ID → Option ℕ}
    (h : TimedSteps E State.init tr s last) : OnTime s := by
  induction h with
  | refl => intro _ _ hf; simp [State.init] at hf
  | tail _ h0 ht hs ih => exact ih.step (Reachable.good ⟨_, h0.steps⟩) ht hs

/-- A registered filter's timer fires one window after the filter's last touch. -/
theorem TimedSteps.when_eq {tr : List (Action × Reply)} {last : ID → Option ℕ}
    (h : TimedSteps E State.init tr s last) {f : Filter} (hf : s.filters id = some f) :
    ∃ t, last id = some t ∧ f.deadline.when = t + deadline := by
  induction h generalizing f with
  | refl => simp [State.init] at hf
  | @tail _ s₁ _ _ _ _ h0 _ hs ih =>
    rcases step_deadline (Reachable.good ⟨_, h0.steps⟩) hs hf with
      ⟨ht, hd⟩ | ⟨ht, f0, hf0, hd | ⟨-, -, hd⟩⟩
    · exact ⟨s₁.now, by simp [touchAfter, ht], by simp [hd]⟩
    all_goals
      obtain ⟨t, hl, hw⟩ := ih hf0
      exact ⟨t, by simp [touchAfter, ht, hl], by simp [hd, hw]⟩

/-- A sweep evicts every filter last touched more than a window ago, keeps every filter touched
less than a window ago, and keeps a filter a poll has just touched. -/
theorem timeoutLoop_sweeps_on_time {tr : List (Action × Reply)} {last : ID → Option ℕ}
    (h : TimedSteps E State.init tr s last) {f : Filter} (hf : s.filters id = some f) :
    ∃ t, last id = some t ∧
      (t + deadline < s.now →
        (timeoutLoopTick s).filters id = none ∧
          (timeoutLoopTick s).unsubs id = s.unsubs id + 1) ∧
      (s.now < t + deadline → (timeoutLoopTick s).filters id = some f) ∧
      ∀ lim s' c, getFilterChanges s lim id = some (s', .ok c) →
        (timeoutLoopTick s').filters id = s'.filters id := by
  have g := Reachable.good ⟨_, h.steps⟩
  have hl : f.deadline.Live := (g.registered id f hf).1
  have ho := h.onTime id f hf
  obtain ⟨t, ht, hw⟩ := h.when_eq hf
  simp only [Timer.Live] at hl
  refine ⟨t, ht, fun hlt => ?_, fun hlt => ?_, fun lim s' c hc => ?_⟩
  · cases hk : f.deadline.tick
    · have := ho.1 (by simp [hl, hk])
      omega
    · simp [timeoutLoopTick, hf, hk]
  · cases hk : f.deadline.tick
    · simp [timeoutLoopTick, hf, hk]
    · have := ho.2 hk
      omega
  · rcases getFilterChanges_eq_some hc with ⟨-, e, he⟩ | ⟨f0, t, hf0, ht, hu⟩
    · cases he
    · rw [hf, Option.some.injEq] at hf0
      subst hf0
      obtain ⟨g', rfl, -, hd, -⟩ := takeChanges_fst hu
      rw [Timer.stopDrain_live (g.registered id f hf).1, Option.some.injEq] at ht
      subst ht
      simp [timeoutLoopTick, hd]

/-- A block filter created at time 0 and never polled: its timer fires at `deadline`, and a sweep
one nanosecond later evicts and unsubscribes it. -/
theorem timeoutLoop_evicts_unpolled_filter :
    ∃ tr s last, TimedSteps Env.sample State.init tr s last ∧
      tr.map Prod.fst = [.newBlockFilter (fun _ => true) none, .advance deadline, .expire "0x",
        .advance (deadline + 1)] ∧
      last "0x" = some 0 ∧ s.now = 0 + deadline + 1 ∧ (timeoutLoopTick s).filters "0x" = none ∧
      (timeoutLoopTick s).unsubs "0x" = s.unsubs "0x" + 1 := by
  have h := TimedSteps.tail (.advance (deadline + 1)) (.tail (.expire "0x")
    (.tail (.advance deadline) (.tail (.newBlockFilter (fun _ => true) none)
      (TimedSteps.refl : TimedSteps Env.sample State.init [] _ _) trivial rfl)
      (by
        intro i f h _
        simp [newBlockFilter, newHashFilter, register, State.init, Function.update_apply] at h
        obtain ⟨-, rfl⟩ := h
        decide) rfl)
    (by
      intro f h
      simp [step, newBlockFilter, newHashFilter, register, State.init, Function.update_apply] at h
      obtain ⟨-, rfl⟩ := h
      decide) rfl)
    (by
      intro i f h hr
      simp [step, expire, newBlockFilter, newHashFilter, register, State.init,
        Function.update_apply] at h
      split_ifs at h with h1 h2
      · cases h; simp at hr
      · exact absurd (h2.trans (by decide)) h1) rfl
  obtain ⟨t, ht, h1, -⟩ := @timeoutLoop_sweeps_on_time _ _ "0x" _ _ h
    ⟨.blocksSubscription, ⟨false, true, deadline⟩, [], {}, []⟩ (by decide)
  obtain rfl : t = 0 := Option.some.inj (ht.symm.trans (by decide))
  exact ⟨_, _, _, h, rfl, ht, rfl, h1 (by decide)⟩

end Faxchain.Filters
