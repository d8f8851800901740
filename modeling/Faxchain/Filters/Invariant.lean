import Faxchain.Filters.Registry

/-!
# What every reachable registry state satisfies

`Good E s`: ids the event system has not issued yet own nothing; every registered filter has a
live deadline timer (armed, or fired with its tick unconsumed), the zero criteria, no
`Unsubscribe` on its subscription yet, and a listening task started for its type; and no
subscription was unsubscribed by the registry twice. Each operation keeps `Good`
(`Good.step`), so every reachable state is `Good` (`Reachable.good`).
-/

namespace Faxchain.Filters

variable {E : Env} {s s' : State} {id : ID}

/-- The subscription ids the event system has issued. -/
def Issued (E : Env) (s : State) (id : ID) : Prop := ∃ k < s.nextSub, E.newID k = id

theorem not_issued_next (E : Env) (s : State) : ¬ Issued E s (E.newID s.nextSub) := by
  rintro ⟨k, hk, h⟩
  exact absurd (E.newID_injective h) (by omega)

theorem issued_register (k : TaskKind) :
    Issued E (register E s k) id ↔ Issued E s id ∨ id = E.newID s.nextSub := by
  simp only [Issued, register]
  constructor
  · rintro ⟨j, hj, rfl⟩
    rcases Nat.lt_succ_iff_lt_or_eq.mp hj with hj | rfl
    · exact .inl ⟨j, hj, rfl⟩
    · exact .inr rfl
  · rintro (⟨j, hj, rfl⟩ | rfl)
    · exact ⟨j, by omega, rfl⟩
    · exact ⟨s.nextSub, by omega, rfl⟩

/-- What a registered filter satisfies, given its task and its `Unsubscribe` count. -/
def FilterOk (f : Filter) (t : Option Task) (u : ℕ) : Prop :=
  f.deadline.Live ∧ f.crit = {} ∧ u = 0 ∧ ∃ k, t = some k ∧ k.kind.typ = f.typ

/-- The registry invariant. -/
structure Good (E : Env) (s : State) : Prop where
  fresh : ∀ id, ¬ Issued E s id → s.filters id = none ∧ s.tasks id = none ∧ s.unsubs id = 0
  registered : ∀ id f, s.filters id = some f → FilterOk f (s.tasks id) (s.unsubs id)
  unsubs_le : ∀ id, s.unsubs id ≤ 1

theorem Good.issued_of_filter (g : Good E s) {f : Filter} (hf : s.filters id = some f) :
    Issued E s id :=
  Classical.byContradiction fun h => by simp [(g.fresh id h).1] at hf

theorem Good.issued_of_task (g : Good E s) {t : Task} (ht : s.tasks id = some t) :
    Issued E s id :=
  Classical.byContradiction fun h => by simp [(g.fresh id h).2.1] at ht

theorem good_init : Good E State.init :=
  ⟨fun _ _ => ⟨rfl, rfl, rfl⟩, fun _ _ h => by simp [State.init] at h,
    fun _ => Nat.zero_le 1⟩

/-! ### Local changes that keep `Good` -/

theorem Good.setFilter (g : Good E s) {f f' : Filter} (hf : s.filters id = some f)
    (ht : f'.typ = f.typ) (hc : f'.crit = f.crit) (hl : f'.deadline.Live) :
    Good E { s with filters := Function.update s.filters id (some f') } := by
  refine ⟨fun i hi => ?_, fun i h hi => ?_, g.unsubs_le⟩
  · have hne : i ≠ id := by rintro rfl; exact hi (g.issued_of_filter hf)
    simpa [Function.update_noteq hne] using g.fresh i hi
  · by_cases hi' : i = id
    · subst hi'
      simp only [Function.update_same, Option.some.injEq] at hi
      subst hi
      obtain ⟨-, hc0, hu, k, hk, hkt⟩ := g.registered i f hf
      exact ⟨hl, hc.trans hc0, hu, k, hk, hkt.trans ht.symm⟩
    · simp only [Function.update_noteq hi'] at hi
      exact g.registered i h hi

theorem Good.removeFilter (g : Good E s) (hf : s.filters id ≠ none) (n : ℕ) (hn : n ≤ 1) :
    Good E { s with filters := Function.update s.filters id none
                    unsubs := Function.update s.unsubs id n } := by
  obtain ⟨f, hf⟩ := Option.ne_none_iff_exists'.mp hf
  refine ⟨fun i hi => ?_, fun i h hi => ?_, fun i => ?_⟩
  · have hne : i ≠ id := by rintro rfl; exact hi (g.issued_of_filter hf)
    simpa [Function.update_noteq hne] using g.fresh i hi
  · by_cases hi' : i = id
    · subst hi'; simp at hi
    · simp only [Function.update_noteq hi'] at hi ⊢
      exact g.registered i h hi
  · by_cases hi' : i = id
    · subst hi'; simpa using hn
    · simpa [Function.update_noteq hi'] using g.unsubs_le i

theorem Good.deleteFilter (g : Good E s) :
    Good E { s with filters := Function.update s.filters id none } := by
  by_cases hf : s.filters id = none
  · rw [← hf, Function.update_eq_self]; exact g
  · simpa using g.removeFilter hf (s.unsubs id) (g.unsubs_le id)

theorem Good.setTask (g : Good E s) {t t' : Task} (ht : s.tasks id = some t)
    (hk : t'.kind = t.kind) : Good E (setTask s id t') := by
  refine ⟨fun i hi => ?_, fun i f hi => ?_, g.unsubs_le⟩
  · have hne : i ≠ id := by rintro rfl; exact hi (g.issued_of_task ht)
    simpa [Filters.setTask, Function.update_noteq hne] using g.fresh i hi
  · obtain ⟨hl, hc, hu, k, hk, hkt⟩ := g.registered i f hi
    refine ⟨hl, hc, hu, ?_⟩
    by_cases hi' : i = id
    · subst hi'
      rw [ht] at hk
      cases hk
      exact ⟨t', by simp [Filters.setTask], hk ▸ hkt⟩
    · exact ⟨k, by simpa [Filters.setTask, Function.update_noteq hi'] using hk, hkt⟩

/-! ### Each operation keeps `Good` -/

theorem Good.register (g : Good E s) (k : TaskKind) : Good E (register E s k) := by
  have h0 := g.fresh _ (not_issued_next E s)
  refine ⟨fun i hi => ?_, fun i f hi => ?_, g.unsubs_le⟩
  · rw [issued_register, not_or] at hi
    simpa [Filters.register, Function.update_noteq hi.2] using g.fresh i hi.1
  · by_cases hi' : i = E.newID s.nextSub
    · subst hi'
      simp only [Filters.register, Function.update_same, Option.some.injEq] at hi
      subst hi
      exact ⟨newTimer_live _ _, rfl, h0.2.2, ⟨k, true, none⟩, by simp [Filters.register],
        rfl⟩
    · simp only [Filters.register, Function.update_noteq hi'] at hi ⊢
      exact g.registered i f hi

theorem Good.newHashFilter (g : Good E s) (method pfx : String) (k : TaskKind) (lim : RateLimits)
    (sub : Option String) : Good E (newHashFilter E method pfx k s lim sub).1 := by
  unfold Filters.newHashFilter
  split
  · cases sub
    · exact g.register k
    · exact g
  · exact g

theorem Good.congr (g : Good E s) (hf : s'.filters = s.filters) (ht : s'.tasks = s.tasks)
    (hu : s'.unsubs = s.unsubs) (hn : s'.nextSub = s.nextSub) : Good E s' := by
  obtain ⟨f, t, a, n, u, c⟩ := s'
  dsimp only at hf ht hu hn
  subst hf ht hu hn
  exact ⟨g.1, g.2, g.3⟩

theorem Good.newFilter (g : Good E s) (lim : RateLimits) (c : FilterCriteria)
    (sub : Option String) : Good E (newFilter E s lim c sub).1 := by
  unfold Filters.newFilter
  split
  · cases sub
    · exact (g.register (.logs c)).congr rfl rfl rfl rfl
    · exact g
  · exact g

theorem Good.uninstallFilter (g : Good E s) : Good E (uninstallFilter s id).1 := by
  unfold Filters.uninstallFilter
  split
  · exact g
  · rename_i f hf
    have hu := (g.registered id f hf).2.2.1
    exact g.removeFilter (by simp [hf]) _ (by omega)

theorem takeChanges_fst {f : Filter} {r : Except String Changes}
    (h : takeChanges s id f = (s', r)) :
    ∃ f', s' = { s with filters := Function.update s.filters id (some f') } ∧
      f'.typ = f.typ ∧ f'.deadline = f.deadline ∧ f'.crit = f.crit := by
  unfold takeChanges at h
  split at h <;> cases h <;> exact ⟨_, rfl, rfl, rfl, rfl⟩

theorem TaskKind.typ_cases (k : TaskKind) :
    k.typ = .pendingTransactionsSubscription ∨ k.typ = .blocksSubscription ∨
      k.typ = .logsSubscription := by
  cases k <;> simp [TaskKind.typ]

theorem takeChanges_snd {k : TaskKind} {f : Filter} (hk : k.typ = f.typ) :
    (takeChanges s id f).2 =
      .ok (if f.typ = .logsSubscription then .logs f.logs else .hashes f.hashes) := by
  rcases k.typ_cases with h | h | h <;> rw [h] at hk <;> simp [takeChanges, ← hk]

theorem getFilterChanges_of_live {lim : RateLimits} {f : Filter} (hf : s.filters id = some f)
    (hl : f.deadline.Live) (hlim : lim "eth_getFilterChanges" = true) {k : TaskKind}
    (hk : k.typ = f.typ) :
    ∃ s', getFilterChanges s lim id =
      some (s', .ok (if f.typ = .logsSubscription then .logs f.logs else .hashes f.hashes)) := by
  simp only [getFilterChanges, hlim, if_true, hf, Timer.stopDrain_live hl, Option.map_some']
  exact ⟨_, congrArg some (Prod.ext rfl (takeChanges_snd hk))⟩

theorem getFilterChanges_of_none (hf : s.filters id = none) (lim : RateLimits) :
    getFilterChanges s lim id = some (s, .error
      (if lim "eth_getFilterChanges" then s!"filter {id} not found" else errServerBusy)) := by
  unfold Filters.getFilterChanges
  split <;> simp_all

theorem Good.getFilterChanges (g : Good E s) {lim : RateLimits} {r : Except String Changes}
    (h : getFilterChanges s lim id = some (s', r)) : Good E s' := by
  rcases getFilterChanges_eq_some h with ⟨rfl, -⟩ | ⟨f, t, hf, ht, hu⟩
  · exact g
  · obtain ⟨f', rfl, hty, hd, hc⟩ := takeChanges_fst hu
    rw [Timer.stopDrain_live (g.registered id f hf).1, Option.some.injEq] at ht
    subst ht
    exact g.setFilter hf hty hc (by rw [hd]; rfl)

theorem Good.timeoutLoopTick (g : Good E s) : Good E (timeoutLoopTick s) := by
  refine ⟨fun i hi => ?_, fun i f hi => ?_, fun i => ?_⟩
  · simp [Filters.timeoutLoopTick, g.fresh i hi]
  · cases hs : s.filters i with
    | none => simp [Filters.timeoutLoopTick, hs] at hi
    | some f0 =>
      simp [Filters.timeoutLoopTick, hs] at hi
      obtain ⟨rfl, hk⟩ := hi
      simpa [Filters.timeoutLoopTick, hs, hk] using g.registered i _ hs
  · cases hs : s.filters i with
    | none => simpa [Filters.timeoutLoopTick, hs] using g.unsubs_le i
    | some f0 =>
      have hu := (g.registered i f0 hs).2.2.1
      simp only [Filters.timeoutLoopTick, hs, Option.any_some]
      split <;> omega

theorem Good.expire (g : Good E s) (h : expire s id = some s') : Good E s' := by
  obtain ⟨f, hf, -, rfl⟩ := expire_eq_some h
  exact g.setFilter hf rfl rfl (Timer.sendTime_live _)

theorem Good.appendHashes (g : Good E s) (hs : List Hash) : Good E (appendHashes s id hs) := by
  unfold Filters.appendHashes
  cases hf : s.filters id with
  | none => rw [Option.map_none', ← hf, Function.update_eq_self]; exact g
  | some f => exact g.setFilter hf rfl rfl (g.registered id f hf).1

theorem Good.appendLogs (g : Good E s) (ls : List Log) : Good E (appendLogs s id ls) := by
  unfold Filters.appendLogs
  cases hf : s.filters id with
  | none => rw [Option.map_none', ← hf, Function.update_eq_self]; exact g
  | some f => exact g.setFilter hf rfl rfl (g.registered id f hf).1

theorem Good.onEvent (g : Good E s) {t : Task} (ht : s.tasks id = some t) (ev : ResultEvent) :
    Good E (onEvent E s id t ev).1 := by
  unfold Filters.onEvent
  split
  · exact g.appendHashes _
  · exact g.appendHashes _
  · split
    · split
      · exact (g.setTask ht (rfl : ({ t with err := none } : Task).kind = t.kind)).appendLogs _
      · exact g.setTask ht rfl
    · exact g.setTask ht rfl

theorem Good.onError (g : Good E s) {t : Task} (ht : s.tasks id = some t) :
    Good E (onError s id t) := by
  unfold Filters.onError
  split
  · exact g.deleteFilter
  · exact g.deleteFilter.setTask ht rfl
  · exact g.deleteFilter.setTask ht rfl

theorem Good.step (g : Good E s) {a : Action} {r : Reply} (h : step E s a = some (s', r)) :
    Good E s' := by
  cases step_spec h with
  | newPendingTransactionFilter lim sub | newBlockFilter lim sub =>
    exact g.newHashFilter _ _ _ lim sub
  | newFilter lim c sub => exact g.newFilter lim c sub
  | newFilterReturn _ | advance _ => exact g.congr rfl rfl rfl rfl
  | uninstallFilter => exact g.uninstallFilter
  | getFilterChanges hu => exact g.getFilterChanges hu
  | timeoutLoop => exact g.timeoutLoopTick
  | expire hu => exact g.expire hu
  | event ht ev => exact g.onEvent (runningTask_eq_some.mp ht).1 ev
  | error ht => exact g.onError (runningTask_eq_some.mp ht).1

theorem Steps.good {s : State} {tr : List (Action × Reply)} (h : Steps E s tr s')
    (g : Good E s) : Good E s' := by
  induction h with
  | refl => exact g
  | tail _ hs ih => exact ih.step hs

theorem Reachable.good (h : Reachable E s) : Good E s :=
  let ⟨_, hs⟩ := h
  hs.good good_init

theorem Reachable.getFilterChanges_registered (hr : Reachable E s) {lim : RateLimits}
    {f : Filter} (hf : s.filters id = some f) (hlim : lim "eth_getFilterChanges" = true) :
    ∃ s', getFilterChanges s lim id =
      some (s', .ok (if f.typ = .logsSubscription then .logs f.logs else .hashes f.hashes)) :=
  let ⟨hl, _, _, _, _, hk⟩ := hr.good.registered id f hf
  getFilterChanges_of_live hf hl hlim hk

/-! ### Steps that keep a projection of every filter -/

/-- `s'` keeps `p` of every filter it has: each has `p` of the filter under its id in `s`. -/
def Keeps {α : Type} (p : Filter → α) (s s' : State) : Prop :=
  ∀ id f', s'.filters id = some f' → ∃ f, s.filters id = some f ∧ p f' = p f

section Keeps

variable {α : Type} {p : Filter → α}

theorem Keeps.refl (s : State) : Keeps p s s := fun _ f' h => ⟨f', h, rfl⟩

theorem Keeps.update {g : Option Filter → Option Filter}
    (he : s'.filters = Function.update s.filters id (g (s.filters id)))
    (hg : ∀ o f', g o = some f' → ∃ f, o = some f ∧ p f' = p f) : Keeps p s s' := by
  intro i f' hi
  rw [he, Function.update_apply] at hi
  split_ifs at hi with h
  · exact h ▸ hg _ _ hi
  · exact ⟨f', hi, rfl⟩

theorem keeps_map {g : Filter → Filter} (hg : ∀ f, p (g f) = p f) :
    ∀ o f', o.map g = some f' → ∃ f, o = some f ∧ p f' = p f := by
  rintro (_ | f) f' h
  · cases h
  · cases h; exact ⟨f, rfl, hg f⟩

theorem keeps_none : ∀ (o : Option Filter) f', (none : Option Filter) = some f' →
    ∃ f, o = some f ∧ p f' = p f := by
  intro _ _ h; cases h

theorem keeps_onError (t : Task) : Keeps p s (onError s id t) := by
  unfold onError
  split <;> exact .update (g := fun _ => none) rfl keeps_none

theorem keeps_uninstallFilter : Keeps p s (uninstallFilter s id).1 := by
  unfold uninstallFilter
  split
  · exact .refl s
  · exact .update (g := fun _ => none) rfl keeps_none

theorem keeps_timeoutLoopTick : Keeps p s (timeoutLoopTick s) := by
  intro i f' h
  simp only [timeoutLoopTick] at h
  cases hs : s.filters i with
  | none => simp [hs] at h
  | some f =>
    simp only [hs, Option.filter_some] at h
    split at h
    · cases h; exact ⟨f', rfl, rfl⟩
    · cases h

theorem keeps_expire (hp : ∀ f d, p { f with deadline := d } = p f) (h : expire s id = some s') :
    Keeps p s s' := by
  obtain ⟨f, hf, -, rfl⟩ := expire_eq_some h
  exact .update (g := Option.map fun f => { f with deadline := f.deadline.sendTime })
    (by rw [hf]; rfl) (keeps_map fun f => hp f _)

end Keeps

theorem keeps_deadline_onEvent (t : Task) (ev : ResultEvent) :
    Keeps Filter.deadline s (onEvent E s id t ev).1 := by
  unfold onEvent
  split
  · exact .update rfl (keeps_map fun _ => rfl)
  · exact .update rfl (keeps_map fun _ => rfl)
  · split
    · split
      · exact .update rfl (keeps_map fun _ => rfl)
      · exact .refl s
    · exact .refl s


/-! ### The frame of a step -/

/-- What any step does to ids, `Unsubscribe` counts and registrations: ids are only issued,
counts only grow, and an id gains a filter only as the id the step issues. -/
structure Frame (E : Env) (s s' : State) : Prop where
  nextSub_le : s.nextSub ≤ s'.nextSub
  unsubs_le : ∀ id, s.unsubs id ≤ s'.unsubs id
  gains : ∀ id, s.filters id = none → s'.filters id ≠ none → id = E.newID s.nextSub

theorem Frame.of_filters (hn : s'.nextSub = s.nextSub) (hu : ∀ id, s.unsubs id ≤ s'.unsubs id)
    (hf : ∀ id, s.filters id = none → s'.filters id = none) : Frame E s s' :=
  ⟨Nat.le_of_eq hn.symm, hu, fun id h h' => absurd (hf id h) h'⟩

theorem Frame.refl (s : State) : Frame E s s :=
  .of_filters rfl (fun _ => Nat.le_refl _) fun _ h => h

theorem frame_register (k : TaskKind) : Frame E s (register E s k) := by
  refine ⟨by simp, fun _ => Nat.le_refl _, fun i h h' => ?_⟩
  by_contra hi
  simp [Filters.register, Function.update_noteq hi, h] at h'

theorem frame_update {f : Filter} (hf : s.filters id = some f) (v : Option Filter)
    (hn : s'.nextSub = s.nextSub) (hu : ∀ i, s.unsubs i ≤ s'.unsubs i)
    (he : s'.filters = Function.update s.filters id v) : Frame E s s' := by
  refine .of_filters hn hu fun i h => ?_
  have hi : i ≠ id := by rintro rfl; simp [hf] at h
  rw [he, Function.update_noteq hi, h]

theorem Frame.of_keeps {α : Type} {p : Filter → α} (k : Keeps p s s')
    (hn : s'.nextSub = s.nextSub) (hu : ∀ id, s.unsubs id ≤ s'.unsubs id) : Frame E s s' :=
  .of_filters hn hu fun id h => by
    cases h' : s'.filters id with
    | none => rfl
    | some f' => obtain ⟨f, hf, -⟩ := k id f' h'; simp [h] at hf

theorem step_frame {a : Action} {r : Reply} (h : step E s a = some (s', r)) : Frame E s s' := by
  cases step_spec h with
  | newPendingTransactionFilter lim sub =>
    rcases newPendingTransactionFilter_fst E s lim sub with he | he <;> rw [he]
    exacts [frame_register _, .refl s]
  | newBlockFilter lim sub =>
    rcases newBlockFilter_fst E s lim sub with he | he <;> rw [he]
    exacts [frame_register _, .refl s]
  | newFilter lim c sub =>
    rcases newFilter_fst E s lim c sub with he | he <;> rw [he]
    · exact ⟨by simp, fun _ => Nat.le_refl _, (frame_register (E := E) (.logs c)).gains⟩
    · exact .refl s
  | newFilterReturn _ | advance _ => exact .of_filters rfl (fun _ => Nat.le_refl _) fun _ h => h
  | uninstallFilter i =>
    unfold uninstallFilter
    split
    · exact .refl s
    · rename_i hf
      refine frame_update hf none rfl (fun j => ?_) rfl
      by_cases hj : j = i
      · subst hj; simp
      · simp [Function.update_noteq hj]
  | getFilterChanges hu =>
    rcases getFilterChanges_eq_some hu with ⟨rfl, -⟩ | ⟨f, t, hf, -, hu⟩
    · exact .refl _
    · obtain ⟨f', rfl, -⟩ := takeChanges_fst hu
      exact frame_update hf _ rfl (fun _ => Nat.le_refl _) rfl
  | timeoutLoop =>
    refine .of_filters rfl (fun i => ?_) fun i h => by simp [timeoutLoopTick, h]
    simp only [timeoutLoopTick]
    split <;> omega
  | expire hu =>
    obtain ⟨f, hf, -, rfl⟩ := expire_eq_some hu
    exact frame_update hf _ rfl (fun _ => Nat.le_refl _) rfl
  | @event i t _ ev =>
    obtain ⟨fs, ts, he⟩ := onEvent_fst E s i t ev
    exact .of_keeps (keeps_deadline_onEvent t ev) (by simp [he]) fun _ => by simp [he]
  | @error i t _ =>
    obtain ⟨fs, ts, he⟩ := onError_fst s i t
    exact .of_keeps (p := Filter.typ) (keeps_onError t) (by simp [he]) fun _ => by simp [he]

theorem Steps.frame {s : State} {tr : List (Action × Reply)} (h : Steps E s tr s') :
    s.nextSub ≤ s'.nextSub ∧ ∀ id, s.unsubs id ≤ s'.unsubs id := by
  induction h with
  | refl => exact ⟨Nat.le_refl _, fun _ => Nat.le_refl _⟩
  | tail _ hs ih =>
    have f := step_frame hs
    exact ⟨Nat.le_trans ih.1 f.nextSub_le, fun i => Nat.le_trans (ih.2 i) (f.unsubs_le i)⟩

theorem Issued.mono {t : State} (h : Issued E s id) (hn : s.nextSub ≤ t.nextSub) :
    Issued E t id :=
  let ⟨k, hk, he⟩ := h
  ⟨k, by omega, he⟩

end Faxchain.Filters
