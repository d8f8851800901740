import Faxchain.Filters.Drain
import Faxchain.Filters.Commute

/-!
# What registered filters hold and how they leave the registry (api.go:116-154, 208-246,
372-428, 468-481, 532-565)

Three facts about every reachable state and every step:
- a registered filter's subscription has not been unsubscribed, and a listening task started
  for its type exists under its id, still running unless it is a logs task that has written an
  error (`registered_filter_task`); so its type is one of the three
  the constructors register, and `GetFilterChanges` never takes its `invalid filter` branch: it
  fails only with `ServerBusy` or not-found, changing nothing, and otherwise answers a hash
  filter with its hashes and a log filter with its logs (`getFilterChanges_answers`);
- a filter holds nothing in the list `GetFilterChanges` does not drain for its type: the
  listening tasks append to the list of their own filter's type only (`filter_holds_no_unread`);
- a step removes a registered filter exactly when it is `UninstallFilter` of its id, an error
  signal to its task, or a sweep finding its timer fired, and calls `Unsubscribe` exactly on
  the first and the last (`step_removal`).
-/

namespace Faxchain.Filters

variable {E : Env} {s s' : State} {id : ID}

/-! ### Registered filters -/

/-- A registered filter's task is running, unless it is a log filter whose task returned after
writing an error into its `NewFilter` call's `err`. -/
def Listening (s : State) : Prop :=
  ∀ id f, s.filters id = some f → ∃ t, s.tasks id = some t ∧
    (t.running = true ∨ f.typ = .logsSubscription ∧ t.err ≠ none)

theorem Listening.of_keeps (h : Listening s) (k : Keeps Filter.typ s s')
    (ht : s'.tasks = s.tasks) : Listening s' :=
  fun id f' hf' => let ⟨f, hf, he⟩ := k id f' hf'; by simpa [ht, he] using h id f hf

theorem Listening.register (h : Listening s) (k : TaskKind) : Listening (register E s k) := by
  intro i f hf
  by_cases hi : i = E.newID s.nextSub
  · subst hi
    exact ⟨⟨k, true, none⟩, by simp [Filters.register], .inl rfl⟩
  · simpa [Filters.register, Function.update_noteq hi] using
      h i f (by simpa [Filters.register, Function.update_noteq hi] using hf)

theorem Listening.setFilter (h : Listening s) {f f' : Filter} (hf : s.filters id = some f)
    (he : f'.typ = f.typ) :
    Listening { s with filters := Function.update s.filters id (some f') } := by
  intro i f'' hi
  by_cases hii : i = id
  · subst hii
    simp only [Function.update_same, Option.some.injEq] at hi
    subst hi
    simpa [he] using h i f hf
  · exact h i f'' (by simpa [Function.update_noteq hii] using hi)

theorem Listening.setTask (h : Listening s) {t' : Task}
    (ht : ∀ f, s.filters id = some f →
      t'.running = true ∨ f.typ = .logsSubscription ∧ t'.err ≠ none) :
    Listening (setTask s id t') := by
  intro i f hi
  by_cases hii : i = id
  · subst hii
    exact ⟨t', by simp [Filters.setTask], ht f hi⟩
  · simpa [Filters.setTask, Function.update_noteq hii] using h i f hi

theorem Listening.onEvent (h : Listening s) (g : Good E s) {t : Task}
    (ht : s.runningTask id = some t) (ev : ResultEvent) : Listening (onEvent E s id t ev).1 := by
  obtain ⟨htk, hrun⟩ := runningTask_eq_some.mp ht
  have hlogs : ∀ c, t.kind = .logs c → ∀ f, s.filters id = some f →
      f.typ = .logsSubscription := fun c hc f hf => by
    obtain ⟨-, -, -, k, hk, hkt⟩ := g.registered id f hf
    rw [htk, Option.some.injEq] at hk
    rw [← hkt, ← hk, hc]
    rfl
  have happ : ∀ {s' : State} (g : Option Filter → Option Filter),
      (∀ o f', g o = some f' → ∃ f, o = some f ∧ f'.typ = f.typ) → Listening s' →
      Listening { s' with filters := Function.update s'.filters id (g (s'.filters id)) } :=
    fun g hg h' => h'.of_keeps (.update rfl hg) rfl
  unfold Filters.onEvent
  split
  · exact happ _ (keeps_map fun _ => rfl) h
  · exact happ _ (keeps_map fun _ => rfl) h
  · rename_i c hc
    split
    · split
      · exact happ _ (keeps_map fun _ => rfl) (h.setTask fun _ _ => .inl hrun)
      · exact h.setTask fun f hf => .inr ⟨hlogs c hc f hf, by simp⟩
    · exact h.setTask fun f hf => .inr ⟨hlogs c hc f hf, by simp⟩

theorem Listening.onError (h : Listening s) (t : Task) : Listening (onError s id t) := by
  have hd : Listening { s with filters := Function.update s.filters id none } :=
    h.of_keeps (.update (g := fun _ => none) rfl keeps_none) rfl
  unfold Filters.onError
  split
  · exact hd
  · exact hd.setTask fun f hf => by simp at hf
  · exact hd.setTask fun f hf => by simp at hf

theorem Listening.step (h : Listening s) (g : Good E s) {a : Action} {r : Reply}
    (hs : step E s a = some (s', r)) : Listening s' := by
  cases step_spec hs with
  | newPendingTransactionFilter lim sub =>
    rcases newPendingTransactionFilter_fst E s lim sub with he | he <;> rw [he]
    exacts [h.register _, h]
  | newBlockFilter lim sub =>
    rcases newBlockFilter_fst E s lim sub with he | he <;> rw [he]
    exacts [h.register _, h]
  | newFilter lim c sub =>
    rcases newFilter_fst E s lim c sub with he | he <;> rw [he]
    exacts [h.register (.logs c), h]
  | newFilterReturn _ | advance _ => exact h
  | uninstallFilter _ =>
    exact h.of_keeps keeps_uninstallFilter (by unfold uninstallFilter; split <;> rfl)
  | getFilterChanges hu =>
    rcases getFilterChanges_eq_some hu with ⟨rfl, -⟩ | ⟨f, t, hf, -, hu⟩
    · exact h
    · obtain ⟨f', rfl, hty, -⟩ := takeChanges_fst hu
      exact h.setFilter hf hty
  | timeoutLoop => exact h.of_keeps keeps_timeoutLoopTick rfl
  | expire hu =>
    obtain ⟨f, hf, -, rfl⟩ := expire_eq_some hu
    exact h.setFilter hf rfl
  | event ht ev => exact h.onEvent g ht ev
  | error _ => exact h.onError _

theorem Steps.listening {s₀ : State} {tr : List (Action × Reply)} (h : Steps E s₀ tr s)
    (g : Good E s₀) (hl : Listening s₀) : Listening s := by
  induction h with
  | refl => exact hl
  | tail h0 hs ih => exact ih.step (h0.good g) hs

/-- A registered filter's subscription has not been unsubscribed, and a task of its type is
running under its id, unless it is a log filter whose task returned after writing an error. -/
theorem registered_filter_task (hr : Reachable E s) {f : Filter} (hf : s.filters id = some f) :
    s.unsubs id = 0 ∧ ∃ t, s.tasks id = some t ∧ t.kind.typ = f.typ ∧
      (t.running = true ∨ f.typ = .logsSubscription ∧ t.err ≠ none) := by
  obtain ⟨tr, h⟩ := hr
  obtain ⟨-, -, hu, k, hk, hkt⟩ := (Reachable.good ⟨tr, h⟩).registered id f hf
  obtain ⟨t, ht, hl⟩ := h.listening good_init (fun _ _ h => by simp [State.init] at h) id f hf
  rw [hk, Option.some.injEq] at ht
  exact ⟨hu, k, hk, hkt, ht ▸ hl⟩

/-- After `NewFilter` and the zero event of a closed channel, the log filter is registered, its
task has returned, and the task's error is written. -/
theorem newFilter_registered_task_returned :
    ∃ s, Steps Env.sample State.init
        [(.newFilter (fun _ => true) {} none, .none), (.event "0x" .zero, .none)] s ∧
      s.unsubs "0x" = 0 ∧ ∃ t, s.tasks "0x" = some t ∧ t.running = false ∧ t.err ≠ none := by
  obtain ⟨s, h, hf, hrun⟩ : ∃ s, Steps Env.sample State.init
      [(.newFilter (fun _ => true) {} none, .none), (.event "0x" .zero, .none)] s ∧
      s.filters "0x" = some ⟨.logsSubscription, ⟨true, false, deadline⟩, [], {}, []⟩ ∧
      (s.tasks "0x").map Task.running = some false :=
    ⟨_, Steps.of_run Env.sample State.init
      [.newFilter (fun _ => true) {} none, .event "0x" .zero] rfl, by decide, by decide⟩
  obtain ⟨hu, t, ht, -, hl⟩ := registered_filter_task ⟨_, h⟩ hf
  have hr : t.running = false := by simpa [ht] using hrun
  exact ⟨s, h, hu, t, ht, hr, (hl.resolve_left (by simp [hr])).2⟩

/-- `GetFilterChanges` fails only with `ServerBusy` or not-found, changing nothing, and answers a
registered filter with the list its type drains. -/
theorem getFilterChanges_answers (hr : Reachable E s) (lim : RateLimits) (id : ID) :
    (∀ s' e, getFilterChanges s lim id = some (s', .error e) →
      s' = s ∧ (e = errServerBusy ∨ s.filters id = none ∧ e = s!"filter {id} not found")) ∧
    ∀ f, s.filters id = some f → lim "eth_getFilterChanges" = true →
      ∃ s', getFilterChanges s lim id =
        some (s', .ok (if f.typ = .logsSubscription then .logs f.logs else .hashes f.hashes)) := by
  refine ⟨fun s' e he => ?_, fun f hf hlim => hr.getFilterChanges_registered hf hlim⟩
  cases hlim : lim "eth_getFilterChanges"
  · simp only [getFilterChanges, hlim, Bool.false_eq_true, if_false, Option.some.injEq,
      Prod.mk.injEq, Except.error.injEq] at he
    exact ⟨he.1.symm, .inl he.2.symm⟩
  · cases hf : s.filters id with
    | none =>
      rw [getFilterChanges_of_none hf, hlim, if_pos rfl, Option.some.injEq, Prod.mk.injEq] at he
      exact ⟨he.1.symm, .inr ⟨rfl, by simpa using he.2.symm⟩⟩
    | some f =>
      obtain ⟨_, h⟩ := hr.getFilterChanges_registered hf hlim
      rw [h, Option.some.injEq, Prod.mk.injEq] at he
      split at he <;> cases he.2

/-- A block filter that received the header of height 7 answers with its hash. -/
theorem blockFilter_answers_hash :
    ∃ s, Steps Env.sample State.init
        [(.newBlockFilter (fun _ => true) none, .id "0x"),
          (.event "0x" ⟨.newBlockHeader { height := 7 }, []⟩, .items "0x" (.hashes [7]))] s ∧
      ∃ s', getFilterChanges s (fun _ => true) "0x" = some (s', .ok (.hashes [7])) :=
  have h := Steps.of_run Env.sample State.init
    [.newBlockFilter (fun _ => true) none, .event "0x" ⟨.newBlockHeader { height := 7 }, []⟩] rfl
  ⟨_, h, (getFilterChanges_answers ⟨_, h⟩ (fun _ => true) "0x").2
    ⟨.blocksSubscription, ⟨true, false, deadline⟩, [7], {}, []⟩ (by decide) rfl⟩

/-! ### Nothing accumulates that `GetFilterChanges` does not drain -/

/-- The items a filter holds in the list `GetFilterChanges` does not drain for its type: the logs
of a pending-transaction or block filter, the hashes of any other. -/
def Filter.unread (f : Filter) : List Item :=
  match f.typ with
  | .pendingTransactionsSubscription | .blocksSubscription => f.logs.map .log
  | _ => f.hashes.map .hash

/-- No registered filter holds an item in its undrained list. -/
def NoUnread (s : State) : Prop := ∀ id f, s.filters id = some f → f.unread = []

theorem NoUnread.of_keeps (h : NoUnread s) (k : Keeps Filter.unread s s') : NoUnread s' :=
  fun id f' hf' => let ⟨f, hf, he⟩ := k id f' hf'; he.trans (h id f hf)

theorem NoUnread.register (h : NoUnread s) (k : TaskKind) : NoUnread (register E s k) := by
  intro i f hf
  by_cases hi : i = E.newID s.nextSub
  · subst hi
    simp only [Filters.register, Function.update_same, Option.some.injEq] at hf
    subst hf
    unfold Filter.unread
    split <;> rfl
  · exact h i f (by simpa [Filters.register, Function.update_noteq hi] using hf)

theorem NoUnread.setFilter (h : NoUnread s) {f f' : Filter} (hf : s.filters id = some f)
    (he : f'.unread = f.unread) :
    NoUnread { s with filters := Function.update s.filters id (some f') } := by
  intro i f'' hi
  by_cases hi' : i = id
  · subst hi'
    simp only [Function.update_same, Option.some.injEq] at hi
    subst hi
    exact he.trans (h i f hf)
  · exact h i f'' (by simpa [Function.update_noteq hi'] using hi)

theorem takeChanges_unread {f : Filter} {r : Except String Changes}
    (h : takeChanges s id f = (s', r)) :
    ∃ f', s' = { s with filters := Function.update s.filters id (some f') } ∧
      f'.unread = f.unread := by
  unfold takeChanges at h
  split at h <;> cases h <;> refine ⟨_, rfl, ?_⟩ <;> simp_all [Filter.unread]

theorem onEvent_unread {t : Task} {f f' : Filter} (hk : t.kind.typ = f.typ)
    (hf : s.filters id = some f) (ev : ResultEvent)
    (hf' : (onEvent E s id t ev).1.filters id = some f') : f'.unread = f.unread := by
  obtain ⟨k, running, err⟩ := t
  cases k with
  | pendingTransactions | blocks =>
    simp only [onEvent, appendHashes, hf, Function.update_same, Option.map_some',
      Option.some.injEq] at hf'
    subst hf'
    simp [Filter.unread, ← hk, TaskKind.typ]
  | logs c =>
    obtain ⟨_ | _ | _, _⟩ := ev
    · rename_i _ d
      cases h : E.decodeResultData d.data
      · simp only [onEvent, h, setTask_filters, hf, Option.some.injEq] at hf'
        rw [hf']
      · simp only [onEvent, h, appendLogs, setTask_filters, hf, Function.update_same,
          Option.map_some', Option.some.injEq] at hf'
        subst hf'
        simp [Filter.unread, ← hk, TaskKind.typ]
    all_goals
      simp only [onEvent, setTask_filters, hf, Option.some.injEq] at hf'
      rw [hf']

theorem keeps_unread_onEvent (g : Good E s) {t : Task} (ht : s.tasks id = some t)
    (ev : ResultEvent) : Keeps Filter.unread s (onEvent E s id t ev).1 := by
  intro i f' hf'
  by_cases hi : i = id
  · subst hi
    obtain ⟨f, hf, -⟩ := keeps_deadline_onEvent t ev i f' hf'
    obtain ⟨-, -, -, k, hk, hkt⟩ := g.registered i f hf
    rw [ht, Option.some.injEq] at hk
    subst hk
    exact ⟨f, hf, onEvent_unread hkt hf ev hf'⟩
  · exact ⟨f', by rwa [onEvent_filters_of_ne (Ne.symm hi)] at hf', rfl⟩

theorem NoUnread.step (h : NoUnread s) (g : Good E s) {a : Action} {r : Reply}
    (hs : step E s a = some (s', r)) : NoUnread s' := by
  cases step_spec hs with
  | newPendingTransactionFilter lim sub =>
    rcases newPendingTransactionFilter_fst E s lim sub with he | he <;> rw [he]
    exacts [h.register _, h]
  | newBlockFilter lim sub =>
    rcases newBlockFilter_fst E s lim sub with he | he <;> rw [he]
    exacts [h.register _, h]
  | newFilter lim c sub =>
    rcases newFilter_fst E s lim c sub with he | he <;> rw [he]
    exacts [h.register (.logs c), h]
  | newFilterReturn _ | advance _ => exact h
  | uninstallFilter _ => exact h.of_keeps keeps_uninstallFilter
  | getFilterChanges hu =>
    rcases getFilterChanges_eq_some hu with ⟨rfl, -⟩ | ⟨f, t, hf, -, hu⟩
    · exact h
    · obtain ⟨f', rfl, he⟩ := takeChanges_unread hu
      exact h.setFilter hf he
  | timeoutLoop => exact h.of_keeps keeps_timeoutLoopTick
  | expire hu => exact h.of_keeps (keeps_expire (fun _ _ => rfl) hu)
  | event ht ev => exact h.of_keeps (keeps_unread_onEvent g (runningTask_eq_some.mp ht).1 ev)
  | error _ => exact h.of_keeps (keeps_onError _)

theorem Steps.noUnread {s₀ : State} {tr : List (Action × Reply)} (h : Steps E s₀ tr s)
    (g : Good E s₀) (hn : NoUnread s₀) : NoUnread s := by
  induction h with
  | refl => exact hn
  | tail h0 hs ih => exact ih.step (h0.good g) hs

/-- A registered filter holds nothing in the list `GetFilterChanges` does not drain for its type. -/
theorem filter_holds_no_unread (hr : Reachable E s) {f : Filter} (hf : s.filters id = some f) :
    (f.typ = .pendingTransactionsSubscription ∨ f.typ = .blocksSubscription) ∧ f.logs = [] ∨
      f.typ = .logsSubscription ∧ f.hashes = [] := by
  obtain ⟨tr, h⟩ := hr
  have hu := h.noUnread good_init (fun _ _ h => by simp [State.init] at h) id f hf
  obtain ⟨-, -, -, k, -, hk⟩ := (Reachable.good ⟨tr, h⟩).registered id f hf
  rcases k.kind.typ_cases with e | e | e <;> rw [e] at hk <;>
    simp only [Filter.unread, ← hk, List.map_eq_nil_iff] at hu <;> simp [← hk, hu]

/-- A block filter that received a header holds its hash and no logs. -/
theorem blockFilter_holds_no_logs :
    ∃ s, Steps Env.sample State.init
        [(.newBlockFilter (fun _ => true) none, .id "0x"),
          (.event "0x" ⟨.newBlockHeader { height := 7 }, []⟩, .items "0x" (.hashes [7]))] s ∧
      s.filters "0x" = some ⟨.blocksSubscription, ⟨true, false, deadline⟩, [7], {}, []⟩ ∧
      ((FilterType.blocksSubscription = .pendingTransactionsSubscription ∨
          FilterType.blocksSubscription = .blocksSubscription) ∧ ([] : List Log) = [] ∨
        FilterType.blocksSubscription = .logsSubscription ∧ [7] = ([] : List Hash)) :=
  have h := Steps.of_run Env.sample State.init
    [.newBlockFilter (fun _ => true) none, .event "0x" ⟨.newBlockHeader { height := 7 }, []⟩] rfl
  ⟨_, h, by decide, @filter_holds_no_unread _ _ "0x" ⟨_, h⟩
    ⟨.blocksSubscription, ⟨true, false, deadline⟩, [7], {}, []⟩ (by decide)⟩

/-! ### How a filter leaves the registry -/

/-- What a step does to the registration of `id` and its `Unsubscribe` count: removal exactly by
`UninstallFilter`, an error signal or a sweep, `Unsubscribe` exactly on the first and the last. -/
def Removal (s : State) (a : Action) (s' : State) (id : ID) : Prop :=
  (∀ f, s.filters id = some f →
    (s'.filters id = none ↔
      a = .uninstallFilter id ∨ a = .error id ∨ a = .timeoutLoop ∧ f.deadline.tick = true) ∧
    (s'.unsubs id = s.unsubs id + 1 ∧
        (a = .uninstallFilter id ∨ a = .timeoutLoop ∧ f.deadline.tick = true) ∨
      s'.unsubs id = s.unsubs id ∧
        ¬ (a = .uninstallFilter id ∨ a = .timeoutLoop ∧ f.deadline.tick = true))) ∧
  (s.filters id = none → s'.unsubs id = s.unsubs id)

theorem Removal.of_kept {a : Action} (hk : ∀ f, s.filters id = some f → s'.filters id ≠ none)
    (hu : s'.unsubs id = s.unsubs id)
    (ha : a ≠ .uninstallFilter id ∧ a ≠ .error id ∧ a ≠ .timeoutLoop) : Removal s a s' id :=
  ⟨fun f hf => ⟨by simp [hk f hf, ha.1, ha.2.1, ha.2.2], .inr ⟨hu, by simp [ha.1, ha.2.2]⟩⟩,
    fun _ => hu⟩

theorem Removal.of_register {a : Action} {k : TaskKind}
    (hs : (s'.filters = (register E s k).filters ∨ s'.filters = s.filters) ∧
      s'.unsubs = s.unsubs)
    (ha : a ≠ .uninstallFilter id ∧ a ≠ .error id ∧ a ≠ .timeoutLoop) : Removal s a s' id := by
  refine .of_kept (fun f h => ?_) (by rw [hs.2]) ha
  rcases hs.1 with hf | hf <;> rw [hf]
  · by_cases hi : id = E.newID s.nextSub
    · subst hi; simp [register]
    · simp [register, Function.update_noteq hi, h]
  · simp [h]

theorem Removal.of_target {a : Action} {j : ID} (ha : a.target = some j) (hj : j ≠ id)
    {r : Reply} (h : step E s a = some (s', r)) : Removal s a s' id := by
  have hs := (step_target_frame ha h).1 id (Ne.symm hj)
  simp only [State.slot, Prod.mk.injEq] at hs
  refine .of_kept (fun f hf => by simp [hs.1, hf]) hs.2.2 ⟨?_, ?_, ?_⟩ <;> rintro rfl <;>
    simp only [Action.target, Option.some.injEq, reduceCtorEq] at ha
  exacts [hj ha.symm, hj ha.symm]

theorem onEvent_filters_ne_none {t : Task} (ev : ResultEvent) (hf : s.filters id ≠ none) :
    (onEvent E s id t ev).1.filters id ≠ none := by
  unfold onEvent
  split
  · simpa [appendHashes] using hf
  · simpa [appendHashes] using hf
  · split
    · split <;> simpa [appendLogs] using hf
    · simpa using hf

/-- A step removes a registered filter exactly by `UninstallFilter`, an error signal or a sweep,
and calls `Unsubscribe` once, exactly on the first and the last. -/
theorem step_removal {a : Action} {r : Reply} (h : step E s a = some (s', r)) (id : ID) :
    Removal s a s' id := by
  by_cases ht : ∃ j, a.target = some j ∧ j ≠ id
  · obtain ⟨j, ha, hj⟩ := ht
    exact .of_target ha hj h
  have ht : ∀ j, a.target = some j → j = id := fun j hj => by_contra fun h => ht ⟨j, hj, h⟩
  cases step_spec h with
  | newPendingTransactionFilter lim sub =>
    exact .of_register (E := E) (k := .pendingTransactions)
      (by rcases newPendingTransactionFilter_fst E s lim sub with he | he <;> simp [he])
      ⟨nofun, nofun, nofun⟩
  | newBlockFilter lim sub =>
    exact .of_register (E := E) (k := .blocks)
      (by rcases newBlockFilter_fst E s lim sub with he | he <;> simp [he])
      ⟨nofun, nofun, nofun⟩
  | newFilter lim c sub =>
    exact .of_register (E := E) (k := .logs c)
      (by rcases newFilter_fst E s lim c sub with he | he <;> simp [he])
      ⟨nofun, nofun, nofun⟩
  | newFilterReturn _ | advance _ =>
    exact .of_kept (fun f hf => by simp [hf]) rfl ⟨nofun, nofun, nofun⟩
  | uninstallFilter j =>
    obtain rfl := ht j rfl
    refine ⟨fun f hf => ?_, fun hn => ?_⟩ <;> simp_all [uninstallFilter]
  | @getFilterChanges lim j u res hu =>
    obtain rfl := ht j rfl
    rcases getFilterChanges_eq_some hu with ⟨rfl, -⟩ | ⟨f, t, -, -, hu⟩
    · exact .of_kept (fun f hf => by simp [hf]) rfl ⟨nofun, nofun, nofun⟩
    · obtain ⟨f', rfl, -⟩ := takeChanges_fst hu
      exact .of_kept (fun _ _ => by simp) rfl ⟨nofun, nofun, nofun⟩
  | timeoutLoop =>
    refine ⟨fun f hf => ?_, fun hn => by simp [timeoutLoopTick, hn]⟩
    cases hk : f.deadline.tick <;> simp [timeoutLoopTick, hf, hk]
  | @expire j u hu =>
    obtain rfl := ht j rfl
    obtain ⟨f, -, -, rfl⟩ := expire_eq_some hu
    exact .of_kept (fun _ _ => by simp) rfl ⟨nofun, nofun, nofun⟩
  | @event j t _ ev =>
    obtain rfl := ht j rfl
    obtain ⟨fs, ts, he⟩ := onEvent_fst E s j t ev
    exact .of_kept (fun f hf => onEvent_filters_ne_none ev (by simp [hf])) (by simp [he])
      ⟨nofun, nofun, nofun⟩
  | @error j t _ =>
    obtain rfl := ht j rfl
    obtain ⟨fs, ts, he⟩ := onError_fst s j t
    have hu : (onError s j t).unsubs = s.unsubs := by simp [he]
    refine ⟨fun f hf => ?_, fun _ => by rw [hu]⟩
    simp [(@onError_spec s j t).1, hu]

/-- Uninstalling a new block filter removes it and unsubscribes it. -/
theorem uninstallFilter_removes_block_filter :
    ∃ s s', Steps Env.sample State.init [(.newBlockFilter (fun _ => true) none, .id "0x")] s ∧
      step Env.sample s (.uninstallFilter "0x") = some (s', .uninstalled true) ∧
      Removal s (.uninstallFilter "0x") s' "0x" :=
  have h := Steps.of_run Env.sample State.init [.newBlockFilter (fun _ => true) none] rfl
  ⟨_, _, h, rfl, step_removal (E := Env.sample) (by rfl) "0x"⟩

end Faxchain.Filters
