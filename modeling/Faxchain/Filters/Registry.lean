import Faxchain.Filters.Timer

/-!
# The filter registry of `PublicFilterAPI` (api.go)

The registry `api.filters` under `filtersMu`, the goroutines the filter constructors start, and
the sweeper `timeoutLoop`, as one state machine whose steps are the critical sections:

- `NewPendingTransactionFilter`, `NewBlockFilter` (`api.go:116-154`, `208-246`): one shape,
  `newHashFilter`; `NewFilter` (`api.go:372-428`) registers in one step and executes
  `return filterID, err` in a later one (`newFilterReturn`), so that its listening task may run
  in between;
- `UninstallFilter` (`api.go:468-481`), `GetFilterChanges` (`api.go:532-565`);
- one tick of `timeoutLoop` (`api.go:94-105`), and the runtime firing a deadline timer;
- one pass of a listening task's loop on an event (`onEvent`) or on its error channel
  (`onError`): its receive, decoding and locked append form one step, since in between it
  touches no shared state;
- the clock.

The event system is the environment: a step may deliver any event or error signal to any
running task, and a subscribe call may fail with any message. `GetLogs` and `GetFilterLogs`
change no state and are modelled as queries (`LogQuery`).

`StepSpec` says once what each step does, guards included (`step_spec`, `StepSpec.step_eq`);
every invariant of the later modules is derived from it.
-/

namespace Faxchain.Filters

/-- `filter` (`api.go:48-55`). Its subscription `s` is the one registered under the same id,
so the registry's `Unsubscribe` calls are counted per id (`State.unsubs`). -/
structure Filter where
  typ : FilterType
  deadline : Timer
  hashes : List Hash
  crit : FilterCriteria
  logs : List Log
  deriving DecidableEq, Repr

/-- The listening goroutine a filter constructor starts. -/
inductive TaskKind
  | pendingTransactions
  | blocks
  | logs (criteria : FilterCriteria)
  deriving DecidableEq, Repr

/-- The filter type each constructor registers next to its task. -/
def TaskKind.typ : TaskKind → FilterType
  | .pendingTransactions => .pendingTransactionsSubscription
  | .blocks => .blocksSubscription
  | .logs _ => .logsSubscription

/-- A listening goroutine: `running` until it returns, which runs its deferred `cancelSubs`;
`err` is the `err` of the `NewFilter` frame that the logs task closes over. -/
structure Task where
  kind : TaskKind
  running : Bool
  err : Option String
  deriving DecidableEq, Repr

/-- `PublicFilterAPI` with its goroutines: the registry, the tasks, the `NewFilter` calls yet to
return, the subscription count, the `Unsubscribe` calls per id, and the clock. -/
structure State where
  filters : ID → Option Filter
  tasks : ID → Option Task
  awaiting : List ID
  nextSub : ℕ
  unsubs : ID → ℕ
  now : ℕ

/-- `NewAPI`: an empty registry. -/
def State.init : State := ⟨fun _ => none, fun _ => none, [], 0, fun _ => 0, 0⟩

/-- What `GetFilterChanges` returns: `[]common.Hash` or `[]*ethtypes.Log`. -/
inductive Changes
  | hashes (hs : List Hash)
  | logs (ls : List Log)
  deriving DecidableEq, Repr

/-- One step of the machine; the parameters are the environment's choices: the rate limiter's
answers, a subscribe call's error, the event delivered. -/
inductive Action
  | newPendingTransactionFilter (lim : RateLimits) (sub : Option String)
  | newBlockFilter (lim : RateLimits) (sub : Option String)
  | newFilter (lim : RateLimits) (criteria : FilterCriteria) (sub : Option String)
  | newFilterReturn (id : ID)
  | uninstallFilter (id : ID)
  | getFilterChanges (lim : RateLimits) (id : ID)
  | timeoutLoop
  | expire (id : ID)
  | event (id : ID) (ev : ResultEvent)
  | error (id : ID)
  | advance (t : ℕ)

/-- What a step answers: a caller's result, or the items a listening task derived from one
event (`items`), or nothing. -/
inductive Reply
  | none
  | id (id : ID)
  | newFilter (id : ID) (err : Option String)
  | uninstalled (found : Bool)
  | changes (r : Except String Changes)
  | items (id : ID) (c : Changes)

/-! ### Filter constructors -/

/-- Register a filter of type `kind.typ` under the event system's next subscription id and
start its listening task. As in all three constructors' literals, `crit` is left zero. -/
def register (E : Env) (s : State) (kind : TaskKind) : State :=
  { s with
    nextSub := s.nextSub + 1
    filters := Function.update s.filters (E.newID s.nextSub)
      (some ⟨kind.typ, newTimer s.now deadline, [], {}, []⟩)
    tasks := Function.update s.tasks (E.newID s.nextSub) (some ⟨kind, true, none⟩) }

@[simp] theorem register_nextSub (E : Env) (s : State) (k : TaskKind) :
    (register E s k).nextSub = s.nextSub + 1 := rfl
@[simp] theorem register_unsubs (E : Env) (s : State) (k : TaskKind) :
    (register E s k).unsubs = s.unsubs := rfl
@[simp] theorem register_now (E : Env) (s : State) (k : TaskKind) :
    (register E s k).now = s.now := rfl

/-- The shape `NewPendingTransactionFilter` and `NewBlockFilter` share: gate on the limiter of
`method`, subscribe, register; a failure is written into the returned id after `pfx`. -/
def newHashFilter (E : Env) (method pfx : String) (kind : TaskKind) (s : State)
    (lim : RateLimits) (sub : Option String) : State × ID :=
  if lim method then
    match sub with
    | none => (register E s kind, E.newID s.nextSub)
    | some e => (s, pfx ++ e)
  else (s, pfx ++ errServerBusy)

/-- `NewPendingTransactionFilter` (`api.go:116-154`). -/
def newPendingTransactionFilter (E : Env) :
    State → RateLimits → Option String → State × ID :=
  newHashFilter E "eth_newPendingTransactionFilter" "error creating pending tx filter: "
    .pendingTransactions

/-- `NewBlockFilter` (`api.go:208-246`). -/
def newBlockFilter (E : Env) : State → RateLimits → Option String → State × ID :=
  newHashFilter E "eth_newBlockFilter" "error creating block filter: " .blocks

/-- `NewFilter` (`api.go:372-391`) up to starting its task: its failures return at once, a
success registers the filter and leaves the call to return later. -/
def newFilter (E : Env) (s : State) (lim : RateLimits) (criteria : FilterCriteria)
    (sub : Option String) : State × Reply :=
  if lim "eth_newFilter" then
    match sub with
    | none => ({ register E s (.logs criteria) with awaiting := E.newID s.nextSub :: s.awaiting },
        .none)
    | some e => (s, .newFilter "" (some e))
  else (s, .newFilter "" (some errServerBusy))

theorem newHashFilter_fst (E : Env) (method pfx : String) (k : TaskKind) (s : State)
    (lim : RateLimits) (sub : Option String) :
    (newHashFilter E method pfx k s lim sub).1 = register E s k ∨
      (newHashFilter E method pfx k s lim sub).1 = s := by
  unfold newHashFilter
  split
  · cases sub <;> simp
  · simp

theorem newPendingTransactionFilter_fst (E : Env) (s : State) (lim : RateLimits)
    (sub : Option String) :
    (newPendingTransactionFilter E s lim sub).1 = register E s .pendingTransactions ∨
      (newPendingTransactionFilter E s lim sub).1 = s :=
  newHashFilter_fst E _ _ _ s lim sub

theorem newBlockFilter_fst (E : Env) (s : State) (lim : RateLimits) (sub : Option String) :
    (newBlockFilter E s lim sub).1 = register E s .blocks ∨ (newBlockFilter E s lim sub).1 = s :=
  newHashFilter_fst E _ _ _ s lim sub

theorem newFilter_fst (E : Env) (s : State) (lim : RateLimits) (c : FilterCriteria)
    (sub : Option String) :
    (newFilter E s lim c sub).1 =
        { register E s (.logs c) with awaiting := E.newID s.nextSub :: s.awaiting } ∨
      (newFilter E s lim c sub).1 = s := by
  unfold newFilter
  split
  · cases sub <;> simp
  · simp

/-- `return filterID, err` (`api.go:427`) of the `NewFilter` call that registered `id`: `err`
is whatever the listening task has written into it meanwhile. -/
def newFilterReturn (s : State) (id : ID) : Option (State × Reply) :=
  if id ∈ s.awaiting then
    some ({ s with awaiting := s.awaiting.erase id }, .newFilter id ((s.tasks id).bind Task.err))
  else none

/-! ### Polling and removal -/

/-- `UninstallFilter` (`api.go:468-481`). -/
def uninstallFilter (s : State) (id : ID) : State × Bool :=
  match s.filters id with
  | none => (s, false)
  | some _ =>
    ({ s with filters := Function.update s.filters id none
              unsubs := Function.update s.unsubs id (s.unsubs id + 1) }, true)

/-- The `switch f.typ` of `GetFilterChanges` (`api.go:552-564`) on the filter `f` whose timer
was reset. -/
def takeChanges (s : State) (id : ID) (f : Filter) : State × Except String Changes :=
  match f.typ with
  | .pendingTransactionsSubscription | .blocksSubscription =>
    ({ s with filters := Function.update s.filters id (some { f with hashes := [] }) },
      .ok (.hashes f.hashes))
  | .logsSubscription | .minedAndPendingLogsSubscription =>
    ({ s with filters := Function.update s.filters id (some { f with logs := [] }) },
      .ok (.logs f.logs))
  | typ =>
    let code := typ.code
    ({ s with filters := Function.update s.filters id (some f) },
      .error s!"invalid filter {id} type {code}")

/-- `GetFilterChanges` (`api.go:532-565`); `none` when the receive from the timer's channel
blocks, which holds `filtersMu` forever. -/
def getFilterChanges (s : State) (lim : RateLimits) (id : ID) :
    Option (State × Except String Changes) :=
  if lim "eth_getFilterChanges" then
    match s.filters id with
    | none => some (s, .error s!"filter {id} not found")
    | some f => f.deadline.stopDrain.map fun t =>
        takeChanges s id { f with deadline := t.reset s.now deadline }
  else some (s, .error errServerBusy)

theorem getFilterChanges_eq_some {s u : State} {lim : RateLimits} {id : ID}
    {res : Except String Changes} (h : getFilterChanges s lim id = some (u, res)) :
    (u = s ∧ ∃ e, res = .error e) ∨
      ∃ f t, s.filters id = some f ∧ f.deadline.stopDrain = some t ∧
        takeChanges s id { f with deadline := t.reset s.now deadline } = (u, res) := by
  unfold getFilterChanges at h
  split at h
  · split at h
    · cases h; exact .inl ⟨rfl, _, rfl⟩
    · obtain ⟨t, ht, hu⟩ := Option.map_eq_some'.mp h
      exact .inr ⟨_, t, ‹_›, ht, hu⟩
  · cases h; exact .inl ⟨rfl, _, rfl⟩

/-- One tick of `timeoutLoop` (`api.go:94-105`): every filter whose timer holds a tick is
unsubscribed and deleted. -/
def timeoutLoopTick (s : State) : State :=
  { s with
    filters := fun id => (s.filters id).filter fun f => !f.deadline.tick
    unsubs := fun id => if (s.filters id).any (·.deadline.tick) then s.unsubs id + 1
      else s.unsubs id }

/-- The runtime firing filter `id`'s armed deadline timer. -/
def expire (s : State) (id : ID) : Option State :=
  match s.filters id with
  | some f => if f.deadline.running then
      some { s with
        filters := Function.update s.filters id (some { f with deadline := f.deadline.sendTime }) }
    else none
  | none => none

theorem expire_eq_some {s u : State} {id : ID} (h : expire s id = some u) :
    ∃ f, s.filters id = some f ∧ f.deadline.running = true ∧
      u = { s with
        filters :=
          Function.update s.filters id (some { f with deadline := f.deadline.sendTime }) } := by
  unfold expire at h
  split at h
  · split at h
    · cases h; exact ⟨_, ‹_›, ‹_›, rfl⟩
    · cases h
  · cases h

/-! ### Listening tasks -/

/-- `if f, found := api.filters[id]; found { f.hashes = append(f.hashes, hs...) }`. -/
def appendHashes (s : State) (id : ID) (hs : List Hash) : State :=
  { s with
    filters := Function.update s.filters id
      ((s.filters id).map fun f => { f with hashes := f.hashes ++ hs }) }

/-- `if f, found := api.filters[id]; found { f.logs = append(f.logs, ls...) }`. -/
def appendLogs (s : State) (id : ID) (ls : List Log) : State :=
  { s with
    filters := Function.update s.filters id
      ((s.filters id).map fun f => { f with logs := f.logs ++ ls }) }

/-- Replace task `id`. -/
def setTask (s : State) (id : ID) (t : Task) : State :=
  { s with tasks := Function.update s.tasks id (some t) }

@[simp] theorem setTask_filters (s : State) (id : ID) (t : Task) :
    (setTask s id t).filters = s.filters := rfl
@[simp] theorem setTask_unsubs (s : State) (id : ID) (t : Task) :
    (setTask s id t).unsubs = s.unsubs := rfl
@[simp] theorem setTask_nextSub (s : State) (id : ID) (t : Task) :
    (setTask s id t).nextSub = s.nextSub := rfl
@[simp] theorem setTask_now (s : State) (id : ID) (t : Task) : (setTask s id t).now = s.now := rfl
@[simp] theorem appendHashes_tasks (s : State) (id : ID) (hs : List Hash) :
    (appendHashes s id hs).tasks = s.tasks := rfl
@[simp] theorem appendHashes_unsubs (s : State) (id : ID) (hs : List Hash) :
    (appendHashes s id hs).unsubs = s.unsubs := rfl
@[simp] theorem appendHashes_nextSub (s : State) (id : ID) (hs : List Hash) :
    (appendHashes s id hs).nextSub = s.nextSub := rfl
@[simp] theorem appendHashes_now (s : State) (id : ID) (hs : List Hash) :
    (appendHashes s id hs).now = s.now := rfl
@[simp] theorem appendLogs_tasks (s : State) (id : ID) (ls : List Log) :
    (appendLogs s id ls).tasks = s.tasks := rfl
@[simp] theorem appendLogs_unsubs (s : State) (id : ID) (ls : List Log) :
    (appendLogs s id ls).unsubs = s.unsubs := rfl
@[simp] theorem appendLogs_nextSub (s : State) (id : ID) (ls : List Log) :
    (appendLogs s id ls).nextSub = s.nextSub := rfl
@[simp] theorem appendLogs_now (s : State) (id : ID) (ls : List Log) :
    (appendLogs s id ls).now = s.now := rfl

/-- One pass of a listening task's loop on an event (`api.go:136-144`, `228-235`, `398-417`). -/
def onEvent (E : Env) (s : State) (id : ID) (t : Task) (ev : ResultEvent) : State × Reply :=
  match t.kind with
  | .pendingTransactions =>
    let h := E.txHash ev.data.asTx.tx
    (appendHashes s id [h], .items id (.hashes [h]))
  | .blocks =>
    let h := E.headerHash ev.data.asHeader
    (appendHashes s id [h], .items id (.hashes [h]))
  | .logs criteria =>
    match ev.data with
    | .tx d =>
      match E.decodeResultData d.data with
      | .ok logs =>
        let ls := E.filterLogs logs criteria.fromBlock criteria.toBlock criteria.addresses
          criteria.topics
        (appendLogs (setTask s id { t with err := none }) id ls, .items id (.logs ls))
      | .error e => (setTask s id { t with err := some e, running := false }, .none)
    | data =>
      let name := data.typeName
      let e := s!"invalid event data {name}, expected EventDataTx"
      (setTask s id { t with err := some e, running := false }, .none)

/-- A listening task receiving from its error channel (`api.go:145-148`, `236-240`,
`418-422`): it deletes its filter; the pending-transaction task does not return. -/
def onError (s : State) (id : ID) (t : Task) : State :=
  match t.kind with
  | .pendingTransactions => { s with filters := Function.update s.filters id none }
  | .blocks | .logs _ =>
    setTask { s with filters := Function.update s.filters id none } id { t with running := false }

theorem onEvent_fst (E : Env) (s : State) (id : ID) (t : Task) (ev : ResultEvent) :
    ∃ fs ts, (onEvent E s id t ev).1 = { s with filters := fs, tasks := ts } := by
  unfold onEvent
  split
  · exact ⟨_, _, rfl⟩
  · exact ⟨_, _, rfl⟩
  · split
    · split <;> exact ⟨_, _, rfl⟩
    · exact ⟨_, _, rfl⟩

theorem onError_fst (s : State) (id : ID) (t : Task) :
    ∃ fs ts, onError s id t = { s with filters := fs, tasks := ts } := by
  unfold onError
  split <;> exact ⟨_, _, rfl⟩

/-- The running task of `id`, if any. -/
def State.runningTask (s : State) (id : ID) : Option Task :=
  (s.tasks id).filter (·.running)

theorem runningTask_eq_some {s : State} {id : ID} {t : Task} :
    s.runningTask id = some t ↔ s.tasks id = some t ∧ t.running = true := by
  unfold State.runningTask
  cases s.tasks id with
  | none => simp
  | some t0 =>
    by_cases h : t0.running
    · simp only [Option.filter_some, h, if_true, Option.some.injEq]
      exact ⟨fun e => e ▸ ⟨rfl, h⟩, fun e => e.1⟩
    · simp [Option.filter_some, h]
      rintro rfl
      simpa using h

/-! ### Steps and runs -/

/-- One step; `none` when the action cannot be taken (a task that has returned, an
unregistered id's timer, a `GetFilterChanges` that blocks). -/
def step (E : Env) (s : State) : Action → Option (State × Reply)
  | .newPendingTransactionFilter lim sub =>
    let r := newPendingTransactionFilter E s lim sub
    some (r.1, .id r.2)
  | .newBlockFilter lim sub =>
    let r := newBlockFilter E s lim sub
    some (r.1, .id r.2)
  | .newFilter lim criteria sub => some (newFilter E s lim criteria sub)
  | .newFilterReturn id => newFilterReturn s id
  | .uninstallFilter id =>
    let r := uninstallFilter s id
    some (r.1, .uninstalled r.2)
  | .getFilterChanges lim id => (getFilterChanges s lim id).map fun r => (r.1, .changes r.2)
  | .timeoutLoop => some (timeoutLoopTick s, .none)
  | .expire id => (expire s id).map (·, .none)
  | .event id ev => (s.runningTask id).map fun t => onEvent E s id t ev
  | .error id => (s.runningTask id).map fun t => (onError s id t, .none)
  | .advance t => if s.now ≤ t then some ({ s with now := t }, .none) else none

/-- What `step` does, action by action, with its guards. -/
inductive StepSpec (E : Env) (s : State) : Action → State → Reply → Prop
  | newPendingTransactionFilter (lim : RateLimits) (sub : Option String) :
      StepSpec E s (.newPendingTransactionFilter lim sub)
        (newPendingTransactionFilter E s lim sub).1
        (.id (newPendingTransactionFilter E s lim sub).2)
  | newBlockFilter (lim : RateLimits) (sub : Option String) :
      StepSpec E s (.newBlockFilter lim sub) (newBlockFilter E s lim sub).1
        (.id (newBlockFilter E s lim sub).2)
  | newFilter (lim : RateLimits) (criteria : FilterCriteria) (sub : Option String) :
      StepSpec E s (.newFilter lim criteria sub) (newFilter E s lim criteria sub).1
        (newFilter E s lim criteria sub).2
  | newFilterReturn {id : ID} (h : id ∈ s.awaiting) :
      StepSpec E s (.newFilterReturn id) { s with awaiting := s.awaiting.erase id }
        (.newFilter id ((s.tasks id).bind Task.err))
  | uninstallFilter (id : ID) :
      StepSpec E s (.uninstallFilter id) (uninstallFilter s id).1
        (.uninstalled (uninstallFilter s id).2)
  | getFilterChanges {lim : RateLimits} {id : ID} {u : State} {res : Except String Changes}
      (h : getFilterChanges s lim id = some (u, res)) :
      StepSpec E s (.getFilterChanges lim id) u (.changes res)
  | timeoutLoop : StepSpec E s .timeoutLoop (timeoutLoopTick s) .none
  | expire {id : ID} {u : State} (h : expire s id = some u) : StepSpec E s (.expire id) u .none
  | event {id : ID} {t : Task} (ht : s.runningTask id = some t) (ev : ResultEvent) :
      StepSpec E s (.event id ev) (onEvent E s id t ev).1 (onEvent E s id t ev).2
  | error {id : ID} {t : Task} (ht : s.runningTask id = some t) :
      StepSpec E s (.error id) (onError s id t) .none
  | advance {t : ℕ} (h : s.now ≤ t) : StepSpec E s (.advance t) { s with now := t } .none

theorem step_spec {E : Env} {s s' : State} {a : Action} {r : Reply}
    (h : step E s a = some (s', r)) : StepSpec E s a s' r := by
  cases a with
  | newPendingTransactionFilter lim sub => cases h; exact .newPendingTransactionFilter lim sub
  | newBlockFilter lim sub => cases h; exact .newBlockFilter lim sub
  | newFilter lim c sub =>
    have := StepSpec.newFilter (E := E) (s := s) lim c sub
    rwa [Option.some.inj h] at this
  | newFilterReturn i =>
    simp only [step, newFilterReturn] at h
    split at h
    · cases h; exact .newFilterReturn ‹_›
    · cases h
  | uninstallFilter i => cases h; exact .uninstallFilter i
  | getFilterChanges lim i =>
    obtain ⟨⟨u, r'⟩, hu, he⟩ := Option.map_eq_some'.mp h
    cases he
    exact .getFilterChanges hu
  | timeoutLoop => cases h; exact .timeoutLoop
  | expire i =>
    obtain ⟨u, hu, he⟩ := Option.map_eq_some'.mp h
    cases he
    exact .expire hu
  | event i ev =>
    obtain ⟨t, ht, he⟩ := Option.map_eq_some'.mp h
    have := StepSpec.event (E := E) ht ev
    rwa [he] at this
  | error i =>
    obtain ⟨t, ht, he⟩ := Option.map_eq_some'.mp h
    cases he
    exact .error ht
  | advance t =>
    simp only [step] at h
    split at h
    · cases h; exact .advance ‹_›
    · cases h

theorem StepSpec.step_eq {E : Env} {s s' : State} {a : Action} {r : Reply}
    (h : StepSpec E s a s' r) : step E s a = some (s', r) := by
  cases h <;> simp_all [Filters.step, Filters.newFilterReturn]

/-- `Steps E s tr u`: from `s` the steps labelled `tr` (action and reply) lead to `u`. -/
inductive Steps (E : Env) : State → List (Action × Reply) → State → Prop
  | refl (s : State) : Steps E s [] s
  | tail {s t u : State} {tr : List (Action × Reply)} {a : Action} {r : Reply} :
      Steps E s tr t → step E t a = some (u, r) → Steps E s (tr ++ [(a, r)]) u

/-- The states a run from `NewAPI` reaches. -/
def Reachable (E : Env) (s : State) : Prop := ∃ tr, Steps E State.init tr s

/-- Take the actions in order from `s`; `none` as soon as one cannot be taken. -/
def run (E : Env) : State → List Action → Option (State × List Reply)
  | s, [] => some (s, [])
  | s, a :: as => (step E s a).bind fun p => (run E p.1 as).map fun q => (q.1, p.2 :: q.2)

theorem Steps.append {E : Env} {s t u : State} {tr tr' : List (Action × Reply)}
    (h : Steps E s tr t) (h' : Steps E t tr' u) : Steps E s (tr ++ tr') u := by
  induction h' with
  | refl => simpa using h
  | tail _ hs ih => simpa using ih.tail hs

theorem Steps.of_run (E : Env) (s : State) (as : List Action) {u : State} {rs : List Reply}
    (h : run E s as = some (u, rs)) : Steps E s (as.zip rs) u := by
  induction as generalizing s rs with
  | nil =>
    simp only [run, Option.some.injEq, Prod.mk.injEq] at h
    obtain ⟨rfl, rfl⟩ := h
    exact .refl _
  | cons a as ih =>
    obtain ⟨⟨t, r⟩, hs, h⟩ := Option.bind_eq_some.mp h
    obtain ⟨⟨u', rs'⟩, hr, he⟩ := Option.map_eq_some'.mp h
    simp only [Prod.mk.injEq] at he
    obtain ⟨rfl, rfl⟩ := he
    simpa using (Steps.tail (.refl s) hs).append (ih _ hr)

end Faxchain.Filters
