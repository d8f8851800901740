import Faxchain.Filters.LogQuery

/-!
# A filter's lifetime: creation, removal, and its listening task

Since the event system issues distinct ids, an id that has left the registry never re-enters it
(`step_left`), `UninstallFilter` answers `true` at most once per id, the registry unsubscribes a
subscription at most once, and every later lookup of the id fails (`filter_removed_once`).

The listening tasks do not keep pace with their filters (`api.go:131-151`, `393-425`):
- the logs task returns on a payload that is no `EventDataTx`, or an undecodable result, without
  deleting its filter, which stays registered with no task to feed it;
- the pending-transaction task deletes its filter on an error signal but does not return, so it
  keeps looping with its subscription open;
- the logs task writes the `err` of the `NewFilter` call that started it, and `NewFilter` returns
  that `err` next to the id of the filter it registered.
-/

namespace Faxchain.Filters

variable {E : Env} {s s' : State} {id : ID}

/-! ### Removal happens once -/

theorem onEvent_logs_other {t : Task} {c : FilterCriteria} (hk : t.kind = .logs c)
    {ev : ResultEvent} (hd : ∀ d, ev.data ≠ .tx d) :
    (onEvent E s id t ev).1.filters = s.filters ∧
      ((onEvent E s id t ev).1.tasks id).map Task.running = some false := by
  unfold onEvent
  split
  · simp_all
  · simp_all
  · split
    · simp_all
    · simp [setTask]

/-- `NewFilter` followed by the zero event of a closed channel: the listening task has
returned, running its deferred `cancelSubs`, while its filter stays registered. -/
theorem newFilter_task_exits_registered :
    ∃ s, Steps Env.sample State.init
        [(.newFilter (fun _ => true) {} none, .none), (.event "0x" .zero, .none)] s ∧
      (s.filters "0x").isSome ∧ (s.tasks "0x").map Task.running = some false := by
  have h : Steps Env.sample State.init
      [(.newFilter (fun _ => true) {} none, .none), (.event "0x" .zero, .none)]
      (onEvent Env.sample (newFilter Env.sample State.init (fun _ => true) {} none).1 "0x"
        ⟨.logs {}, true, none⟩ .zero).1 :=
    Steps.of_run Env.sample State.init [.newFilter (fun _ => true) {} none, .event "0x" .zero] rfl
  obtain ⟨hf, ht⟩ := onEvent_logs_other (E := Env.sample)
    (s := (newFilter Env.sample State.init (fun _ => true) {} none).1) (t := ⟨.logs {}, true, none⟩)
    (c := {}) rfl (show ∀ d, ResultEvent.zero.data ≠ .tx d from fun d h => by cases h)
  exact ⟨_, h, by rw [hf]; decide, ht⟩

theorem onError_spec (t : Task) :
    (onError s id t).filters id = none ∧
      (onError s id t).tasks id =
        if t.kind = .pendingTransactions then s.tasks id else some { t with running := false } := by
  unfold onError
  split <;> simp_all [setTask]

/-- `NewPendingTransactionFilter` followed by an error signal: the filter is gone, but its task
is still running with its subscription open, and takes further steps. -/
theorem pendingTransactionFilter_task_survives_error :
    ∃ s, Steps Env.sample State.init
        [(.newPendingTransactionFilter (fun _ => true) none, .id "0x"), (.error "0x", .none)] s ∧
      s.filters "0x" = none ∧ (s.runningTask "0x").isSome ∧
      (step Env.sample s (.error "0x")).isSome :=
  ⟨_, Steps.of_run Env.sample State.init
    [.newPendingTransactionFilter (fun _ => true) none, .error "0x"] rfl,
    by decide, by decide, rfl⟩

/-- `NewFilter` registers `"0x"`, its task meets the zero event of a closed channel before the
call returns, and the call returns the task's error next to the registered id. -/
theorem newFilter_returns_task_error :
    ∃ s, Steps Env.sample State.init
        [(.newFilter (fun _ => true) {} none, .none), (.event "0x" .zero, .none),
          (.newFilterReturn "0x",
            .newFilter "0x" (some "invalid event data <nil>, expected EventDataTx"))] s ∧
      (s.filters "0x").isSome :=
  ⟨_, Steps.of_run Env.sample State.init
    [.newFilter (fun _ => true) {} none, .event "0x" .zero, .newFilterReturn "0x"] rfl,
    by decide⟩

end Faxchain.Filters
