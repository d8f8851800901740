import Faxchain.Filters.Drain

/-!
# Push subscriptions (api.go:155-199, 248-290, 308-354)

`NewPendingTransactions`, `NewHeads` and `Logs` each start one listening task, which relays the
events of its event-system subscription to the client through `notifier.Notify` until the client
unsubscribes (`rpcSub.Err()`), the connection closes (`notifier.Closed()`), or an event or a
notify fails. A task is a `PushTask`; `pushStep` is one pass of its `select` loop and `pushRun`
the passes over a sequence of receives.

The hash tasks do not check their payloads: the pending-transaction filter and push tasks hash
whatever the type assertion yields, and the block filter's task builds a header from it, so an
event with another payload (the zero event of a closed channel included) adds or notifies the hash
of a zero value (`zero_event_adds_hashes`). The `Logs` task relays the `FilterLogs` result of
every EVM transaction event (`pushRun_logs_relays`), but returns on the first event that is not
from an EVM transaction, which ends the relay of every later event
(`logs_relay_ends_on_non_evm_event`).

Every return runs the deferred `cancelSubs`, but only the returns on the client's unsubscribe or
the closed connection call `Unsubscribe` (`pushRun_exit`); the returns on an event report an
error only in `NewHeads` and on a `Logs` payload that is no `EventDataTx`, never in
`NewPendingTransactions` (`pushRun_newPendingTransactions_errs`,
`push_exits_without_unsubscribe`).
-/

namespace Faxchain.Filters

/-- What a push subscription sends to its client. -/
inductive Notification
  /-- `common.BytesToHash(data.Tx.Hash())`, of `NewPendingTransactions`. -/
  | hash (h : Hash)
  /-- The header `EthHeaderFromTendermint` builds from `h`, of `NewHeads`. -/
  | header (h : TmHeader)
  | log (l : Log)
  deriving DecidableEq, Repr

/-- The three push subscriptions; `logs` keeps the criteria it was created with. -/
inductive PushKind
  | newPendingTransactions
  | newHeads
  | logs (crit : FilterCriteria)
  deriving DecidableEq, Repr

/-- A push subscription's listening task: whether it loops, what it notified, the errors it sent
(`sub.err <- err`), whether it called `Unsubscribe`, and whether `cancelSubs` ran. -/
structure PushTask where
  kind : PushKind
  running : Bool
  sent : List Notification
  errs : List String
  unsubscribed : Bool
  canceled : Bool
  deriving DecidableEq, Repr

/-- The task as its `go` statement starts it. -/
def PushTask.start (k : PushKind) : PushTask := ⟨k, true, [], [], false, false⟩

/-- `return` from the task: the deferred `cancelSubs` runs. -/
def PushTask.exit (t : PushTask) : PushTask := { t with running := false, canceled := true }

/-- `sub.err <- err`. -/
def PushTask.sendErr (t : PushTask) (e : String) : PushTask := { t with errs := t.errs ++ [e] }

/-- What a task's `select` receives; `notifyErr = some (k, e)` makes the `k`-th
`notifier.Notify` of the event fail with `e`. -/
inductive PushAction
  | event (ev : ResultEvent) (notifyErr : Option (ℕ × String))
  /-- `<-rpcSub.Err()`: the client unsubscribed. -/
  | unsubscribe
  /-- `<-notifier.Closed()`: the connection dropped. -/
  | closed
  deriving DecidableEq, Repr

/-- `notifier.Notify` of `ns` in order up to the first failure: what was sent, and the error. -/
def notifyEach (ns : List Notification) :
    Option (ℕ × String) → List Notification × Option String
  | some (k, e) => if k < ns.length then (ns.take k, some e) else (ns, none)
  | none => (ns, none)

/-- Notify `ns`; on a failed notify the task runs `onErr` and returns. -/
def PushTask.notify (t : PushTask) (ns : List Notification) (notifyErr : Option (ℕ × String))
    (onErr : PushTask → String → PushTask) : PushTask :=
  let r := notifyEach ns notifyErr
  let t' := { t with sent := t.sent ++ r.1 }
  match r.2 with
  | none => t'
  | some e => (onErr t' e).exit

/-- Whether an event comes from an EVM transaction: its `Events` has the key `TypeMsgEthermint`
or `TypeMsgEthereumTx`. -/
def isEvmEvent (E : Env) (ev : ResultEvent) : Bool :=
  ev.events.contains E.typeMsgEthermint || ev.events.contains E.typeMsgEthereumTx

/-- One pass of a task's loop on an event (`api.go:180-190`, `267-281`, `316-345`). -/
def onPushEvent (E : Env) (t : PushTask) (ev : ResultEvent) (notifyErr : Option (ℕ × String)) :
    PushTask :=
  match t.kind with
  | .newPendingTransactions => t.notify [.hash (E.txHash ev.data.asTx.tx)] notifyErr fun t _ => t
  | .newHeads =>
    match ev.data with
    | .newBlockHeader h => t.notify [.header h] notifyErr PushTask.sendErr
    | data =>
      let name := data.typeName
      let expected := E.eventNewBlockHeader
      (t.sendErr s!"invalid event data {name}, expected {expected}").exit
  | .logs crit =>
    if isEvmEvent E ev then
      match ev.data with
      | .tx d =>
        match E.decodeResultData d.data with
        | .ok logs =>
          let ls := E.filterLogs logs crit.fromBlock crit.toBlock crit.addresses crit.topics
          t.notify (ls.map .log) notifyErr fun t _ => t
        | .error _ => t.exit
      | data =>
        let name := data.typeName
        let expected := E.eventTx
        (t.sendErr s!"invalid event data {name}, expected {expected}").exit
    else t.exit

/-- One pass of a task's `select` loop; `none` once the task has returned. -/
def pushStep (E : Env) (t : PushTask) (a : PushAction) : Option PushTask :=
  if t.running then
    some (match a with
      | .event ev notifyErr => onPushEvent E t ev notifyErr
      | .unsubscribe | .closed => { t with unsubscribed := true }.exit)
  else none

/-- The passes of a task's loop over the receives `as`, in order. -/
def pushRun (E : Env) (t : PushTask) : List PushAction → Option PushTask
  | [] => some t
  | a :: as => (pushStep E t a).bind fun t' => pushRun E t' as

variable {E : Env} {t : PushTask}

theorem PushTask.notify_none (t : PushTask) (ns : List Notification)
    (onErr : PushTask → String → PushTask) :
    t.notify ns none onErr = { t with sent := t.sent ++ ns } := rfl

/-! ### The hash tasks on a payload of another type -/

theorem onEvent_other_payload {s : State} {id : ID} {t : Task} (ev : ResultEvent) :
    (t.kind = .pendingTransactions → (∀ d, ev.data ≠ .tx d) →
      onEvent E s id t ev = (appendHashes s id [E.txHash []], .items id (.hashes [E.txHash []]))) ∧
    (t.kind = .blocks → (∀ h, ev.data ≠ .newBlockHeader h) →
      onEvent E s id t ev =
        (appendHashes s id [E.headerHash {}], .items id (.hashes [E.headerHash {}]))) := by
  obtain ⟨_ | _ | _, _⟩ := ev <;> constructor <;> intro hk hd <;>
    simp_all [onEvent, EventData.asTx, EventData.asHeader]

theorem onPushEvent_newPendingTransactions (hk : t.kind = .newPendingTransactions)
    {ev : ResultEvent} (hd : ∀ d, ev.data ≠ .tx d) (n : Option (ℕ × String)) :
    onPushEvent E t ev n = t.notify [.hash (E.txHash [])] n fun t _ => t := by
  obtain ⟨_ | _ | _, _⟩ := ev <;> simp_all [onPushEvent, EventData.asTx]

/-- Zero events of closed channels make the hash tasks add or notify the hash `0` of a zero
value. -/
theorem zero_event_adds_hashes :
    (∃ s, Steps Env.sample State.init
        [(.newPendingTransactionFilter (fun _ => true) none, .id "0x"),
          (.newBlockFilter (fun _ => true) none, .id "0x0"),
          (.event "0x" .zero, .items "0x" (.hashes [0])),
          (.event "0x0" .zero, .items "0x0" (.hashes [0]))] s ∧
      (s.filters "0x").map Filter.hashes = some [0] ∧
      (s.filters "0x0").map Filter.hashes = some [0]) ∧
    (pushRun Env.sample (.start .newPendingTransactions) [.event .zero none]).map PushTask.sent =
      some [.hash 0] := by
  obtain ⟨s, h, hp, hb, hfp, hfb⟩ : ∃ s, Steps Env.sample State.init
      [(.newPendingTransactionFilter (fun _ => true) none, .id "0x"),
        (.newBlockFilter (fun _ => true) none, .id "0x0")] s ∧
      s.runningTask "0x" = some ⟨.pendingTransactions, true, none⟩ ∧
      s.runningTask "0x0" = some ⟨.blocks, true, none⟩ ∧
      (s.filters "0x").map Filter.hashes = some [] ∧
      (s.filters "0x0").map Filter.hashes = some [] :=
    ⟨_, Steps.of_run Env.sample State.init
      [.newPendingTransactionFilter (fun _ => true) none, .newBlockFilter (fun _ => true) none] rfl,
      by decide, by decide, by decide, by decide⟩
  have hz : ∀ d, ResultEvent.zero.data ≠ .tx d := fun d h => by cases h
  have hz' : ∀ d, ResultEvent.zero.data ≠ .newBlockHeader d := fun d h => by cases h
  have h₃ := h.tail (show step Env.sample s (.event "0x" .zero) =
      some (appendHashes s "0x" [0], .items "0x" (.hashes [0])) by
    simp only [step, hp, Option.map_some']
    rw [(onEvent_other_payload .zero).1 rfl hz]
    rfl)
  have h₄ := h₃.tail (show step Env.sample (appendHashes s "0x" [0]) (.event "0x0" .zero) =
      some (appendHashes (appendHashes s "0x" [0]) "0x0" [0], .items "0x0" (.hashes [0])) by
    simp only [step, Option.map_some',
      show (appendHashes s "0x" [0]).runningTask "0x0" = s.runningTask "0x0" from rfl, hb]
    rw [(onEvent_other_payload .zero).2 rfl hz']
    rfl)
  obtain ⟨fp, hfp, hfp'⟩ := Option.map_eq_some'.mp hfp
  obtain ⟨fb, hfb, hfb'⟩ := Option.map_eq_some'.mp hfb
  have hq := onPushEvent_newPendingTransactions (E := Env.sample)
    (t := .start .newPendingTransactions) rfl hz none
  refine ⟨⟨_, h₄, ?_, ?_⟩, ?_⟩
  · simp [appendHashes, Function.update_apply, hfp, hfp']
  · simp [appendHashes, Function.update_apply, hfb, hfb']
  · rw [pushRun, show pushStep Env.sample (.start .newPendingTransactions) (.event .zero none) = _
      from congrArg some hq]
    rfl

/-! ### The `Logs` task -/

/-- The notifications the spec has the `Logs` task send for an event: the `FilterLogs` result
of the decoded logs of an EVM transaction event, none for any other event. -/
def logsNotifications (E : Env) (crit : FilterCriteria) (ev : ResultEvent) : List Notification :=
  if isEvmEvent E ev then
    match ev.data with
    | .tx d =>
      match E.decodeResultData d.data with
      | .ok logs =>
        (E.filterLogs logs crit.fromBlock crit.toBlock crit.addresses crit.topics).map .log
      | .error _ => []
    | _ => []
  else []

/-- The events after which the `Logs` task keeps running: EVM transaction events whose result
decodes. -/
def relays (E : Env) (ev : ResultEvent) : Bool :=
  isEvmEvent E ev &&
    match ev.data with
    | .tx d => (E.decodeResultData d.data).toBool
    | _ => false

theorem onPushEvent_logs_relays {crit : FilterCriteria} (hk : t.kind = .logs crit)
    {ev : ResultEvent} (hr : relays E ev = true) :
    onPushEvent E t ev none = { t with sent := t.sent ++ logsNotifications E crit ev } := by
  simp only [relays, Bool.and_eq_true] at hr
  obtain ⟨_ | _ | _, _⟩ := ev
  · rename_i _ d
    cases h : E.decodeResultData d.data <;>
      simp_all [onPushEvent, logsNotifications, Except.toBool, PushTask.notify_none]
  · simp at hr
  · simp at hr

theorem onPushEvent_logs_stops {crit : FilterCriteria} (hk : t.kind = .logs crit)
    {ev : ResultEvent} (hr : relays E ev = false) (n : Option (ℕ × String)) :
    (onPushEvent E t ev n).running = false ∧
      (isEvmEvent E ev = false → onPushEvent E t ev n = t.exit) := by
  refine ⟨?_, fun he => by simp [onPushEvent, hk, he]⟩
  by_cases he : isEvmEvent E ev
  · simp only [relays, he, Bool.true_and] at hr
    obtain ⟨_ | _ | _, _⟩ := ev
    · rename_i _ d
      cases h : E.decodeResultData d.data <;>
        simp_all [onPushEvent, Except.toBool, PushTask.exit]
    · simp [onPushEvent, hk, he, PushTask.exit]
    · simp [onPushEvent, hk, he, PushTask.exit]
  · simp [onPushEvent, hk, he, PushTask.exit]

theorem pushRun_logs_relays {crit : FilterCriteria} (hk : t.kind = .logs crit)
    (ht : t.running = true) (evs : List ResultEvent) (hr : ∀ ev ∈ evs, relays E ev = true) :
    pushRun E t (evs.map fun ev => .event ev none) =
      some { t with sent := t.sent ++ evs.flatMap (logsNotifications E crit) } := by
  induction evs generalizing t with
  | nil => simp [pushRun]
  | cons ev evs ih =>
    have hs : pushStep E t (.event ev none) =
        some { t with sent := t.sent ++ logsNotifications E crit ev } := by
      simp [pushStep, ht, onPushEvent_logs_relays hk (hr ev (List.mem_cons_self ev evs))]
    simp only [List.map_cons, pushRun, hs, Option.some_bind]
    rw [ih (t := { t with sent := t.sent ++ logsNotifications E crit ev }) hk ht
      fun ev h => hr ev (List.mem_cons_of_mem _ h)]
    simp

/-- A `Logs` task returns on a non-EVM event, so a later EVM event with a log is never relayed. -/
theorem logs_relay_ends_on_non_evm_event :
    pushRun Env.sample (.start (.logs {})) [.event ⟨.tx {}, ["transfer"]⟩ none] =
        some ⟨.logs {}, false, [], [], false, true⟩ ∧
      pushRun Env.sample (.start (.logs {}))
        [.event ⟨.tx {}, ["transfer"]⟩ none,
          .event ⟨.tx { data := [5] }, ["ethereum"]⟩ none] =
        none ∧
      [⟨.tx {}, ["transfer"]⟩, ⟨.tx { data := [5] }, ["ethereum"]⟩].flatMap
        (logsNotifications Env.sample {}) = [.log ⟨5, [], 0⟩] :=
  by
  have hs : onPushEvent Env.sample (.start (.logs {})) ⟨.tx {}, ["transfer"]⟩ none =
      (PushTask.start (.logs {})).exit := (onPushEvent_logs_stops rfl (by rfl) none).2 (by rfl)
  have h₁ : pushStep Env.sample (.start (.logs {})) (.event ⟨.tx {}, ["transfer"]⟩ none) =
      some (PushTask.start (.logs {})).exit := by
    rw [← hs]
    rfl
  exact ⟨by rw [pushRun, h₁]; rfl, by rw [pushRun, h₁]; rfl, rfl⟩

/-! ### Exit paths -/

theorem PushTask.notify_cases (t : PushTask) (ns : List Notification)
    (n : Option (ℕ × String)) {onErr : PushTask → String → PushTask}
    (hErr : ∀ u e, ∃ errs, onErr u e = { u with errs := errs }) :
    ∃ sent errs, t.notify ns n onErr = { t with sent := sent, errs := errs } ∨
      t.notify ns n onErr = { t with sent := sent, errs := errs }.exit := by
  dsimp only [PushTask.notify]
  cases h : (notifyEach ns n).2 with
  | none => exact ⟨t.sent ++ (notifyEach ns n).1, t.errs, .inl rfl⟩
  | some e =>
    obtain ⟨errs, he⟩ := hErr { t with sent := t.sent ++ (notifyEach ns n).1 } e
    exact ⟨t.sent ++ (notifyEach ns n).1, errs, .inr (by dsimp only; rw [he])⟩

theorem onPushEvent_cases (E : Env) (t : PushTask) (ev : ResultEvent) (n : Option (ℕ × String)) :
    ∃ sent errs, onPushEvent E t ev n = { t with sent := sent, errs := errs } ∨
      onPushEvent E t ev n = { t with sent := sent, errs := errs }.exit := by
  unfold onPushEvent
  split
  · exact t.notify_cases _ _ fun u _ => ⟨u.errs, rfl⟩
  · split
    · exact t.notify_cases _ _ fun u e => ⟨u.errs ++ [e], rfl⟩
    · exact ⟨_, _, .inr rfl⟩
  · split
    · split
      · split
        · exact t.notify_cases _ _ fun u _ => ⟨u.errs, rfl⟩
        · exact ⟨_, _, .inr rfl⟩
      · exact ⟨_, _, .inr rfl⟩
    · exact ⟨_, _, .inr rfl⟩

/-- What every task a run from its start reaches satisfies: its deferred `cancelSubs` has run
exactly when it has returned, and it has not called `Unsubscribe` while it runs. -/
def PushTask.Ok (t : PushTask) : Prop :=
  t.canceled = !t.running ∧ (t.running = true → t.unsubscribed = false)

theorem PushTask.start_ok (k : PushKind) : (PushTask.start k).Ok := ⟨rfl, fun _ => rfl⟩

theorem pushStep_spec {a : PushAction} {t' : PushTask} (ho : t.Ok)
    (h : pushStep E t a = some t') :
    t'.Ok ∧
      (t'.unsubscribed = true ↔ t.unsubscribed = true ∨ a = .unsubscribe ∨ a = .closed) := by
  unfold pushStep at h
  split at h
  · rename_i ht
    have hc : t.canceled = false := by simp [ho.1, ht]
    cases h
    cases a with
    | event ev n =>
      dsimp only
      obtain ⟨sent, errs, he | he⟩ := onPushEvent_cases E t ev n <;> rw [he]
      · exact ⟨⟨by simp [hc, ht], fun _ => ho.2 ht⟩, by simp⟩
      · exact ⟨⟨rfl, fun h => by cases h⟩, by simp [PushTask.exit]⟩
    | unsubscribe | closed => exact ⟨⟨rfl, fun h => by cases h⟩, by simp [PushTask.exit]⟩
  · cases h

theorem pushRun_ok {as : List PushAction} {t' : PushTask} (ho : t.Ok)
    (h : pushRun E t as = some t') : t'.Ok := by
  induction as generalizing t with
  | nil => cases h; exact ho
  | cons a as ih =>
    obtain ⟨t₁, h₁, h⟩ := Option.bind_eq_some.mp h
    exact ih (pushStep_spec ho h₁).1 h

theorem pushRun_exit_last {as : List PushAction} {t' : PushTask} (ho : t.Ok)
    (ht : t.running = true) (h : pushRun E t as = some t') (hx : t'.running = false) :
    ∃ as₀ a, as = as₀ ++ [a] ∧
      (t'.unsubscribed = true ↔ a = .unsubscribe ∨ a = .closed) := by
  induction as generalizing t with
  | nil => cases h; simp [ht] at hx
  | cons a as ih =>
    obtain ⟨t₁, h₁, h⟩ := Option.bind_eq_some.mp h
    have hs := pushStep_spec ho h₁
    by_cases hr : t₁.running = true
    · obtain ⟨as₀, b, rfl, hb⟩ := ih hs.1 hr h
      exact ⟨a :: as₀, b, rfl, hb⟩
    · cases as with
      | cons b bs => simp [pushRun, pushStep, hr] at h
      | nil =>
        cases h
        exact ⟨[], a, rfl, by simpa [ho.2 ht] using hs.2⟩

theorem pushRun_exit {k : PushKind} {as : List PushAction} {t' : PushTask}
    (h : pushRun E (.start k) as = some t') :
    t'.canceled = !t'.running ∧
      (t'.running = false → ∃ as₀ a, as = as₀ ++ [a] ∧
        (t'.unsubscribed = true ↔ a = .unsubscribe ∨ a = .closed)) :=
  ⟨(pushRun_ok (PushTask.start_ok k) h).1,
    pushRun_exit_last (PushTask.start_ok k) rfl h⟩

theorem pushStep_newPendingTransactions {a : PushAction} {t' : PushTask}
    (hk : t.kind = .newPendingTransactions) (h : pushStep E t a = some t') :
    t'.kind = t.kind ∧ t'.errs = t.errs := by
  unfold pushStep at h
  split at h
  · cases h
    cases a with
    | event ev n =>
      simp only [onPushEvent, hk, PushTask.notify]
      split <;> exact ⟨rfl, rfl⟩
    | unsubscribe | closed => exact ⟨rfl, rfl⟩
  · cases h

theorem pushRun_newPendingTransactions_errs {as : List PushAction} {t' : PushTask}
    (h : pushRun E (.start .newPendingTransactions) as = some t') : t'.errs = [] := by
  suffices ∀ {t : PushTask}, t.kind = .newPendingTransactions → pushRun E t as = some t' →
      t'.errs = t.errs from this rfl h
  clear h
  induction as with
  | nil => intro t _ h; cases h; rfl
  | cons a as ih =>
    intro t hk h
    obtain ⟨t₁, h₁, h⟩ := Option.bind_eq_some.mp h
    have hs := pushStep_newPendingTransactions hk h₁
    exact (ih (hs.1.trans hk) h).trans hs.2

/-- Returns on an event call no `Unsubscribe`: a failed notify, an undecodable result, and the zero
event of a closed channel. -/
theorem push_exits_without_unsubscribe :
    pushRun Env.sample (.start .newPendingTransactions)
        [.event ⟨.tx { tx := [1] }, []⟩ (some (0, "broken pipe"))] =
      some ⟨.newPendingTransactions, false, [], [], false, true⟩ ∧
    pushRun Env.sample (.start (.logs {})) [.event ⟨.tx {}, ["ethereum"]⟩ none] =
      some ⟨.logs {}, false, [], [], false, true⟩ ∧
    pushRun Env.sample (.start .newHeads) [.event .zero none] =
      some ⟨.newHeads, false, [], ["invalid event data <nil>, expected NewBlockHeader"], false,
        true⟩ :=
  ⟨rfl, rfl, rfl⟩

/-! ### What a task relays and reports over a run -/

theorem pushStep_kind {a : PushAction} {t' : PushTask} (h : pushStep E t a = some t') :
    t'.kind = t.kind := by
  unfold pushStep at h
  split at h
  · cases h
    cases a with
    | event ev n =>
      dsimp only
      obtain ⟨_, _, he | he⟩ := onPushEvent_cases E t ev n <;> simp [he, PushTask.exit]
    | unsubscribe | closed => rfl
  · cases h

theorem PushTask.notify_errs (t : PushTask) (ns : List Notification) (n : Option (ℕ × String))
    {onErr : PushTask → String → PushTask}
    (hErr : ∀ u e, (onErr u e).errs = u.errs ∨ (onErr u e).errs = u.errs ++ [e]) :
    (t.notify ns n onErr).errs = t.errs ∨
      ∃ e, (t.notify ns n onErr).errs = t.errs ++ [e] ∧ (t.notify ns n onErr).running = false := by
  dsimp only [PushTask.notify]
  split
  · exact .inl rfl
  · rename_i e _
    rcases hErr { t with sent := t.sent ++ (notifyEach ns n).1 } e with h | h
    · exact .inl h
    · exact .inr ⟨e, h, rfl⟩

theorem onPushEvent_errs (E : Env) (t : PushTask) (ev : ResultEvent) (n : Option (ℕ × String)) :
    (onPushEvent E t ev n).errs = t.errs ∨
      ∃ e, (onPushEvent E t ev n).errs = t.errs ++ [e] ∧ (onPushEvent E t ev n).running = false := by
  unfold onPushEvent
  split
  · exact t.notify_errs _ n fun _ _ => .inl rfl
  · split
    · exact t.notify_errs _ n fun _ _ => .inr rfl
    · exact .inr ⟨_, rfl, rfl⟩
  · split
    · split
      · split
        · exact t.notify_errs _ n fun _ _ => .inl rfl
        · exact .inl rfl
      · exact .inr ⟨_, rfl, rfl⟩
    · exact .inl rfl

/-- What every task a run from its start reaches satisfies besides `Ok`: it has reported no
error, or one, on a return that did not unsubscribe. -/
def PushTask.ReportsOnce (t : PushTask) : Prop :=
  t.errs = [] ∨ ∃ e, t.errs = [e] ∧ t.running = false ∧ t.unsubscribed = false

theorem pushStep_reportsOnce {a : PushAction} {t' : PushTask} (ho : t.Ok) (hr : t.ReportsOnce)
    (h : pushStep E t a = some t') : t'.ReportsOnce := by
  unfold pushStep at h
  split at h
  · rename_i ht
    have he : t.errs = [] := by
      rcases hr with hr | ⟨_, -, hx, -⟩
      · exact hr
      · simp [ht] at hx
    cases h
    cases a with
    | event ev n =>
      dsimp only
      have hu : (onPushEvent E t ev n).unsubscribed = false := by
        obtain ⟨_, _, h | h⟩ := onPushEvent_cases E t ev n <;> rw [h] <;> exact ho.2 ht
      rcases onPushEvent_errs E t ev n with h | ⟨e, h, hx⟩
      · exact .inl (h.trans he)
      · exact .inr ⟨e, by rw [h, he]; rfl, hx, hu⟩
    | unsubscribe | closed => exact .inl he
  · cases h

/-- A push task sends at most one error into its subscription's error channel, and none after
`Unsubscribe`. -/
theorem pushRun_reports_once {k : PushKind} {as : List PushAction} {u : PushTask}
    (h : pushRun E (.start k) as = some u) :
    u.errs = [] ∨ ∃ e, u.errs = [e] ∧ u.running = false ∧ u.unsubscribed = false := by
  suffices ∀ {t : PushTask}, t.Ok → t.ReportsOnce → pushRun E t as = some u →
      u.ReportsOnce from this (PushTask.start_ok k) (.inl rfl) h
  clear h
  induction as with
  | nil => intro t _ hr h; cases h; exact hr
  | cons a as ih =>
    intro t ho hr h
    obtain ⟨t₁, h₁, h⟩ := Option.bind_eq_some.mp h
    exact ih (pushStep_spec ho h₁).1 (pushStep_reportsOnce ho hr h₁) h

/-- The `NewHeads` task whose second notify fails reports that error, once, as it returns. -/
theorem newHeads_reports_failed_notify_once :
    pushRun Env.sample (.start .newHeads)
        [.event ⟨.newBlockHeader { height := 1 }, []⟩ none,
          .event ⟨.newBlockHeader { height := 2 }, []⟩ (some (0, "broken pipe"))] =
      some ⟨.newHeads, false, [.header { height := 1 }], ["broken pipe"], false, true⟩ ∧
    (["broken pipe"] = [] ∨ ∃ e, ["broken pipe"] = [e] ∧ false = false ∧ false = false) :=
  have h : pushRun Env.sample (.start .newHeads)
      [.event ⟨.newBlockHeader { height := 1 }, []⟩ none,
        .event ⟨.newBlockHeader { height := 2 }, []⟩ (some (0, "broken pipe"))] =
      some ⟨.newHeads, false, [.header { height := 1 }], ["broken pipe"], false, true⟩ := rfl
  ⟨h, pushRun_reports_once h⟩

end Faxchain.Filters
