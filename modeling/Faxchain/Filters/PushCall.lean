import Faxchain.Filters.Push

/-!
# The creating calls of the push subscriptions (api.go:158-202, 249-293, 296-357)

`NewPendingTransactions`, `NewHeads` and `Logs` return at once when the connection supports no
notifications (`&rpc.Subscription{}` next to `rpc.ErrNotificationsUnsupported`) or the event
system's subscribe call fails (`nil` from `NewPendingTransactions`, `&rpc.Subscription{}` from
the other two, next to the error): `createCall`. Otherwise they start their task and execute
`return rpcSub, err`, where `err` is the variable of the call's frame that the task's closure
also assigns. A pass assigns `err` as its source lines do (`pushErrWrite`):
`NewPendingTransactions` assigns every notify's result, `NewHeads` every notify's result and its
invalid-payload error, and `Logs` its invalid-payload error only, since its decode and notify
results go to the `err` that `resultData, err :=` declares in the case clause. A pass that
returns is split at its write of `err`: its send into the subscription's error channel and its
`return` are later steps (`PassRest`), and the call's `return` may read `err` in between
(`callStep`).

Without the call's steps a run is a run of the task (`callRun_task`). Whatever the
interleaving, an error a created call returns was written by a pass that ends its task, which
notifies nothing after it, and the `Logs` call returns no error but an invalid-payload one
(`createdCall_err_of_exiting_task`).
-/

namespace Faxchain.Filters

/-- The subscription a creating call returns. -/
inductive RpcSubscription
  /-- `nil`. -/
  | nil
  /-- `&rpc.Subscription{}`. -/
  | empty
  /-- The `rpcSub` that `notifier.CreateSubscription()` created. -/
  | created
  deriving DecidableEq, Repr

/-- What a creating call returns. -/
inductive CallResult
  /-- `&rpc.Subscription{}, rpc.ErrNotificationsUnsupported`. -/
  | unsupported
  /-- The subscribe call's error, next to the subscription returned on that path. -/
  | failed (sub : RpcSubscription) (e : String)
  /-- `return rpcSub, err`. -/
  | returned (err : Option String)
  deriving DecidableEq, Repr

/-- What is left of a returning pass once it has written `err`: its send and its `return`, or its
`return` alone; `t` is the task the pass leaves. -/
inductive PassRest
  | send (t : PushTask)
  | ret (t : PushTask)
  deriving DecidableEq, Repr

/-- A creating call whose task has started: the task, the call's `err`, what is left of the
task's pass, and what the call has returned, once it has. -/
structure PushCall where
  task : PushTask
  err : Option String
  rest : Option PassRest
  result : Option CallResult
  deriving DecidableEq, Repr

/-- The call right after its `go` statement. -/
def PushCall.start (k : PushKind) : PushCall := ⟨.start k, none, none, none⟩

/-- The shape the three creating calls share: gate on notification support, subscribe, start the
task; `onSubErr` is the subscription returned next to a subscribe error. -/
def createCall (k : PushKind) (onSubErr : RpcSubscription) (supported : Bool)
    (sub : Option String) : Except CallResult PushCall :=
  if supported then
    match sub with
    | some e => .error (.failed onSubErr e)
    | none => .ok (.start k)
  else .error .unsupported

/-- `NewPendingTransactions` (api.go:158-175) up to its `go` statement. -/
def newPendingTransactions : Bool → Option String → Except CallResult PushCall :=
  createCall .newPendingTransactions .nil

/-- `NewHeads` (api.go:249-262) up to its `go` statement. -/
def newHeads : Bool → Option String → Except CallResult PushCall :=
  createCall .newHeads .empty

/-- `Logs` (api.go:296-309) up to its `go` statement. -/
def logs (crit : FilterCriteria) : Bool → Option String → Except CallResult PushCall :=
  createCall (.logs crit) .empty

/-- What happens next to a created call: a pass of its task up to its write of `err`, the
task's send of its error, the task's `return`, or the call's `return`. -/
inductive CallAction
  | pass (a : PushAction)
  | send
  | exit
  | ret
  deriving DecidableEq, Repr

/-- The receive of a pass. -/
def CallAction.pass? : CallAction → Option PushAction
  | .pass a => some a
  | _ => none

/-- `fmt.Errorf("invalid event data %T, expected %s", data, expected)`. -/
def invalidEventData (data : EventData) (expected : String) : String :=
  let name := data.typeName
  s!"invalid event data {name}, expected {expected}"

/-- What a pass of task `t` on receive `a` leaves in the call's `err`, which held `err`
(`api.go:187`, `271`, `277`, `328`). -/
def pushErrWrite (E : Env) (t : PushTask) (a : PushAction) (err : Option String) :
    Option String :=
  match a with
  | .event ev notifyErr =>
    match t.kind with
    | .newPendingTransactions => (notifyEach [.hash (E.txHash ev.data.asTx.tx)] notifyErr).2
    | .newHeads =>
      match ev.data with
      | .newBlockHeader h => (notifyEach [.header h] notifyErr).2
      | data => some (invalidEventData data E.eventNewBlockHeader)
    | .logs _ =>
      if isEvmEvent E ev then
        match ev.data with
        | .tx _ => err
        | data => some (invalidEventData data E.eventTx)
      else err
  | .unsubscribe | .closed => err

/-- The call after a pass of its task that leaves the task `t`; a returning pass stops after its
write of `err`, with the rest of it in `rest`. -/
def PushCall.afterPass (E : Env) (c : PushCall) (a : PushAction) (t : PushTask) : PushCall :=
  let err := pushErrWrite E c.task a c.err
  if t.running then { c with task := t, err := err }
  else
    { c with
      task := { c.task with sent := t.sent }
      err := err
      rest := some (if t.errs = c.task.errs then .ret t else .send t) }

/-- One step next to a created call; `none` when it cannot be taken. -/
def callStep (E : Env) (c : PushCall) : CallAction → Option PushCall
  | .pass a =>
    match c.rest with
    | some _ => none
    | none => (pushStep E c.task a).map (c.afterPass E a)
  | .send =>
    match c.rest with
    | some (.send t) =>
      some { c with task := { c.task with errs := t.errs }, rest := some (.ret t) }
    | _ => none
  | .exit =>
    match c.rest with
    | some (.ret t) => some { c with task := t, rest := none }
    | _ => none
  | .ret =>
    match c.result with
    | none => some { c with result := some (.returned c.err) }
    | some _ => none

/-- The steps `as` in order. -/
def callRun (E : Env) (c : PushCall) : List CallAction → Option PushCall
  | [] => some c
  | a :: as => (callStep E c a).bind fun c' => callRun E c' as

/-- The task once the rest of its pass has run. -/
def PushCall.settled (c : PushCall) : PushTask :=
  match c.rest with
  | none => c.task
  | some (.send t) | some (.ret t) => t

variable {E : Env} {c c' : PushCall}

theorem PushCall.settled_of_rest (hr : c.rest = none) : c.settled = c.task := by
  simp [settled, hr]

theorem PushCall.afterPass_settled (hr : c.rest = none) (a : PushAction) (t : PushTask) :
    (c.afterPass E a t).settled = t := by
  unfold afterPass
  split
  · simp [settled, hr]
  · by_cases h : t.errs = c.task.errs <;> simp [settled, h]

theorem callStep_cases {a : CallAction} (h : callStep E c a = some c') :
    (∃ p t, a = .pass p ∧ c.rest = none ∧ pushStep E c.task p = some t ∧
      c' = c.afterPass E p t) ∨
    (∃ t, a = .send ∧ c.rest = some (.send t) ∧
      c' = { c with task := { c.task with errs := t.errs }, rest := some (.ret t) }) ∨
    (∃ t, a = .exit ∧ c.rest = some (.ret t) ∧ c' = { c with task := t, rest := none }) ∨
    (a = .ret ∧ c.result = none ∧ c' = { c with result := some (.returned c.err) }) := by
  cases a with
  | pass p =>
    simp only [callStep] at h
    split at h
    · cases h
    · obtain ⟨t, ht, rfl⟩ := Option.map_eq_some'.mp h
      exact .inl ⟨p, t, rfl, ‹_›, ht, rfl⟩
  | send =>
    simp only [callStep] at h
    split at h <;> cases h
    exact .inr (.inl ⟨_, rfl, ‹_›, rfl⟩)
  | exit =>
    simp only [callStep] at h
    split at h <;> cases h
    exact .inr (.inr (.inl ⟨_, rfl, ‹_›, rfl⟩))
  | ret =>
    simp only [callStep] at h
    split at h <;> cases h
    exact .inr (.inr (.inr ⟨rfl, ‹_›, rfl⟩))

theorem callStep_settled {a : CallAction} (h : callStep E c a = some c') :
    (a.pass?.bind fun p => pushStep E c.settled p) = some c'.settled ∨
      a.pass? = none ∧ c'.settled = c.settled := by
  rcases callStep_cases h with ⟨p, t, rfl, hr, ht, rfl⟩ | ⟨t, rfl, hr, rfl⟩ | ⟨t, rfl, hr, rfl⟩ |
    ⟨rfl, -, rfl⟩
  · exact .inl (by simp [CallAction.pass?, c.settled_of_rest hr, ht, c.afterPass_settled hr])
  · exact .inr ⟨rfl, by simp [PushCall.settled, hr]⟩
  · exact .inr ⟨rfl, by simp [PushCall.settled, hr]⟩
  · exact .inr ⟨rfl, rfl⟩

/-- Without the call's steps a run is a run of the task, up to the rest of its last pass. -/
theorem callRun_task {as : List CallAction} (h : callRun E c as = some c') :
    pushRun E c.settled (as.filterMap CallAction.pass?) = some c'.settled := by
  induction as generalizing c with
  | nil => cases h; rfl
  | cons a as ih =>
    obtain ⟨c₁, h₁, h⟩ := Option.bind_eq_some.mp h
    rcases callStep_settled h₁ with hs | ⟨hp, hs⟩
    · cases hp : a.pass? with
      | none => simp [hp] at hs
      | some p =>
        simp only [hp, Option.some_bind] at hs
        simp [List.filterMap_cons, hp, pushRun, hs, ih h]
    · simpa [List.filterMap_cons, hp, hs] using ih h

/-! ### The race on `err` -/

theorem pushErrWrite_event_some {t : PushTask} {ev : ResultEvent} {n : Option (ℕ × String)}
    {e : String} (h : pushErrWrite E t (.event ev n) none = some e) :
    (onPushEvent E t ev n).running = false ∧
      ∀ crit, t.kind = .logs crit → ∃ data, e = invalidEventData data E.eventTx := by
  unfold pushErrWrite at h
  unfold onPushEvent
  cases hk : t.kind with
  | newPendingTransactions =>
    simp only [hk] at h ⊢
    exact ⟨by simp [PushTask.notify, h, PushTask.exit], fun _ h => by cases h⟩
  | newHeads =>
    simp only [hk] at h ⊢
    refine ⟨?_, fun _ h => by cases h⟩
    cases hd : ev.data <;> simp only [hd] at h ⊢ <;> simp [PushTask.notify, h, PushTask.exit]
  | logs crit =>
    simp only [hk, PushKind.logs.injEq, forall_eq'] at h ⊢
    by_cases hv : isEvmEvent E ev <;> simp only [hv, if_true, if_false] at h ⊢
    · cases hd : ev.data <;> simp only [hd, Option.some.injEq, reduceCtorEq] at h ⊢ <;>
        exact ⟨rfl, _, h.symm⟩
    · cases h

theorem pushStep_running {t t' : PushTask} {a : PushAction} (h : pushStep E t a = some t') :
    t.running = true := by
  cases hr : t.running
  · simp [pushStep, hr] at h
  · rfl

theorem pushErrWrite_some {t t' : PushTask} {a : PushAction} {e : String}
    (h : pushErrWrite E t a none = some e) (ht : pushStep E t a = some t') :
    t'.running = false ∧
      ∀ crit, t.kind = .logs crit → ∃ data, e = invalidEventData data E.eventTx := by
  cases a with
  | event ev n =>
    unfold pushStep at ht
    split at ht
    · cases ht; exact pushErrWrite_event_some h
    · cases ht
  | unsubscribe | closed => cases h

/-- What every call of kind `k` a run from its start reaches satisfies. -/
structure PushCall.Ok (E : Env) (k : PushKind) (c : PushCall) : Prop where
  kind : c.task.kind = k ∧ c.settled.kind = k
  clear : c.rest = none → c.task.running = true → c.err = none
  rest : c.rest ≠ none →
    c.task.running = true ∧ c.settled.running = false ∧ c.settled.sent = c.task.sent
  logs_err : ∀ crit e, k = .logs crit → c.err = some e →
    ∃ data, e = invalidEventData data E.eventTx
  returned : ∀ e, c.result = some (.returned (some e)) → c.err = some e

theorem PushCall.start_ok (k : PushKind) : (PushCall.start k).Ok E k where
  kind := ⟨rfl, rfl⟩
  clear _ _ := rfl
  rest h := absurd rfl h
  logs_err _ _ _ h := nomatch h
  returned _ h := nomatch h

theorem callStep_pass_ok {k : PushKind} {a : PushAction} (ho : c.Ok E k) (hr : c.rest = none)
    {t : PushTask} (ht : pushStep E c.task a = some t) : (c.afterPass E a t).Ok E k := by
  have hrun := pushStep_running ht
  have he : c.err = none := ho.clear hr hrun
  have hk : t.kind = k := (pushStep_kind ht).trans ho.kind.1
  have hw : ∀ e, pushErrWrite E c.task a c.err = some e →
      t.running = false ∧ ∀ crit, k = .logs crit → ∃ data, e = invalidEventData data E.eventTx :=
    fun e hw =>
      have hw := pushErrWrite_some (he ▸ hw) ht
      ⟨hw.1, fun crit hl => hw.2 crit (ho.kind.1.trans hl)⟩
  have hres : ∀ e, c.result = some (.returned (some e)) → False :=
    fun e h => absurd (ho.returned e h) (by simp [he])
  have hs := c.afterPass_settled (E := E) hr a t
  by_cases htr : t.running = true
  · simp only [PushCall.afterPass, htr, ↓reduceIte] at hs ⊢
    refine ⟨⟨hk, by rw [hs, hk]⟩, fun _ _ => ?_, fun h => absurd hr h,
      fun crit e hl h => (hw e h).2 crit hl, fun e h => (hres e h).elim⟩
    cases hwe : pushErrWrite E c.task a c.err with
    | none => rfl
    | some e => simp [(hw e hwe).1] at htr
  · simp only [PushCall.afterPass, htr, Bool.false_eq_true, ↓reduceIte] at hs ⊢
    refine ⟨⟨ho.kind.1, by rw [hs, hk]⟩, fun h => (nomatch h), fun _ => ⟨hrun, ?_, by rw [hs]⟩,
      fun crit e hl h => (hw e h).2 crit hl, fun e h => (hres e h).elim⟩
    rw [hs]; simpa using htr

theorem callStep_ok {k : PushKind} {a : CallAction} (ho : c.Ok E k)
    (h : callStep E c a = some c') : c'.Ok E k := by
  rcases callStep_cases h with ⟨p, t, rfl, hr, ht, rfl⟩ | ⟨t, rfl, hr, rfl⟩ | ⟨t, rfl, hr, rfl⟩ |
    ⟨rfl, -, rfl⟩
  · exact callStep_pass_ok ho hr ht
  · have hs : c.settled = t := by simp [PushCall.settled, hr]
    obtain ⟨h1, h2, h3⟩ := ho.rest (by simp [hr])
    rw [hs] at h2 h3
    exact ⟨⟨ho.kind.1, hs ▸ ho.kind.2⟩, fun h => (nomatch h), fun _ => ⟨h1, h2, h3⟩, ho.logs_err,
      ho.returned⟩
  · have hs : c.settled = t := by simp [PushCall.settled, hr]
    obtain ⟨-, h2, -⟩ := ho.rest (by simp [hr])
    rw [hs] at h2
    exact ⟨⟨hs ▸ ho.kind.2, hs ▸ ho.kind.2⟩, fun _ h => by simp [h2] at h, fun h => absurd rfl h,
      ho.logs_err, ho.returned⟩
  · exact ⟨ho.kind, ho.clear, ho.rest, ho.logs_err, fun e hres => by
      simpa only [Option.some.injEq, CallResult.returned.injEq, eq_comm] using hres⟩

theorem callRun_ok {k : PushKind} {as : List CallAction} (ho : c.Ok E k)
    (h : callRun E c as = some c') : c'.Ok E k := by
  induction as generalizing c with
  | nil => cases h; exact ho
  | cons a as ih =>
    obtain ⟨c₁, h₁, h⟩ := Option.bind_eq_some.mp h
    exact ih (callStep_ok ho h₁) h

theorem callStep_quiet {k : PushKind} {a : CallAction} (ho : c.Ok E k)
    (hq : c.task.running = false ∨ c.rest ≠ none) (h : callStep E c a = some c') :
    (c'.task.running = false ∨ c'.rest ≠ none) ∧ c'.task.sent = c.task.sent := by
  rcases callStep_cases h with ⟨p, t, rfl, hr, ht, rfl⟩ | ⟨t, rfl, hr, rfl⟩ | ⟨t, rfl, hr, rfl⟩ |
    ⟨rfl, -, rfl⟩
  · simpa [hq.resolve_right (by simp [hr])] using pushStep_running ht
  · exact ⟨.inr (by simp), rfl⟩
  · obtain ⟨-, h2, h3⟩ := ho.rest (by simp [hr])
    simp only [PushCall.settled, hr] at h2 h3
    exact ⟨.inl h2, h3⟩
  · exact ⟨hq, rfl⟩

theorem callRun_quiet {k : PushKind} {as : List CallAction} (ho : c.Ok E k)
    (hq : c.task.running = false ∨ c.rest ≠ none) (h : callRun E c as = some c') :
    c'.task.sent = c.task.sent := by
  induction as generalizing c with
  | nil => cases h; rfl
  | cons a as ih =>
    obtain ⟨c₁, h₁, h⟩ := Option.bind_eq_some.mp h
    obtain ⟨hq₁, hs₁⟩ := callStep_quiet ho hq h₁
    rw [ih (callStep_ok ho h₁) hq₁ h, hs₁]

/-- An error a created call returns was written by a pass that ends its task, which then notifies
nothing; the `Logs` call returns only invalid-payload errors. -/
theorem createdCall_err_of_exiting_task {k : PushKind} {as : List CallAction} {c : PushCall}
    (h : callRun E (.start k) as = some c) {e : String}
    (he : c.result = some (.returned (some e))) :
    (c.task.running = false ∨ c.rest ≠ none) ∧
      (∀ bs c', callRun E c bs = some c' → c'.task.sent = c.task.sent) ∧
      ∀ crit, k = .logs crit → ∃ data, e = invalidEventData data E.eventTx := by
  have ho := callRun_ok (PushCall.start_ok k) h
  have herr := ho.returned e he
  have hq : c.task.running = false ∨ c.rest ≠ none := by
    cases hr : c.rest
    · cases hrun : c.task.running
      · exact .inl rfl
      · simp [ho.clear hr hrun] at herr
    · exact .inr (by simp)
  exact ⟨hq, fun bs c' h' => callRun_quiet ho hq h', fun crit hk => ho.logs_err crit e hk herr⟩

/-- The `Logs` call whose task meets a header payload on an EVM event returns that
invalid-payload error while its task has neither sent it nor returned. -/
theorem logsCall_returns_error_before_task_returns :
    callRun Env.sample (.start (.logs {}))
        [.pass (.event ⟨.newBlockHeader { height := 1 }, ["ethereum"]⟩ none), .ret] =
      some ⟨⟨.logs {}, true, [], [], false, false⟩,
        some "invalid event data types.EventDataNewBlockHeader, expected Tx",
        some (.send ⟨.logs {}, false, [],
          ["invalid event data types.EventDataNewBlockHeader, expected Tx"], false, true⟩),
        some (.returned (some "invalid event data types.EventDataNewBlockHeader, expected Tx"))⟩ ∧
      ((true = false ∨ some (PassRest.send ⟨.logs {}, false, [],
          ["invalid event data types.EventDataNewBlockHeader, expected Tx"], false, true⟩) ≠ none) ∧
        (∀ bs c', callRun Env.sample ⟨⟨.logs {}, true, [], [], false, false⟩,
            some "invalid event data types.EventDataNewBlockHeader, expected Tx",
            some (.send ⟨.logs {}, false, [],
              ["invalid event data types.EventDataNewBlockHeader, expected Tx"], false, true⟩),
            some (.returned (some "invalid event data types.EventDataNewBlockHeader, expected Tx"))⟩
            bs = some c' → c'.task.sent = []) ∧
        ∀ crit, PushKind.logs {} = .logs crit → ∃ data,
          "invalid event data types.EventDataNewBlockHeader, expected Tx" =
            invalidEventData data Env.sample.eventTx) :=
  have h : callRun Env.sample (.start (.logs {}))
      [.pass (.event ⟨.newBlockHeader { height := 1 }, ["ethereum"]⟩ none), .ret] =
      some ⟨⟨.logs {}, true, [], [], false, false⟩,
        some "invalid event data types.EventDataNewBlockHeader, expected Tx",
        some (.send ⟨.logs {}, false, [],
          ["invalid event data types.EventDataNewBlockHeader, expected Tx"], false, true⟩),
        some (.returned (some "invalid event data types.EventDataNewBlockHeader, expected Tx"))⟩ :=
    rfl
  ⟨h, createdCall_err_of_exiting_task h rfl⟩

end Faxchain.Filters
