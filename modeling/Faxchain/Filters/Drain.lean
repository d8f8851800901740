import Faxchain.Filters.Deadline

/-!
# `GetFilterChanges` drains exactly what the listening task derived (api.go:131-151, 393-425,
532-565)

Over a labelled run, `derived id tr` is what the listening task of `id` derived from the events
it received (`eventItems`: one hash per pending-transaction or block event, the `FilterLogs`
result of the decoded logs per logs event), and `drained id tr` is what the successful
`GetFilterChanges(id)` calls returned. Each step that leaves `id` a filter takes its drained
items from the front of the filter's items and puts its derived ones at the back, or creates
the filter empty under a fresh id (`step_drainStep`); by induction, while `id` is registered the
drained items followed by the filter's accumulated ones are the derived items, in order
(`getFilterChanges_drains_exactly`): every append and every drain happens under `filtersMu`,
whatever the interleaving.
-/

namespace Faxchain.Filters

variable {E : Env} {s s' : State} {id : ID}

/-- An item a filter accumulates. -/
inductive Item
  | hash (h : Hash)
  | log (l : Log)
  deriving DecidableEq, Repr

/-- The items of a `GetFilterChanges` result. -/
def Changes.items : Changes → List Item
  | .hashes hs => hs.map .hash
  | .logs ls => ls.map .log

/-- A filter's accumulated items, the list `GetFilterChanges` returns for its type. -/
def Filter.pending (f : Filter) : List Item :=
  match f.typ with
  | .pendingTransactionsSubscription | .blocksSubscription => f.hashes.map .hash
  | _ => f.logs.map .log

/-- The items a listening task's reply carries. -/
def Reply.derived : Reply → List Item
  | .items _ c => c.items
  | _ => []

/-- The items a successful `GetFilterChanges` reply returns. -/
def Reply.drained : Reply → List Item
  | .changes (.ok c) => c.items
  | _ => []

/-- The items one labelled step derives for `id`: its listening task's reply to an event. -/
def derivedBy (id : ID) : Action × Reply → List Item
  | (.event i _, r) => if i = id then r.derived else []
  | _ => []

/-- The items one labelled step drains from `id`: a successful `GetFilterChanges(id)`. -/
def drainedBy (id : ID) : Action × Reply → List Item
  | (.getFilterChanges _ i, r) => if i = id then r.drained else []
  | _ => []

/-- What the listening task of `id` derived over a run. -/
def derived (id : ID) (tr : List (Action × Reply)) : List Item := tr.flatMap (derivedBy id)

/-- What the successful `GetFilterChanges(id)` calls of a run returned. -/
def drained (id : ID) (tr : List (Action × Reply)) : List Item := tr.flatMap (drainedBy id)

@[simp] theorem derived_nil (id : ID) : derived id [] = [] := rfl
@[simp] theorem drained_nil (id : ID) : drained id [] = [] := rfl
@[simp] theorem derived_append (id : ID) (tr tr' : List (Action × Reply)) :
    derived id (tr ++ tr') = derived id tr ++ derived id tr' := List.flatMap_append ..
@[simp] theorem drained_append (id : ID) (tr tr' : List (Action × Reply)) :
    drained id (tr ++ tr') = drained id tr ++ drained id tr' := List.flatMap_append ..
@[simp] theorem derived_singleton (id : ID) (p : Action × Reply) :
    derived id [p] = derivedBy id p := List.append_nil _
@[simp] theorem drained_singleton (id : ID) (p : Action × Reply) :
    drained id [p] = drainedBy id p := List.append_nil _

/-- The items a listening task derives from an event: one hash per event for the hash tasks, the
`FilterLogs` result of the decoded logs for the logs task. -/
def eventItems (E : Env) (k : TaskKind) (ev : ResultEvent) : List Item :=
  match k with
  | .pendingTransactions => [.hash (E.txHash ev.data.asTx.tx)]
  | .blocks => [.hash (E.headerHash ev.data.asHeader)]
  | .logs c =>
    match ev.data with
    | .tx d =>
      match E.decodeResultData d.data with
      | .ok logs => (E.filterLogs logs c.fromBlock c.toBlock c.addresses c.topics).map .log
      | .error _ => []
    | _ => []

theorem onEvent_derived (t : Task) (ev : ResultEvent) :
    (onEvent E s id t ev).2.derived = eventItems E t.kind ev := by
  obtain ⟨_ | _ | c, running, err⟩ := t
  · rfl
  · rfl
  · obtain ⟨_ | _ | _, _⟩ := ev
    · rename_i _ d
      cases h : E.decodeResultData d.data <;>
        simp [onEvent, eventItems, h, Reply.derived, Changes.items]
    · rfl
    · rfl

theorem derivedBy_event {ev : ResultEvent} {r : Reply}
    (h : step E s (.event id ev) = some (s', r)) :
    ∃ t, s.runningTask id = some t ∧
      derivedBy id (.event id ev, r) = eventItems E t.kind ev := by
  obtain ⟨t, ht, he⟩ := Option.map_eq_some'.mp h
  have hr : (onEvent E s id t ev).2 = r := congrArg Prod.snd he
  refine ⟨t, ht, ?_⟩
  rw [← hr]
  simp [derivedBy, onEvent_derived]

/-! ### What one step does to a filter's items -/

/-- How filter `id`'s items after step `p` arise: created empty under a fresh id, or the old items
with the drained ones taken from the front and the derived ones put at the back. -/
def DrainStep (E : Env) (s : State) (p : Action × Reply) (id : ID) (f' : Filter) : Prop :=
  (¬ Issued E s id ∧ f'.pending = []) ∨
    ∃ f, s.filters id = some f ∧ drainedBy id p ++ f'.pending = f.pending ++ derivedBy id p

theorem Keeps.drainStep (k : Keeps Filter.pending s s') {p : Action × Reply}
    (hq : derivedBy id p = [] ∧ drainedBy id p = []) {f' : Filter}
    (hf' : s'.filters id = some f') : DrainStep E s p id f' :=
  let ⟨f, hf, he⟩ := k id f' hf'
  .inr ⟨f, hf, by simp [hq, he]⟩

theorem drainStep_register {k : TaskKind} {p : Action × Reply}
    (hq : derivedBy id p = [] ∧ drainedBy id p = []) {f' : Filter}
    (hf' : (register E s k).filters id = some f') : DrainStep E s p id f' := by
  by_cases hi : id = E.newID s.nextSub
  · subst hi
    simp only [register, Function.update_same, Option.some.injEq] at hf'
    subst hf'
    refine .inl ⟨not_issued_next E s, ?_⟩
    unfold Filter.pending
    split <;> rfl
  · exact (Keeps.refl s).drainStep hq (by simpa [register, Function.update_noteq hi] using hf')

theorem onEvent_pending {t : Task} {f f' : Filter} (hk : t.kind.typ = f.typ)
    (hf : s.filters id = some f) (ev : ResultEvent)
    (hf' : (onEvent E s id t ev).1.filters id = some f') :
    f'.pending = f.pending ++ (onEvent E s id t ev).2.derived := by
  obtain ⟨k, running, err⟩ := t
  cases k with
  | pendingTransactions | blocks =>
    simp only [onEvent, appendHashes, hf, Function.update_same, Option.map_some',
      Option.some.injEq] at hf'
    subst hf'
    simp [Filter.pending, ← hk, onEvent, Reply.derived, Changes.items, TaskKind.typ]
  | logs c =>
    obtain ⟨_ | _ | _, _⟩ := ev
    · rename_i _ d
      cases h : E.decodeResultData d.data
      · simp [onEvent, h, hf] at hf'
        simp [onEvent, h, hf', Reply.derived]
      · simp only [onEvent, h, appendLogs, setTask_filters, hf, Function.update_same,
          Option.map_some', Option.some.injEq] at hf'
        subst hf'
        simp [Filter.pending, ← hk, onEvent, h, Reply.derived, Changes.items, TaskKind.typ]
    all_goals
      simp [onEvent, hf] at hf'
      simp [onEvent, hf', Reply.derived]

theorem onEvent_filters_of_ne {i : ID} (h : i ≠ id) (t : Task) (ev : ResultEvent) :
    (onEvent E s i t ev).1.filters id = s.filters id := by
  unfold onEvent
  split
  · simp [appendHashes, Function.update_noteq (Ne.symm h)]
  · simp [appendHashes, Function.update_noteq (Ne.symm h)]
  · split
    · split <;> simp [appendLogs, Function.update_noteq (Ne.symm h)]
    · simp

theorem takeChanges_pending (lim : RateLimits) (f : Filter) {f' : Filter}
    (hf' : (takeChanges s id f).1.filters id = some f') :
    drainedBy id (.getFilterChanges lim id, .changes (takeChanges s id f).2) ++ f'.pending =
      f.pending := by
  unfold takeChanges at hf' ⊢
  split at hf' <;> simp only [Function.update_same, Option.some.injEq] at hf' <;> subst hf' <;>
    simp_all [Filter.pending, drainedBy, Reply.drained, Changes.items]

theorem getFilterChanges_drainStep {lim : RateLimits} {i : ID} {u : State}
    {res : Except String Changes} (h : getFilterChanges s lim i = some (u, res)) {f' : Filter}
    (hf' : u.filters id = some f') :
    DrainStep E s (.getFilterChanges lim i, .changes res) id f' := by
  rcases getFilterChanges_eq_some h with ⟨rfl, e, rfl⟩ | ⟨f, t, hf, -, h⟩
  · refine (Keeps.refl _).drainStep ⟨by rfl, ?_⟩ hf'
    simp [drainedBy, Reply.drained]
  · by_cases hi : i = id
    · subst hi
      obtain ⟨rfl, rfl⟩ := Prod.mk.inj h.symm
      exact .inr ⟨f, hf, by simpa [derivedBy] using takeChanges_pending lim _ hf'⟩
    · obtain ⟨g', rfl, -⟩ := takeChanges_fst h
      refine (Keeps.refl s).drainStep ⟨by rfl, ?_⟩
        (by simpa [Function.update_noteq (Ne.symm hi)] using hf')
      simp [drainedBy, hi]

theorem takeChanges_ok {f : Filter} {c : Changes} (h : takeChanges s id f = (s', .ok c)) :
    c.items = f.pending ∧ ∃ f', s'.filters id = some f' ∧ f'.pending = [] := by
  unfold takeChanges at h
  split at h <;> cases h <;> simp_all [Filter.pending, Changes.items]

theorem getFilterChanges_ok {lim : RateLimits} {c : Changes}
    (h : getFilterChanges s lim id = some (s', .ok c)) :
    ∃ f, s.filters id = some f ∧ c.items = f.pending ∧
      ∃ f', s'.filters id = some f' ∧ f'.pending = [] := by
  rcases getFilterChanges_eq_some h with ⟨-, e, he⟩ | ⟨f, t, hf, -, h⟩
  · cases he
  · have := takeChanges_ok h
    exact ⟨f, hf, this⟩

theorem step_drainStep (g : Good E s) {a : Action} {r : Reply} (h : step E s a = some (s', r))
    {f' : Filter} (hf' : s'.filters id = some f') : DrainStep E s (a, r) id f' := by
  cases step_spec h with
  | newPendingTransactionFilter lim sub =>
    rcases newPendingTransactionFilter_fst E s lim sub with he | he <;> rw [he] at hf'
    · exact drainStep_register ⟨by rfl, by rfl⟩ hf'
    · exact (Keeps.refl s).drainStep ⟨by rfl, by rfl⟩ hf'
  | newBlockFilter lim sub =>
    rcases newBlockFilter_fst E s lim sub with he | he <;> rw [he] at hf'
    · exact drainStep_register ⟨by rfl, by rfl⟩ hf'
    · exact (Keeps.refl s).drainStep ⟨by rfl, by rfl⟩ hf'
  | newFilter lim c sub =>
    rcases newFilter_fst E s lim c sub with he | he <;> rw [he] at hf'
    · exact drainStep_register ⟨by rfl, by rfl⟩ hf'
    · exact (Keeps.refl s).drainStep ⟨by rfl, by rfl⟩ hf'
  | newFilterReturn _ | advance _ => exact (Keeps.refl s).drainStep ⟨by rfl, by rfl⟩ hf'
  | uninstallFilter i => exact keeps_uninstallFilter.drainStep ⟨by rfl, by rfl⟩ hf'
  | getFilterChanges hu => exact getFilterChanges_drainStep hu hf'
  | timeoutLoop => exact keeps_timeoutLoopTick.drainStep ⟨by rfl, by rfl⟩ hf'
  | expire hu =>
    exact (keeps_expire (p := Filter.pending) (fun _ _ => rfl) hu).drainStep
      ⟨by rfl, by rfl⟩ hf'
  | @event i t ht ev =>
    by_cases hi : i = id
    · subst hi
      obtain ⟨f, hf, -⟩ := keeps_deadline_onEvent t ev i f' hf'
      obtain ⟨-, -, -, k, hk, htyp⟩ := g.registered i f hf
      rw [(runningTask_eq_some.mp ht).1, Option.some.injEq] at hk
      subst hk
      exact .inr ⟨f, hf, by simp [drainedBy, derivedBy, onEvent_pending htyp hf ev hf']⟩
    · refine (Keeps.refl s).drainStep ⟨?_, by rfl⟩ (by rwa [onEvent_filters_of_ne hi] at hf')
      simp [derivedBy, hi]
  | error _ => exact (keeps_onError _).drainStep ⟨by rfl, by rfl⟩ hf'

theorem step_quiet (g : Good E s) {a : Action} {r : Reply} (h : step E s a = some (s', r))
    (hi : ¬ Issued E s id) : derivedBy id (a, r) = [] ∧ drainedBy id (a, r) = [] := by
  cases step_spec h with
  | event ht ev =>
    refine ⟨?_, rfl⟩
    simp only [derivedBy]
    split_ifs with hid
    · exact absurd (hid ▸ g.issued_of_task (runningTask_eq_some.mp ht).1) hi
    · rfl
  | getFilterChanges hu =>
    refine ⟨rfl, ?_⟩
    simp only [drainedBy]
    split_ifs with hid
    · subst hid
      rw [getFilterChanges_of_none (g.fresh _ hi).1, Option.some.injEq] at hu
      cases hu; rfl
    · rfl
  | _ => exact ⟨rfl, rfl⟩

/-! ### Whole runs -/

theorem Steps.quiet {s₀ : State} {tr : List (Action × Reply)} (h : Steps E s₀ tr s)
    (g : Good E s₀) (hi : ¬ Issued E s id) : derived id tr = [] ∧ drained id tr = [] := by
  induction h with
  | refl => exact ⟨rfl, rfl⟩
  | tail h0 hs ih =>
    have hi0 := fun h' => hi (Issued.mono h' (step_frame hs).nextSub_le)
    obtain ⟨h1, h2⟩ := ih hi0
    obtain ⟨h3, h4⟩ := step_quiet (h0.good g) hs hi0
    simp [h1, h2, h3, h4]

/-- How filter `id`'s items after run `tr` from `s₀` arise, as `DrainStep` says for one step. -/
def DrainRun (E : Env) (s₀ : State) (tr : List (Action × Reply)) (id : ID) (f : Filter) : Prop :=
  (¬ Issued E s₀ id ∧ drained id tr ++ f.pending = derived id tr) ∨
    ∃ f₀, s₀.filters id = some f₀ ∧
      drained id tr ++ f.pending = f₀.pending ++ derived id tr

theorem drained_snoc {tr : List (Action × Reply)} {p : Action × Reply} {f₁ f : Filter}
    (l₀ : List Item) (hl : drained id tr ++ f₁.pending = l₀ ++ derived id tr)
    (he : drainedBy id p ++ f.pending = f₁.pending ++ derivedBy id p) :
    drained id (tr ++ [p]) ++ f.pending = l₀ ++ derived id (tr ++ [p]) :=
  calc drained id (tr ++ [p]) ++ f.pending
      = drained id tr ++ (drainedBy id p ++ f.pending) := by simp
    _ = (drained id tr ++ f₁.pending) ++ derivedBy id p := by rw [he, List.append_assoc]
    _ = l₀ ++ derived id (tr ++ [p]) := by rw [hl]; simp

theorem Steps.drainRun {s₀ : State} {tr : List (Action × Reply)} (h : Steps E s₀ tr s)
    (g : Good E s₀) {f : Filter} (hf : s.filters id = some f) : DrainRun E s₀ tr id f := by
  induction h generalizing f with
  | refl => exact .inr ⟨f, hf, by simp⟩
  | tail h0 hs ih =>
    rcases step_drainStep (h0.good g) hs hf with ⟨hi, hp⟩ | ⟨f₁, hf₁, he⟩
    · have hi0 := fun h' => hi (Issued.mono h' h0.frame.1)
      obtain ⟨h1, h2⟩ := h0.quiet g hi
      obtain ⟨h3, h4⟩ := step_quiet (h0.good g) hs hi
      exact .inl ⟨hi0, by simp [h1, h2, h3, h4, hp]⟩
    · rcases ih hf₁ with ⟨hi, hl⟩ | ⟨f₀, hf₀, hl⟩
      · exact .inl ⟨hi, drained_snoc [] hl he⟩
      · exact .inr ⟨f₀, hf₀, drained_snoc _ hl he⟩

/-- While `id` is registered, the items its successful polls returned followed by its
accumulated items are the items its task derived, in order; an admitted poll of it succeeds. -/
theorem getFilterChanges_drains_exactly :
    (∀ {s s' : State} {id : ID} {ev : ResultEvent} {r : Reply},
      step E s (.event id ev) = some (s', r) →
        ∃ t, s.runningTask id = some t ∧
          derivedBy id (.event id ev, r) = eventItems E t.kind ev) ∧
    (∀ {tr : List (Action × Reply)} {s : State} {id : ID} {f : Filter},
      Steps E State.init tr s → s.filters id = some f →
        drained id tr ++ f.pending = derived id tr) ∧
    (∀ {tr : List (Action × Reply)} {s : State} {id : ID} {f : Filter} {lim : RateLimits},
      Steps E State.init tr s → s.filters id = some f → lim "eth_getFilterChanges" = true →
        ∃ s' c, getFilterChanges s lim id = some (s', .ok c) ∧ c.items = f.pending) ∧
    (∀ {tr₁ tr₂ : List (Action × Reply)} {s₁ s₁' s₂ s₃ : State} {id : ID}
      {lim lim' : RateLimits} {c₁ c₂ : Changes}, Steps E State.init tr₁ s₁ →
        getFilterChanges s₁ lim id = some (s₁', .ok c₁) → Steps E s₁' tr₂ s₂ →
        getFilterChanges s₂ lim' id = some (s₃, .ok c₂) →
      drained id tr₂ ++ c₂.items = derived id tr₂ ∧
        (derived id tr₂ = [] → c₂.items = [])) := by
  refine ⟨derivedBy_event, fun h hf => ?_, fun h hf hlim => ?_,
    @fun tr₁ tr₂ s₁ s₁' s₂ s₃ id lim lim' c₁ c₂ h₁ hc₁ h₂ hc₂ => ?_⟩
  · rcases h.drainRun good_init hf with ⟨-, he⟩ | ⟨f₀, hf₀, -⟩
    · exact he
    · simp [State.init] at hf₀
  · obtain ⟨s', hc⟩ := Reachable.getFilterChanges_registered ⟨_, h⟩ hf hlim
    obtain ⟨f₀, hf₀, hi, -⟩ := getFilterChanges_ok hc
    rw [hf, Option.some.injEq] at hf₀
    exact ⟨s', _, hc, hf₀ ▸ hi⟩
  · have g₁ := Reachable.good ⟨_, h₁⟩
    obtain ⟨-, -, -, f₁, hf₁, hp₁⟩ := getFilterChanges_ok hc₁
    have g₁' := g₁.getFilterChanges hc₁
    obtain ⟨f₂, hf₂, hi₂, -⟩ := getFilterChanges_ok hc₂
    have he : drained id tr₂ ++ c₂.items = derived id tr₂ := by
      rcases h₂.drainRun g₁' hf₂ with ⟨hi, -⟩ | ⟨f₀, hf₀, he⟩
      · exact absurd (g₁'.issued_of_filter hf₁) hi
      · rw [hf₁, Option.some.injEq] at hf₀
        subst hf₀
        rw [hi₂, he, hp₁, List.nil_append]
    exact ⟨he, fun hd => (List.append_eq_nil.mp (he.trans hd)).2⟩

/-- A block filter that received the headers of heights 7 and 8 and was polled in between: the
poll returned hash 7, the filter holds hash 8, and the next admitted poll returns it. -/
theorem blockFilter_drains_in_order :
    ∃ tr s, Steps Env.sample State.init tr s ∧ drained "0x" tr = [.hash 7] ∧
      derived "0x" tr = [.hash 7, .hash 8] ∧
      drained "0x" tr ++ [.hash 8] = derived "0x" tr ∧
      ∃ s' c, getFilterChanges s (fun _ => true) "0x" = some (s', .ok c) ∧
        c.items = [.hash 8] := by
  obtain ⟨s, h, hf⟩ : ∃ s, Steps Env.sample State.init
      [(.newBlockFilter (fun _ => true) none, .id "0x"),
        (.event "0x" ⟨.newBlockHeader { height := 7 }, []⟩, .items "0x" (.hashes [7])),
        (.getFilterChanges (fun _ => true) "0x", .changes (.ok (.hashes [7]))),
        (.event "0x" ⟨.newBlockHeader { height := 8 }, []⟩, .items "0x" (.hashes [8]))] s ∧
      s.filters "0x" = some ⟨.blocksSubscription, ⟨true, false, deadline⟩, [8], {}, []⟩ :=
    ⟨_, Steps.of_run Env.sample State.init
      [.newBlockFilter (fun _ => true) none, .event "0x" ⟨.newBlockHeader { height := 7 }, []⟩,
        .getFilterChanges (fun _ => true) "0x",
        .event "0x" ⟨.newBlockHeader { height := 8 }, []⟩] rfl, by decide⟩
  have hp : ∃ s' c, getFilterChanges s (fun _ => true) "0x" = some (s', .ok c) ∧
      c.items = [.hash 8] := getFilterChanges_drains_exactly.2.2.1 h hf rfl
  exact ⟨_, s, h, by decide, by decide, getFilterChanges_drains_exactly.2.1 h hf, hp⟩

end Faxchain.Filters
