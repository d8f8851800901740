import Faxchain.Filters.Invariant
import Mathlib.Data.List.Rotate

/-!
# Operations on distinct filters commute (api.go)

Every critical section that names a filter id (`UninstallFilter`, `GetFilterChanges`, the
`return filterID, err` of `NewFilter`, the runtime firing a deadline timer, a listening task's
pass) touches only that id's registry entry, task and `Unsubscribe` count, and of the
`NewFilter` calls still to return only its own (`step_target_frame`); what it does there
depends on nothing else than these and the clock (`step_target_local`). So two such steps on
distinct ids commute: in either order both take place or neither does, with the same replies
and the same final state (`step_comm`), and an operation on one filter moves past any run of
operations on other filters (`run_move_past`). The registry's answers depend on each filter's
own order of operations only, not on how the goroutines serving different filters interleave
under `filtersMu`.

The rate limiters are state shared by all filters: each call asks the limiter of its method,
whose `Allow()` answers from its state and moves it on (`limitedRun`). An operation on one
filter still moves past operations on other filters that ask other limiters
(`limitedRun_move_past`).
-/

namespace Faxchain.Filters

variable {E : Env} {s t s' : State}

/-- The filter id an operation works on: the calls that take an id, the runtime firing an id's
timer, and a listening task's passes. The constructors, the sweeper and the clock have none. -/
def Action.target : Action → Option ID
  | .newFilterReturn id | .uninstallFilter id | .getFilterChanges _ id | .expire id
  | .event id _ | .error id => some id
  | _ => none

/-- What an operation on one filter does to the `NewFilter` calls still to return: its
`return filterID, err` removes its own id, the other operations leave them. -/
def Action.awaitingAfter : Action → List ID → List ID
  | .newFilterReturn id, l => l.erase id
  | _, l => l

theorem Action.awaitingAfter_comm (a b : Action) (l : List ID) :
    a.awaitingAfter (b.awaitingAfter l) = b.awaitingAfter (a.awaitingAfter l) := by
  cases a <;> cases b <;> simp only [awaitingAfter, List.erase_comm]

/-- The registry entry, task and `Unsubscribe` count of `id`. -/
def State.slot (s : State) (id : ID) : Option Filter × Option Task × ℕ :=
  (s.filters id, s.tasks id, s.unsubs id)

theorem State.eq_of_slot (h : ∀ k, s.slot k = t.slot k) (ha : s.awaiting = t.awaiting)
    (hn : s.nextSub = t.nextSub) (hnow : s.now = t.now) : s = t := by
  obtain ⟨f, ts, a, n, u, c⟩ := s
  obtain ⟨f', ts', a', n', u', c'⟩ := t
  simp only [State.slot, Prod.mk.injEq] at h
  simp only [State.mk.injEq]
  exact ⟨funext fun k => (h k).1, funext fun k => (h k).2.1, ha, hn,
    funext fun k => (h k).2.2, hnow⟩

/-- `s` and `t` agree on what an operation on `i` reads: `i`'s slot, whether `i`'s `NewFilter`
call is still to return, and the clock. -/
structure AgreeAt (i : ID) (s t : State) : Prop where
  slot : s.slot i = t.slot i
  awaiting : i ∈ s.awaiting ↔ i ∈ t.awaiting
  now : s.now = t.now

theorem AgreeAt.symm {i : ID} (h : AgreeAt i s t) : AgreeAt i t s :=
  ⟨h.slot.symm, h.awaiting.symm, h.now.symm⟩

theorem AgreeAt.filters {i : ID} (h : AgreeAt i s t) : s.filters i = t.filters i :=
  congrArg Prod.fst h.slot

theorem AgreeAt.tasks {i : ID} (h : AgreeAt i s t) : s.tasks i = t.tasks i :=
  congrArg (fun p => p.2.1) h.slot

theorem AgreeAt.unsubs {i : ID} (h : AgreeAt i s t) : s.unsubs i = t.unsubs i :=
  congrArg (fun p => p.2.2) h.slot

/-- What a step leaves at `i`, with its reply. -/
def atId (i : ID) (p : State × Reply) : (Option Filter × Option Task × ℕ) × Reply :=
  (p.1.slot i, p.2)

/-! ### Each operation on a filter is local to it -/

section Local

variable {i : ID}

theorem onEvent_local (h : AgreeAt i s t) (tk : Task) (ev : ResultEvent) :
    atId i (onEvent E s i tk ev) = atId i (onEvent E t i tk ev) := by
  unfold onEvent
  split <;> (try split) <;> (try split) <;>
    simp [atId, State.slot, appendHashes, appendLogs, setTask, h.filters, h.tasks, h.unsubs]

theorem onError_local (h : AgreeAt i s t) (tk : Task) :
    (onError s i tk).slot i = (onError t i tk).slot i := by
  unfold onError
  split <;> simp [State.slot, setTask, h.filters, h.tasks, h.unsubs]

theorem takeChanges_local (h : AgreeAt i s t) (f : Filter) :
    atId i ((takeChanges s i f).1, .changes (takeChanges s i f).2) =
      atId i ((takeChanges t i f).1, .changes (takeChanges t i f).2) := by
  unfold takeChanges
  split <;> simp [atId, State.slot, h.filters, h.tasks, h.unsubs]

theorem step_target_local {a : Action} (ha : a.target = some i) (h : AgreeAt i s t) :
    (step E s a).map (atId i) = (step E t a).map (atId i) := by
  have hs := h.slot
  simp only [State.slot, Prod.mk.injEq] at hs
  cases a with
  | newFilterReturn j =>
    cases ha
    simp only [step, newFilterReturn, h.awaiting]
    split <;> simp [atId, State.slot, hs]
  | uninstallFilter j =>
    cases ha
    simp only [step, uninstallFilter, Option.map_some', hs.1]
    split <;> simp [atId, State.slot, hs]
  | getFilterChanges lim j =>
    cases ha
    simp only [step, getFilterChanges, hs.1, h.now]
    split
    · split
      · simp [atId, State.slot, hs]
      · simp only [Option.map_map]
        exact congrArg₂ Option.map (funext fun _ => takeChanges_local h _) rfl
    · simp [atId, State.slot, hs]
  | expire j =>
    cases ha
    simp only [step, expire, hs.1]
    split
    · split <;> simp [atId, State.slot, hs]
    · rfl
  | event j ev =>
    cases ha
    simp only [step, State.runningTask, hs.2.1, Option.map_map]
    exact congrArg₂ Option.map (funext fun tk => onEvent_local h tk ev) rfl
  | error j =>
    cases ha
    simp only [step, State.runningTask, hs.2.1, Option.map_map]
    exact congrArg₂ Option.map (funext fun tk => by simp [atId, onError_local h tk]) rfl
  | _ => cases ha

theorem onEvent_slot_of_ne {k : ID} (hk : k ≠ i) (tk : Task) (ev : ResultEvent) :
    (onEvent E s i tk ev).1.slot k = s.slot k := by
  unfold onEvent
  split <;> (try split) <;> (try split) <;>
    simp [State.slot, appendHashes, appendLogs, setTask, Function.update_noteq hk]

theorem onError_slot_of_ne {k : ID} (hk : k ≠ i) (tk : Task) :
    (onError s i tk).slot k = s.slot k := by
  unfold onError
  split <;> simp [State.slot, setTask, Function.update_noteq hk]

theorem step_target_frame {a : Action} (ha : a.target = some i) {r : Reply}
    (h : step E s a = some (s', r)) :
    (∀ k, k ≠ i → s'.slot k = s.slot k) ∧ s'.now = s.now ∧ s'.nextSub = s.nextSub ∧
      s'.awaiting = a.awaitingAfter s.awaiting := by
  cases step_spec h with
  | newFilterReturn _ => cases ha; exact ⟨fun _ _ => rfl, rfl, rfl, rfl⟩
  | uninstallFilter j =>
    cases ha
    unfold uninstallFilter
    split
    · exact ⟨fun _ _ => rfl, rfl, rfl, rfl⟩
    · exact ⟨fun k hk => by simp [State.slot, Function.update_noteq hk], rfl, rfl, rfl⟩
  | getFilterChanges hu =>
    cases ha
    rcases getFilterChanges_eq_some hu with ⟨rfl, -⟩ | ⟨f, t, -, -, hu⟩
    · exact ⟨fun _ _ => rfl, rfl, rfl, rfl⟩
    · obtain ⟨f', rfl, -⟩ := takeChanges_fst hu
      exact ⟨fun k hk => by simp [State.slot, Function.update_noteq hk], rfl, rfl, rfl⟩
  | expire hu =>
    cases ha
    obtain ⟨f, -, -, rfl⟩ := expire_eq_some hu
    exact ⟨fun k hk => by simp [State.slot, Function.update_noteq hk], rfl, rfl, rfl⟩
  | @event j tk _ ev =>
    cases ha
    obtain ⟨fs, ts, he⟩ := onEvent_fst E s i tk ev
    exact ⟨fun k hk => onEvent_slot_of_ne hk tk ev, by simp [he], by simp [he],
      by simp [he, Action.awaitingAfter]⟩
  | @error j tk _ =>
    cases ha
    obtain ⟨fs, ts, he⟩ := onError_fst s i tk
    exact ⟨fun k hk => onError_slot_of_ne hk tk, by simp [he], by simp [he],
      by simp [he, Action.awaitingAfter]⟩
  | _ => cases ha

theorem step_agreeAt {a : Action} (ha : a.target = some i) {r : Reply}
    (h : step E s a = some (s', r)) {k : ID} (hk : k ≠ i) : AgreeAt k s' s := by
  obtain ⟨hs, hn, -, haw⟩ := step_target_frame ha h
  refine ⟨hs k hk, ?_, hn⟩
  rw [haw]
  cases a <;> simp only [Action.awaitingAfter]
  cases ha
  exact List.mem_erase_of_ne hk

theorem step_transport {a : Action} (ha : a.target = some i) (hag : AgreeAt i s t) {r : Reply}
    (h : step E s a = some (s', r)) : ∃ t', step E t a = some (t', r) ∧ t'.slot i = s'.slot i := by
  have := step_target_local (E := E) ha hag.symm
  rw [h, Option.map_some'] at this
  obtain ⟨⟨t', r'⟩, ht, he⟩ := Option.map_eq_some'.mp this
  simp only [atId, Prod.mk.injEq] at he
  obtain ⟨hs, rfl⟩ := he
  exact ⟨t', ht, hs⟩

theorem step_none_transport {a : Action} (ha : a.target = some i) (hag : AgreeAt i s t)
    (h : step E s a = none) : step E t a = none := by
  have := step_target_local (E := E) ha hag
  rwa [h, Option.map_none', eq_comm, Option.map_eq_none'] at this

end Local

/-- Two operations on distinct filters commute. -/
theorem step_comm {a b : Action} {i j : ID} (ha : a.target = some i) (hb : b.target = some j)
    (hij : i ≠ j) :
    (step E s a).bind (fun p => (step E p.1 b).map fun q => (q.1, p.2, q.2)) =
      (step E s b).bind (fun p => (step E p.1 a).map fun q => (q.1, q.2, p.2)) := by
  rcases h₁ : step E s a with _ | ⟨s₁, ra⟩
  · rcases h₂ : step E s b with _ | ⟨s₂, rb⟩
    · rfl
    · simp [step_none_transport ha (step_agreeAt hb h₂ hij).symm h₁]
  · rcases h₁₂ : step E s₁ b with _ | ⟨s₁₂, rb⟩
    · simp [h₁₂, step_none_transport hb (step_agreeAt ha h₁ hij.symm) h₁₂]
    · obtain ⟨s₂, h₂, hs₂⟩ := step_transport hb (step_agreeAt ha h₁ hij.symm) h₁₂
      obtain ⟨s₂₁, h₂₁, hs₂₁⟩ := step_transport ha (step_agreeAt hb h₂ hij).symm h₁
      simp only [Option.some_bind, Option.map_some', h₁₂, h₂, h₂₁, Option.some.injEq,
        Prod.mk.injEq, and_true]
      obtain ⟨f₁, n₁, c₁, w₁⟩ := step_target_frame ha h₁
      obtain ⟨f₁₂, n₁₂, c₁₂, w₁₂⟩ := step_target_frame hb h₁₂
      obtain ⟨f₂, n₂, c₂, w₂⟩ := step_target_frame hb h₂
      obtain ⟨f₂₁, n₂₁, c₂₁, w₂₁⟩ := step_target_frame ha h₂₁
      refine State.eq_of_slot (fun k => ?_) (by rw [w₁₂, w₁, w₂₁, w₂, Action.awaitingAfter_comm])
        (by rw [c₁₂, c₁, c₂₁, c₂]) (by rw [n₁₂, n₁, n₂₁, n₂])
      by_cases hki : k = i
      · subst hki; rw [f₁₂ k hij, hs₂₁]
      · by_cases hkj : k = j
        · subst hkj; rw [f₂₁ k (Ne.symm hij), hs₂]
        · rw [f₁₂ k hkj, f₁ k hki, f₂₁ k hki, f₂ k hkj]

theorem step_swap {a b : Action} {i j : ID} (ha : a.target = some i) (hb : b.target = some j)
    (hij : i ≠ j) {s₁ s₁₂ : State} {ra rb : Reply} (h₁ : step E s a = some (s₁, ra))
    (h₁₂ : step E s₁ b = some (s₁₂, rb)) :
    ∃ s₂, step E s b = some (s₂, rb) ∧ step E s₂ a = some (s₁₂, ra) := by
  have := step_comm (E := E) (s := s) ha hb hij
  simp only [h₁, h₁₂, Option.some_bind, Option.map_some'] at this
  obtain ⟨⟨s₂, rb'⟩, h₂, he⟩ := Option.bind_eq_some.mp this.symm
  obtain ⟨⟨s₂₁, ra'⟩, h₂₁, he'⟩ := Option.map_eq_some'.mp he
  simp only [Prod.mk.injEq] at he'
  obtain ⟨rfl, rfl, rfl⟩ := he'
  exact ⟨s₂, h₂, h₂₁⟩

/-- An operation on filter `j` moves past a run of operations on other filters. -/
theorem run_move_past {b : Action} {j : ID} (hb : b.target = some j) {as : List Action}
    (has : ∀ a ∈ as, ∃ i, a.target = some i ∧ i ≠ j) (s : State) :
    (run E s (b :: as)).map (fun p => (p.1, p.2.rotate 1)) = run E s (as ++ [b]) := by
  induction as generalizing s with
  | nil => cases h : step E s b <;> simp [run, h]
  | cons a as ih =>
    obtain ⟨i, ha, hij⟩ := has a (List.mem_cons_self a as)
    have ih := ih (fun a' h' => has a' (List.mem_cons_of_mem a h'))
    rcases h₁ : step E s a with _ | ⟨s₁, ra⟩
    · rcases h₂ : step E s b with _ | ⟨s₂, rb⟩
      · simp [run, h₁, h₂]
      · simp [run, h₁, h₂, step_none_transport ha (step_agreeAt hb h₂ hij).symm h₁]
    · rcases h₁₂ : step E s₁ b with _ | ⟨s₁₂, rb⟩
      · simp [run, h₁, step_none_transport hb (step_agreeAt ha h₁ hij.symm) h₁₂, ← ih s₁, h₁₂]
      · obtain ⟨s₂, h₂, h₂₁⟩ := step_swap ha hb hij h₁ h₁₂
        simp [run, h₁, h₂, h₂₁, ← ih s₁, h₁₂, Option.map_map, Function.comp_def,
          List.rotate_cons_succ]

/-! ### The rate limiters as shared state -/

/-- The limiter an action asks, `api.backend.GetRateLimiter(name)` (api.go:117, 209, 373, 533). -/
def Action.method : Action → Option String
  | .newPendingTransactionFilter _ _ => some "eth_newPendingTransactionFilter"
  | .newBlockFilter _ _ => some "eth_newBlockFilter"
  | .newFilter _ _ _ => some "eth_newFilter"
  | .getFilterChanges _ _ => some "eth_getFilterChanges"
  | _ => none

/-- The action with the limiters' answers `lim`. -/
def Action.withLimits (lim : RateLimits) : Action → Action
  | .newPendingTransactionFilter _ sub => .newPendingTransactionFilter lim sub
  | .newBlockFilter _ sub => .newBlockFilter lim sub
  | .newFilter _ c sub => .newFilter lim c sub
  | .getFilterChanges _ id => .getFilterChanges lim id
  | a => a

theorem Action.target_withLimits (lim : RateLimits) (a : Action) :
    (a.withLimits lim).target = a.target := by
  cases a <;> rfl

section Limiters

/- A limiter's state and its `Allow()` at a time: the answer and the next state. A limiter the
backend does not configure (`nil`) is one that always allows. -/
variable {L : Type} (allow : L → ℕ → Bool × L)

/-- An action as the limiters answer it at time `now`: the limiter of its method answers from its
state, which moves on. -/
def resolve (β : String → L) (now : ℕ) (a : Action) : Action × (String → L) :=
  match a.method with
  | none => (a, β)
  | some m => (a.withLimits fun _ => (allow (β m) now).1, Function.update β m (allow (β m) now).2)

/-- One step with the limiters' states. -/
def limitedStep (E : Env) (p : State × (String → L)) (a : Action) :
    Option ((State × (String → L)) × Reply) :=
  let q := resolve allow p.2 p.1.now a
  (step E p.1 q.1).map fun r => ((r.1, q.2), r.2)

/-- The steps `as` in order with the limiters' states. -/
def limitedRun (E : Env) :
    State × (String → L) → List Action → Option ((State × (String → L)) × List Reply)
  | p, [] => some (p, [])
  | p, a :: as => (limitedStep allow E p a).bind fun q =>
    (limitedRun E q.1 as).map fun r => (r.1, q.2 :: r.2)

/-- The actions `as` resolved one after the other at time `now`. -/
def resolveAll (β : String → L) (now : ℕ) : List Action → List Action × (String → L)
  | [] => ([], β)
  | a :: as =>
    let q := resolve allow β now a
    let r := resolveAll q.2 now as
    (q.1 :: r.1, r.2)

theorem resolve_target (β : String → L) (now : ℕ) (a : Action) :
    (resolve allow β now a).1.target = a.target := by
  unfold resolve
  split <;> simp [Action.target_withLimits]

theorem resolveAll_targets (β : String → L) (now : ℕ) (as : List Action) :
    (resolveAll allow β now as).1.map Action.target = as.map Action.target := by
  induction as generalizing β with
  | nil => rfl
  | cons a as ih => simp [resolveAll, resolve_target, ih]

theorem resolve_indep {a b : Action} (hab : ∀ m, a.method = some m → b.method ≠ some m)
    (β : String → L) (now : ℕ) :
    (resolve allow (resolve allow β now a).2 now b).1 = (resolve allow β now b).1 ∧
      (resolve allow (resolve allow β now a).2 now b).2 =
        (resolve allow (resolve allow β now b).2 now a).2 := by
  unfold resolve
  cases ha : a.method with
  | none => cases b.method <;> simp
  | some m =>
    cases hb : b.method with
    | none => simp
    | some m' =>
      have hm : m' ≠ m := fun e => hab m ha (e ▸ hb)
      simp [Function.update_noteq hm, Function.update_noteq (Ne.symm hm), Function.update_comm hm]

/-- Steps on filters take place at one time, so their limiters answer as if asked in advance. -/
theorem limitedRun_eq (E : Env) {as : List Action} (has : ∀ a ∈ as, a.target ≠ none)
    (s : State) (β : String → L) :
    limitedRun allow E (s, β) as =
      (run E s (resolveAll allow β s.now as).1).map
        fun q => ((q.1, (resolveAll allow β s.now as).2), q.2) := by
  induction as generalizing s β with
  | nil => rfl
  | cons a as ih =>
    obtain ⟨i, hi⟩ := Option.ne_none_iff_exists'.mp (has a (List.mem_cons_self a as))
    simp only [limitedRun, limitedStep, resolveAll, run]
    rcases h : step E s (resolve allow β s.now a).1 with _ | ⟨s₁, r⟩
    · simp
    · have hn := (step_target_frame ((resolve_target allow β s.now a).trans hi) h).2.1
      simp [ih fun a' h' => has a' (List.mem_cons_of_mem a h'), hn, Option.map_map,
        Function.comp_def]

theorem resolveAll_move_past {b : Action} {as : List Action}
    (hm : ∀ a ∈ as, ∀ m, a.method = some m → b.method ≠ some m) (β : String → L) (now : ℕ) :
    resolveAll allow β now (as ++ [b]) =
      ((resolveAll allow (resolve allow β now b).2 now as).1 ++ [(resolve allow β now b).1],
        (resolveAll allow β now (b :: as)).2) := by
  induction as generalizing β with
  | nil => rfl
  | cons a as ih =>
    have hab := hm a (List.mem_cons_self a as)
    obtain ⟨h1, h2⟩ := resolve_indep allow hab β now
    have h3 := (resolve_indep allow (fun m hb ha => hab m ha hb) β now).1
    have ih := ih (fun a' h' => hm a' (List.mem_cons_of_mem a h')) (resolve allow β now a).2
    rw [List.cons_append]
    simp only [resolveAll] at ih ⊢
    rw [ih, h1, h2, h3]
    rfl

/-- An operation on filter `j` moves past operations on other filters that do not ask its
limiter. -/
theorem limitedRun_move_past {b : Action} {j : ID} (hb : b.target = some j) {as : List Action}
    (has : ∀ a ∈ as, ∃ i, a.target = some i ∧ i ≠ j)
    (hm : ∀ a ∈ as, ∀ m, a.method = some m → b.method ≠ some m) (s : State) (β : String → L) :
    (limitedRun allow E (s, β) (b :: as)).map (fun p => (p.1, p.2.rotate 1)) =
      limitedRun allow E (s, β) (as ++ [b]) := by
  have ht : ∀ a ∈ b :: as, a.target ≠ none := List.forall_mem_cons.mpr
    ⟨by simp [hb], fun a h => (has a h).elim fun i hi => by simp [hi.1]⟩
  have hr : ∀ a ∈ (resolveAll allow (resolve allow β s.now b).2 s.now as).1,
      ∃ i, a.target = some i ∧ i ≠ j := fun a h => by
    obtain ⟨a₀, h₀, he⟩ := List.mem_map.mp
      (resolveAll_targets allow _ s.now as ▸ List.mem_map_of_mem Action.target h)
    exact he ▸ has a₀ h₀
  rw [limitedRun_eq allow E ht,
    limitedRun_eq allow E fun a h => ht a ((List.perm_append_singleton b as).mem_iff.mp h),
    resolveAll_move_past allow hm, ← run_move_past ((resolve_target allow β s.now b).trans hb) hr]
  simp [resolveAll, Option.map_map, Function.comp_def]

end Limiters

/-- With one token in every limiter, polling the block filter `"0x"` before an event for and the
uninstall of the pending-transaction filter `"0x0"` is polling it after them. -/
theorem getFilterChanges_moves_past_other_filter :
    (Action.getFilterChanges (fun _ => true) "0x").target = some "0x" ∧
      (∀ a ∈ [Action.event "0x0" ⟨.tx { tx := [1, 2] }, []⟩, .uninstallFilter "0x0"],
        ∃ i, a.target = some i ∧ i ≠ "0x") ∧
      (∀ a ∈ [Action.event "0x0" ⟨.tx { tx := [1, 2] }, []⟩, .uninstallFilter "0x0"],
        ∀ m, a.method = some m → (Action.getFilterChanges (fun _ => true) "0x").method ≠ some m) ∧
      (limitedRun (fun n _ => (decide (0 < n), n - 1)) Env.sample
          (register Env.sample (register Env.sample State.init .blocks) .pendingTransactions,
            fun _ => 1)
          [.getFilterChanges (fun _ => true) "0x", .event "0x0" ⟨.tx { tx := [1, 2] }, []⟩,
            .uninstallFilter "0x0"]).map (fun p => (p.1, p.2.rotate 1)) =
        limitedRun (fun n _ => (decide (0 < n), n - 1)) Env.sample
          (register Env.sample (register Env.sample State.init .blocks) .pendingTransactions,
            fun _ => 1)
          ([.event "0x0" ⟨.tx { tx := [1, 2] }, []⟩, .uninstallFilter "0x0"] ++
            [.getFilterChanges (fun _ => true) "0x"]) :=
  ⟨rfl, by simp [Action.target], by simp [Action.method],
    limitedRun_move_past _ (b := .getFilterChanges (fun _ => true) "0x") rfl
      (by simp [Action.target]) (by simp [Action.method]) _ _⟩

end Faxchain.Filters
