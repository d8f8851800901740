import Faxchain.Filters.Invariant

/-!
# Historical log queries: `GetLogs` and `GetFilterLogs` (api.go:433-463, 487-523)

Both build a `*Filter` from a criteria, a block filter when `BlockHash` is set and otherwise a
range filter whose bounds default to `rpc.LatestBlockNumber`, and run it against the backend's
current state (`Backend`). `GetFilterLogs` takes the criteria from the registry entry, and the
entries `NewFilter` builds leave `crit` zero (`api.go:390`): whatever criteria a log filter was
created with, `GetFilterLogs` runs the zero criteria's query (`getFilterLogs_eq_getLogs_zero`).

`Filter.Logs` and its log matcher live outside src/; `chainLogs` models them from the spec
(§4.5) to run the two queries on a concrete chain.
-/

namespace Faxchain.Filters

/-- The `*Filter` that `NewBlockFilter(backend, crit)` and `NewRangeFilter(backend, begin, end,
addresses, topics)` build. -/
inductive LogFilter
  | block (crit : FilterCriteria)
  | range (begin stop : ℤ) (addresses : List Address) (topics : List (List Hash))
  deriving DecidableEq, Repr

/-- `filter.Logs(ctx)` against the backend's state at the call. -/
abbrev Backend := LogFilter → Except String (List Log)

/-- `rpc.LatestBlockNumber`. -/
def latestBlockNumber : ℤ := -1

/-- The filter both queries build from a criteria (`api.go:439-454`, `501-516`). -/
def buildFilter (crit : FilterCriteria) : LogFilter :=
  match crit.blockHash with
  | some _ => .block crit
  | none => .range (crit.fromBlock.getD latestBlockNumber) (crit.toBlock.getD latestBlockNumber)
      crit.addresses crit.topics

/-- `GetLogs` (`api.go:433-463`); `returnLogs` only turns a nil slice into an empty one. -/
def getLogs (backend : Backend) (lim : RateLimits) (crit : FilterCriteria) :
    Except String (List Log) :=
  if lim "eth_getLogs" then backend (buildFilter crit) else .error errServerBusy

/-- `GetFilterLogs` (`api.go:487-523`). -/
def getFilterLogs (s : State) (backend : Backend) (id : ID) : Except String (List Log) :=
  match s.filters id with
  | none => .error s!"filter {id} not found"
  | some f =>
    if f.typ = .logsSubscription then backend (buildFilter f.crit)
    else
      let code := f.typ.code
      .error s!"filter {id} doesn't have a LogsSubscription type: got {code}"

theorem getFilterLogs_eq_getLogs_zero {s : State} {id : ID} {f : Filter}
    (hf : s.filters id = some f) (ht : f.typ = .logsSubscription) (hc : f.crit = {})
    (backend : Backend) : getFilterLogs s backend id = getLogs backend (fun _ => true) {} := by
  simp [getFilterLogs, getLogs, hf, ht, hc]

theorem Reachable.getFilterLogs_eq {E : Env} {s : State} {id : ID} {f : Filter}
    (hr : Reachable E s) (hf : s.filters id = some f) (ht : f.typ = .logsSubscription)
    (backend : Backend) : getFilterLogs s backend id = getLogs backend (fun _ => true) {} :=
  getFilterLogs_eq_getLogs_zero hf ht (hr.good.registered id f hf).2.1 backend

/-! ### A backend modelled from the spec -/

/-- Modelled from the spec (§4.5, `Filter.Logs` is outside src/): a committed block. -/
structure Block where
  hash : Hash
  logs : List Log
  deriving DecidableEq, Repr

/-- Modelled from the spec (§3, §4.5): `matches(log, addresses, topics)`; an empty list or topic
position is a wildcard, and no position beyond the log's topics matches. -/
def logMatches (addresses : List Address) (topics : List (List Hash)) (l : Log) : Bool :=
  (addresses.isEmpty || addresses.contains l.address) && decide (topics.length ≤ l.topics.length)
    && (topics.zip l.topics).all fun p => p.1.isEmpty || p.1.contains p.2

/-- Modelled from the spec (§4.5): `Filter.Logs` on the chain `blocks`, by block hash or by an
inclusive height range whose negative tags resolve to the current height. -/
def chainLogs (blocks : List Block) : Backend
  | .block crit =>
    match blocks.find? (fun b => some b.hash = crit.blockHash) with
    | some b => .ok (b.logs.filter (logMatches crit.addresses crit.topics))
    | none => .error "unknown block"
  | .range begin stop addresses topics =>
    let latest : ℤ := blocks.length - 1
    let lo := if begin < 0 then latest else begin
    let hi := if stop < 0 then latest else stop
    .ok ((blocks.enum.filter fun p => lo ≤ p.1 ∧ p.1 ≤ hi).flatMap fun p =>
      p.2.logs.filter (logMatches addresses topics))

/-- On a chain whose only log comes from address 3, `GetFilterLogs` of a filter created for address
7 returns that log, where `GetLogs` of the same criteria finds nothing. -/
theorem getFilterLogs_ignores_criteria :
    ∃ s, Steps Env.sample State.init
        [(.newFilter (fun _ => true) { addresses := [7] } none, .none),
          (.newFilterReturn "0x", .newFilter "0x" none)] s ∧
      (s.filters "0x").isSome ∧
      getFilterLogs s (chainLogs [⟨1, [⟨3, [], 0⟩]⟩]) "0x" = .ok [⟨3, [], 0⟩] ∧
      getLogs (chainLogs [⟨1, [⟨3, [], 0⟩]⟩]) (fun _ => true) { addresses := [7] } =
        .ok [] := by
  obtain ⟨s, h, hf⟩ : ∃ s, Steps Env.sample State.init
      [(.newFilter (fun _ => true) { addresses := [7] } none, .none),
        (.newFilterReturn "0x", .newFilter "0x" none)] s ∧
      s.filters "0x" = some ⟨.logsSubscription, ⟨true, false, deadline⟩, [], {}, []⟩ :=
    ⟨_, Steps.of_run Env.sample State.init
      [.newFilter (fun _ => true) { addresses := [7] } none, .newFilterReturn "0x"] rfl, by decide⟩
  exact ⟨s, h, by simp [hf], (Reachable.getFilterLogs_eq ⟨_, h⟩ hf rfl _).trans rfl, rfl⟩

end Faxchain.Filters
