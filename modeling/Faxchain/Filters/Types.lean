import Mathlib.Logic.Function.Basic

/-!
# Values of the Ethereum filter API (app/rpc/namespaces/eth/filters/api.go)

What `PublicFilterAPI` reads and returns: subscription ids (`rpc.ID`), hashes, logs, the filter
criteria (`filters.FilterCriteria`), the filter types of go-ethereum's filter system
(`filters.Type`), the events the consensus event bus delivers (`coretypes.ResultEvent`), and the
collaborators the API consumes through their interfaces only, bundled as `Env`: the event
system's id generator, transaction and header hashing, `evmtypes.DecodeResultData`,
`FilterLogs`, and the message and event type names the tasks read. Time is in nanoseconds, as
`time.Duration` counts it.
-/

namespace Faxchain.Filters

/-- `rpc.ID`. -/
abbrev ID := String
/-- `common.Hash`. -/
abbrev Hash := ℕ
/-- `common.Address`. -/
abbrev Address := ℕ
abbrev Bytes := List UInt8

/-- `ethtypes.Log`, with the fields the log matchers read. -/
structure Log where
  address : Address
  topics : List Hash
  blockNumber : ℕ
  deriving DecidableEq, Repr

/-- `filters.FilterCriteria`; `none` is a nil pointer, the default value is Go's zero value. -/
structure FilterCriteria where
  blockHash : Option Hash := none
  fromBlock : Option ℤ := none
  toBlock : Option ℤ := none
  addresses : List Address := []
  topics : List (List Hash) := []
  deriving DecidableEq, Repr, Inhabited

/-- `filters.Type` of go-ethereum's event system. -/
inductive FilterType
  | unknownSubscription
  | logsSubscription
  | pendingLogsSubscription
  | minedAndPendingLogsSubscription
  | pendingTransactionsSubscription
  | blocksSubscription
  | lastIndexSubscription
  deriving DecidableEq, Repr

/-- The `iota` value of a `filters.Type`, as `%d` prints it. -/
def FilterType.code : FilterType → ℕ
  | .unknownSubscription => 0
  | .logsSubscription => 1
  | .pendingLogsSubscription => 2
  | .minedAndPendingLogsSubscription => 3
  | .pendingTransactionsSubscription => 4
  | .blocksSubscription => 5
  | .lastIndexSubscription => 6

/-- `tmtypes.EventDataTx`: the transaction and its result data (`TxResult.Result.Data`). -/
structure EventDataTx where
  tx : Bytes := []
  data : Bytes := []
  deriving DecidableEq, Repr, Inhabited

/-- `tmtypes.Header`, opaque to the filter API: only `EthHeaderFromTendermint` reads it. -/
structure TmHeader where
  chainID : String := ""
  height : ℤ := 0
  deriving DecidableEq, Repr, Inhabited

/-- The dynamic type of `ResultEvent.Data`; `other` is any other type with its `%T` name
(`"<nil>"` for the zero event that a closed channel yields). -/
inductive EventData
  | tx (d : EventDataTx)
  | newBlockHeader (h : TmHeader)
  | other (typeName : String)
  deriving DecidableEq, Repr

/-- `%T` of a payload. -/
def EventData.typeName : EventData → String
  | .tx _ => "types.EventDataTx"
  | .newBlockHeader _ => "types.EventDataNewBlockHeader"
  | .other n => n

/-- `data, _ := ev.Data.(tmtypes.EventDataTx)`: the zero value when the assertion fails. -/
def EventData.asTx : EventData → EventDataTx
  | .tx d => d
  | _ => {}

/-- `data, _ := ev.Data.(tmtypes.EventDataNewBlockHeader)`, keeping `data.Header`. -/
def EventData.asHeader : EventData → TmHeader
  | .newBlockHeader h => h
  | _ => {}

/-- `coretypes.ResultEvent`: the payload and the keys of its `Events` map. -/
structure ResultEvent where
  data : EventData
  events : List String
  deriving DecidableEq, Repr

/-- The zero `ResultEvent` a receive on a closed channel yields. -/
def ResultEvent.zero : ResultEvent := ⟨.other "<nil>", []⟩

/-- The collaborators of the filter API, consumed through their interfaces. -/
structure Env where
  /-- The id (`rpc.NewID`) of the event system's `n`-th subscription: unique for the
  registry's lifetime. -/
  newID : ℕ → ID
  newID_injective : Function.Injective newID
  /-- `common.BytesToHash(tx.Hash())`. -/
  txHash : Bytes → Hash
  /-- `rpctypes.EthHeaderFromTendermint(h).Hash()`. -/
  headerHash : TmHeader → Hash
  /-- `evmtypes.DecodeResultData`, keeping the result's logs. -/
  decodeResultData : Bytes → Except String (List Log)
  /-- `FilterLogs(logs, fromBlock, toBlock, addresses, topics)`. -/
  filterLogs :
    List Log → Option ℤ → Option ℤ → List Address → List (List Hash) → List Log
  /-- `evmtypes.TypeMsgEthermint`. -/
  typeMsgEthermint : String
  /-- `evmtypes.TypeMsgEthereumTx`. -/
  typeMsgEthereumTx : String
  /-- `tmtypes.EventTx`. -/
  eventTx : String
  /-- `tmtypes.EventNewBlockHeader`. -/
  eventNewBlockHeader : String

/-- `GetRateLimiter(method)` followed by `Allow()`: whether a call of `method` passes, `true`
also when no limiter is configured. -/
abbrev RateLimits := String → Bool

/-- `ErrServerBusy`. -/
def errServerBusy : String := "server is too busy"

/-- `deadline = 5 * time.Minute`, the inactivity window. -/
def deadline : ℕ := 5 * 60 * 1000000000

/-- A concrete environment to run the model on: ids `"0x"`, `"0x0"`, `"0x00"`, …, an empty
result data fails to decode and every other byte decodes to a log from that address. -/
def Env.sample : Env where
  newID n := ⟨'0' :: 'x' :: List.replicate n '0'⟩
  newID_injective a b h := by simpa using congrArg (fun s : String => s.data.length) h
  txHash b := b.length
  headerHash h := h.height.toNat
  decodeResultData d := if d = [] then .error "empty result data"
    else .ok (d.map fun b => ⟨b.toNat, [], 0⟩)
  filterLogs logs _ _ _ _ := logs
  typeMsgEthermint := "ethermint"
  typeMsgEthereumTx := "ethereum"
  eventTx := "Tx"
  eventNewBlockHeader := "NewBlockHeader"

end Faxchain.Filters
