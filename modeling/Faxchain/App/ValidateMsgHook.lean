import Mathlib.Logic.Function.Basic

/-!
# The ante hook `validateMsgHook` (app/app.go:554-589)

`validateMsgHook(orderKeeper)` returns the `ValidateMsgHandler` that the ante handler runs on the
messages of a transaction. The hook tells messages apart by their dynamic type only (`Msg`);
the order checks `order.ValidateMsgNewOrders` and `order.ValidateMsgCancelOrders`, applied to the
hook's context and keeper, are consumed through their results (`OrderChecks`).

In a transaction of two or more messages the hook fails, with `wrongMsgErr`, exactly when one
of the messages, at any position, is an order or EVM message (`validateMsgHook_multi`); a
transaction of one message gets that message's order check, if it has one
(`validateMsgHook_single`).
-/

namespace Faxchain.App

/-- The dynamic type of an `sdk.Msg` as the hook's type switch sees it; `other` is any other
type, with its name. -/
inductive Msg (α β : Type)
  /-- `order.MsgNewOrders`. -/
  | newOrders (m : α)
  /-- `order.MsgCancelOrders`. -/
  | cancelOrders (m : β)
  /-- `evmtypes.MsgEthereumTx`. -/
  | ethereumTx
  /-- `evmtypes.MsgEthermint`. -/
  | ethermint
  | other (typeName : String)
  deriving DecidableEq, Repr

/-- `order.ValidateMsgNewOrders` and `order.ValidateMsgCancelOrders` applied to the hook's
`newCtx` and `orderKeeper`: the error each returns, `none` for nil. -/
structure OrderChecks (α β : Type) where
  validateMsgNewOrders : α → Option String
  validateMsgCancelOrders : β → Option String

variable {α β : Type}

/-- The message of the hook's `sdk.ErrUnknownRequest`. -/
def wrongMsgErr : String :=
  "It is not allowed that a transaction with more than one message contains order or evm message"

/-- One pass of the hook's type switch in a transaction of `n` messages, with `err` as the earlier
passes left it; `.error e` returns `e` at once. -/
def switchMsg (k : OrderChecks α β) (n : ℕ) (err : Option String) :
    Msg α β → Except String (Option String)
  | .newOrders m => if 1 < n then .error wrongMsgErr else .ok (k.validateMsgNewOrders m)
  | .cancelOrders m => if 1 < n then .error wrongMsgErr else .ok (k.validateMsgCancelOrders m)
  | .ethereumTx | .ethermint => if 1 < n then .error wrongMsgErr else .ok err
  | .other _ => .ok err

/-- The hook's loop over the messages left, with `err` as the passes before left it; a non-nil
`err` after a pass is returned. -/
def validateMsgs (k : OrderChecks α β) (n : ℕ) :
    List (Msg α β) → Option String → Option String
  | [], _ => none
  | msg :: msgs, err =>
    match switchMsg k n err msg with
    | .error e => some e
    | .ok (some e) => some e
    | .ok none => validateMsgs k n msgs none

/-- `validateMsgHook(orderKeeper)(newCtx, msgs)`: the error it returns, `none` for nil. -/
def validateMsgHook (k : OrderChecks α β) (msgs : List (Msg α β)) : Option String :=
  validateMsgs k msgs.length msgs none

/-- Whether a message is an order or EVM message. -/
def Msg.isOrderOrEvm : Msg α β → Bool
  | .other _ => false
  | _ => true

theorem validateMsgs_multi (k : OrderChecks α β) {n : ℕ} (hn : 1 < n)
    (msgs : List (Msg α β)) :
    validateMsgs k n msgs none =
      if msgs.any Msg.isOrderOrEvm then some wrongMsgErr else none := by
  induction msgs with
  | nil => rfl
  | cons msg msgs ih =>
    cases msg <;> simp [validateMsgs, switchMsg, hn, Msg.isOrderOrEvm, ih]

/-- In a transaction of two or more messages the hook fails, with `wrongMsgErr`, exactly when some
message is an order or EVM message. -/
theorem validateMsgHook_multi (k : OrderChecks α β) (msgs : List (Msg α β))
    (h : 2 ≤ msgs.length) :
    (validateMsgHook k msgs ≠ none ↔ ∃ m ∈ msgs, m.isOrderOrEvm = true) ∧
      validateMsgHook k msgs = if msgs.any Msg.isOrderOrEvm then some wrongMsgErr else none := by
  have he := validateMsgs_multi k (by omega : 1 < msgs.length) msgs
  refine ⟨?_, he⟩
  rw [validateMsgHook, he, ← List.any_eq_true]
  split <;> simp_all

/-- A transfer followed by an Ethereum transaction is rejected. -/
theorem validateMsgHook_send_then_ethereumTx :
    2 ≤ ([.other "cosmos-sdk/MsgSend", .ethereumTx] : List (Msg Unit Unit)).length ∧
      validateMsgHook (⟨fun _ => none, fun _ => none⟩ : OrderChecks Unit Unit)
        [.other "cosmos-sdk/MsgSend", .ethereumTx] = some wrongMsgErr :=
  ⟨by decide, (validateMsgHook_multi _ _ (by decide)).2.trans (by decide)⟩

theorem validateMsgHook_single (k : OrderChecks α β) (msg : Msg α β) :
    validateMsgHook k [msg] =
      match msg with
      | .newOrders m => k.validateMsgNewOrders m
      | .cancelOrders m => k.validateMsgCancelOrders m
      | _ => none := by
  cases msg with
  | newOrders m =>
    cases h : k.validateMsgNewOrders m <;> simp [validateMsgHook, validateMsgs, switchMsg, h]
  | cancelOrders m =>
    cases h : k.validateMsgCancelOrders m <;> simp [validateMsgHook, validateMsgs, switchMsg, h]
  | ethereumTx | ethermint | other _ => rfl

/-- The hook's verdict does not depend on the order of the transaction's messages. -/
theorem validateMsgHook_perm (k : OrderChecks α β) {msgs msgs' : List (Msg α β)}
    (h : msgs.Perm msgs') : validateMsgHook k msgs = validateMsgHook k msgs' := by
  rcases Nat.lt_or_ge 1 msgs.length with hn | hn
  · have hany : msgs.any Msg.isOrderOrEvm = msgs'.any Msg.isOrderOrEvm :=
      Bool.eq_iff_iff.mpr (by simp only [List.any_eq_true, h.mem_iff])
    rw [validateMsgHook, validateMsgHook, ← h.length_eq, validateMsgs_multi k hn,
      validateMsgs_multi k hn, hany]
  · match msgs, h, hn with
    | [], h, _ => rw [← h.nil_eq]
    | [_], h, _ => rw [List.perm_singleton.mp h.symm]
    | _ :: _ :: _, _, hn => simp at hn

/-- An Ethereum transaction before or after a transfer gets the same verdict. -/
theorem validateMsgHook_ethereumTx_either_side :
    ([.other "cosmos-sdk/MsgSend", .ethereumTx] : List (Msg Unit Unit)).Perm
        [.ethereumTx, .other "cosmos-sdk/MsgSend"] ∧
      validateMsgHook (⟨fun _ => none, fun _ => none⟩ : OrderChecks Unit Unit)
          [.other "cosmos-sdk/MsgSend", .ethereumTx] =
        validateMsgHook (⟨fun _ => none, fun _ => none⟩ : OrderChecks Unit Unit)
          [.ethereumTx, .other "cosmos-sdk/MsgSend"] :=
  ⟨.swap _ _ _, validateMsgHook_perm _ (.swap _ _ _)⟩

end Faxchain.App
