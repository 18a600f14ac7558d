import KeepMyJournal.AccountMonitor.BinanceStream
import KeepMyJournal.Base.Throwing

/-!
# The messages of the Binance account stream

`ws_interpret_generic_messages` and its three decoders,
`account_monitor/src/binance_user_stream.cpp:206–317`, with the events of
`common/include/account_stream/binance_order_info.hpp` that they append to the results.
`std::to_string` of a `double` is a parameter.
-/

namespace KeepMyJournal.AccountMonitor.Binance

open KeepMyJournal.Base KeepMyJournal.Common

/-! ### The events -/

/-- `ws_order_info_t`. -/
structure WsOrderInfo where
  instrumentID : Bytes := []
  orderSide : Bytes := []
  orderType : Bytes := []
  timeInForce : Bytes := []
  quantityPurchased : Bytes := []
  orderPrice : Bytes := []
  stopPrice : Bytes := []
  executionType : Bytes := []
  orderStatus : Bytes := []
  rejectReason : Bytes := []
  orderID : Bytes := []
  lastFilledQuantity : Bytes := []
  cumulativeFilledQuantity : Bytes := []
  lastExecutedPrice : Bytes := []
  commissionAmount : Bytes := []
  commissionAsset : Bytes := []
  userID : Bytes := []
  tradeID : Bytes := []
  eventTime : UInt64 := 0
  transactionTime : UInt64 := 0
  createdTime : UInt64 := 0
  deriving DecidableEq, Repr

/-- `ws_balance_info_t`. -/
structure WsBalanceInfo where
  instrumentID : Bytes := []
  balance : Bytes := []
  userID : Bytes := []
  eventTime : UInt64 := 0
  clearTime : UInt64 := 0
  deriving DecidableEq, Repr

/-- `ws_account_update_t`. -/
structure WsAccountUpdate where
  instrumentID : Bytes := []
  freeAmount : Bytes := []
  lockedAmount : Bytes := []
  userID : Bytes := []
  eventTime : UInt64 := 0
  lastAccountUpdate : UInt64 := 0
  deriving DecidableEq, Repr

/-- `stream_data_t`. -/
inductive StreamData where
  | balance (info : WsBalanceInfo)
  | order (info : WsOrderInfo)
  | account (update : WsAccountUpdate)
  deriving DecidableEq, Repr

/-! ### The decoders -/

/-- `get_json_value<string_t>`. -/
def getText (o : Json.Object) (key : String) : Except StdException Bytes :=
  o.at (bytes key) >>= Json.getString

/-- `get_json_value<inumber_t>`. -/
def getInteger (o : Json.Object) (key : String) : Except StdException Int64 :=
  o.at (bytes key) >>= Json.getNumberInteger

/-- `fmt::format("{}", n)`. -/
def formatInteger (n : Int64) : Bytes := bytes (toString n.toInt)

/-- The commission asset, which may be missing. -/
def commissionAsset (toString : ℚ → Bytes) (o : Json.Object) : Except StdException Bytes :=
  match o.find (bytes "N") with
  | none => pure []
  | some (.string s) => pure s
  | some asset => if asset.isNumber then asset.getNumberFloat.map toString else pure []

/-- A computation that appends to the results and may throw. -/
abbrev Interpreting := Throwing StdException (List StreamData)

/-- `append_list`, and `append` of one event. -/
def appendList (events : List StreamData) : Interpreting Unit :=
  fun results ↦ (.ok (), results ++ events)

/-- What `ws_process_balance_update` reads. -/
def readBalance (userID : Bytes) (o : Json.Object) : Except StdException WsBalanceInfo := do
  let balance ← getText o "d"
  let instrumentID ← getText o "a"
  let eventTime ← getInteger o "E"
  let clearTime ← getInteger o "T"
  pure { balance, instrumentID, eventTime := eventTime.toUInt64, clearTime := clearTime.toUInt64,
         userID }

/-- `ws_process_balance_update`. -/
def wsProcessBalanceUpdate (userID : Bytes) (o : Json.Object) : Interpreting Unit := do
  let info ← readBalance userID o
  appendList [.balance info]

/-- What `ws_process_orders_execution_report` reads. -/
def readOrder (toString : ℚ → Bytes) (userID : Bytes) (o : Json.Object) :
    Except StdException WsOrderInfo := do
  let instrumentID ← getText o "s"
  let orderSide ← getText o "S"
  let orderType ← getText o "o"
  let timeInForce ← getText o "f"
  let quantityPurchased ← getText o "q"
  let orderPrice ← getText o "p"
  let stopPrice ← getText o "P"
  let executionType ← getText o "x"
  let orderStatus ← getText o "X"
  let rejectReason ← getText o "r"
  let lastFilledQuantity ← getText o "l"
  let commissionAmount ← getText o "n"
  let lastExecutedPrice ← getText o "L"
  let cumulativeFilledQuantity ← getText o "z"
  let orderID ← getInteger o "i"
  let tradeID ← getInteger o "t"
  let commissionAsset ← commissionAsset toString o
  let eventTime ← getInteger o "E"
  let transactionTime ← getInteger o "T"
  let createdTime ← getInteger o "O"
  pure { instrumentID, orderSide, orderType, timeInForce, quantityPurchased, orderPrice, stopPrice,
         executionType, orderStatus, rejectReason, lastFilledQuantity, commissionAmount,
         lastExecutedPrice, cumulativeFilledQuantity, commissionAsset, userID,
         orderID := formatInteger orderID, tradeID := formatInteger tradeID,
         eventTime := eventTime.toUInt64, transactionTime := transactionTime.toUInt64,
         createdTime := createdTime.toUInt64 }

/-- `ws_process_orders_execution_report`. -/
def wsProcessOrdersExecutionReport (toString : ℚ → Bytes) (userID : Bytes) (o : Json.Object) :
    Interpreting Unit := do
  let info ← readOrder toString userID o
  appendList [.order info]

/-- The loop over the balances: the record is filled anew for each, and a copy is collected. -/
def readUpdates (data : WsAccountUpdate) (updates : List WsAccountUpdate) :
    List Json → Except StdException (List WsAccountUpdate)
  | [] => pure updates
  | item :: rest => do
    let assetItem ← item.getObject
    let data := { data with instrumentID := ← getText assetItem "a" }
    let data := { data with freeAmount := ← getText assetItem "f" }
    let data := { data with lockedAmount := ← getText assetItem "l" }
    readUpdates data (updates ++ [data]) rest

/-- `ws_process_account_position`. -/
def wsProcessAccountPosition (userID : Bytes) (o : Json.Object) : Interpreting Unit := do
  let eventTime ← getInteger o "E"
  let lastAccountUpdate ← getInteger o "u"
  let data : WsAccountUpdate :=
    { userID, eventTime := eventTime.toUInt64, lastAccountUpdate := lastAccountUpdate.toUInt64 }
  let balances ← (o.at (bytes "B") >>= Json.getArray : Except StdException (List Json))
  let updates ← readUpdates data [] balances
  appendList (updates.map .account)

/-- The `try` block of `ws_interpret_generic_messages`. -/
def interpretRoot (parse : JsonParse) (toString : ℚ → Bytes) (userID buffer : Bytes) :
    Interpreting Unit := do
  let root ← (parse buffer >>= Json.getObject : Except StdException Json.Object)
  match root.find (bytes "e") with
  | none => pure ()
  | some event =>
    let eventType ← event.getString
    if eventType = bytes "executionReport" then wsProcessOrdersExecutionReport toString userID root
    else if eventType = bytes "balanceUpdate" then wsProcessBalanceUpdate userID root
    else if eventType = bytes "outboundAccountPosition" then wsProcessAccountPosition userID root
    else pure ()

/-- `ws_interpret_generic_messages` with the results; what the block throws is logged. -/
def wsInterpretGenericMessages (parse : JsonParse) (toString : ℚ → Bytes) (userID : Bytes)
    (s : BinanceStream) (results : List StreamData) (buffer : Bytes) :
    Option (BinanceStream × List StreamData × List Op) :=
  if s.buffer then
    let results :=
      ((tryCatch (interpretRoot parse toString userID buffer) fun _ ↦ pure () : Interpreting Unit)
        results).2
    s.wsWaitForMessages.map fun r ↦ (r.1, results, r.2)
  else none

/-- On the stream itself it is the function of the stream's model. -/
theorem wsInterpretGenericMessages_stream (parse : JsonParse) (toString : ℚ → Bytes)
    (userID : Bytes) (s : BinanceStream) (results : List StreamData) (buffer : Bytes) :
    (wsInterpretGenericMessages parse toString userID s results buffer).map
        (fun r ↦ (r.1, r.2.2)) = s.wsInterpretGenericMessages := by
  unfold wsInterpretGenericMessages BinanceStream.wsInterpretGenericMessages
  split
  · cases hstream : s.sslWebStream <;> simp [BinanceStream.wsWaitForMessages, hstream]
  · rfl

/-! ### What a message describes -/

/-- The member is a number and this is its time. -/
def HasTime (o : Json.Object) (key : String) (time : UInt64) : Prop :=
  ∃ n, o.HasInteger (bytes key) n ∧ time = n.toUInt64

/-- The member is a number and this is its decimal text. -/
def HasNumeral (o : Json.Object) (key : String) (text : Bytes) : Prop :=
  ∃ n, o.HasInteger (bytes key) n ∧ text = formatInteger n

/-- The commission asset is a text, or a number as text; there is none if it is neither. -/
def HasCommissionAsset (toString : ℚ → Bytes) (o : Json.Object) (asset : Bytes) : Prop :=
  o.HasText (bytes "N") asset ∨
    (∃ value x, o.find (bytes "N") = some value ∧ value.getNumberFloat = .ok x ∧
      toString x = asset) ∨
    (∀ text, ¬o.HasText (bytes "N") text) ∧
      (∀ value, o.find (bytes "N") = some value → value.isNumber = false) ∧ asset = []

/-- The object reports this order. -/
structure ReportsOrder (toString : ℚ → Bytes) (userID : Bytes) (o : Json.Object)
    (info : WsOrderInfo) : Prop where
  instrumentID : o.HasText (bytes "s") info.instrumentID
  orderSide : o.HasText (bytes "S") info.orderSide
  orderType : o.HasText (bytes "o") info.orderType
  timeInForce : o.HasText (bytes "f") info.timeInForce
  quantityPurchased : o.HasText (bytes "q") info.quantityPurchased
  orderPrice : o.HasText (bytes "p") info.orderPrice
  stopPrice : o.HasText (bytes "P") info.stopPrice
  executionType : o.HasText (bytes "x") info.executionType
  orderStatus : o.HasText (bytes "X") info.orderStatus
  rejectReason : o.HasText (bytes "r") info.rejectReason
  lastFilledQuantity : o.HasText (bytes "l") info.lastFilledQuantity
  commissionAmount : o.HasText (bytes "n") info.commissionAmount
  lastExecutedPrice : o.HasText (bytes "L") info.lastExecutedPrice
  cumulativeFilledQuantity : o.HasText (bytes "z") info.cumulativeFilledQuantity
  orderID : HasNumeral o "i" info.orderID
  tradeID : HasNumeral o "t" info.tradeID
  commissionAsset : HasCommissionAsset toString o info.commissionAsset
  eventTime : HasTime o "E" info.eventTime
  transactionTime : HasTime o "T" info.transactionTime
  createdTime : HasTime o "O" info.createdTime
  userID : info.userID = userID

/-- The object reports this change of a balance. -/
structure ReportsBalance (userID : Bytes) (o : Json.Object) (info : WsBalanceInfo) : Prop where
  balance : o.HasText (bytes "d") info.balance
  instrumentID : o.HasText (bytes "a") info.instrumentID
  eventTime : HasTime o "E" info.eventTime
  clearTime : HasTime o "T" info.clearTime
  userID : info.userID = userID

/-- The item of `B` states this balance of an account, with the times of the message. -/
structure StatesUpdate (userID : Bytes) (eventTime lastAccountUpdate : UInt64) (item : Json)
    (update : WsAccountUpdate) : Prop where
  asset : ∃ o : Json.Object, item = .object o ∧ o.HasText (bytes "a") update.instrumentID ∧
    o.HasText (bytes "f") update.freeAmount ∧ o.HasText (bytes "l") update.lockedAmount
  userID : update.userID = userID
  eventTime : update.eventTime = eventTime
  lastAccountUpdate : update.lastAccountUpdate = lastAccountUpdate

/-- The events a message describes. -/
inductive Describes (toString : ℚ → Bytes) (userID : Bytes) (root : Json.Object) :
    List StreamData → Prop
  | order {info : WsOrderInfo} (hevent : root.HasText (bytes "e") (bytes "executionReport"))
    (hinfo : ReportsOrder toString userID root info) : Describes toString userID root [.order info]
  | balance {info : WsBalanceInfo} (hevent : root.HasText (bytes "e") (bytes "balanceUpdate"))
    (hinfo : ReportsBalance userID root info) : Describes toString userID root [.balance info]
  | account {eventTime lastAccountUpdate : UInt64} {items : List Json}
    {updates : List WsAccountUpdate}
    (hevent : root.HasText (bytes "e") (bytes "outboundAccountPosition"))
    (heventTime : HasTime root "E" eventTime)
    (hlastAccountUpdate : HasTime root "u" lastAccountUpdate)
    (hitems : root.find (bytes "B") = some (.array items))
    (hupdates : List.Forall₂ (StatesUpdate userID eventTime lastAccountUpdate) items updates) :
    Describes toString userID root (updates.map .account)

/-! ### The decoders read what is described -/

variable {toString : ℚ → Bytes} {userID : Bytes} {o : Json.Object}

private theorem getText_eq_ok_iff {key : String} {text : Bytes} :
    getText o key = .ok text ↔ o.HasText (bytes key) text := by
  unfold getText
  simp only [bind_eq_ok_iff, Json.Object.at_eq_ok_iff, Json.getString_eq_ok_iff]
  constructor
  · rintro ⟨value, hfind, rfl⟩
    exact hfind
  · intro h
    exact ⟨_, h, rfl⟩

private theorem getInteger_eq_ok_iff {key : String} {n : Int64} :
    getInteger o key = .ok n ↔ o.HasInteger (bytes key) n := by
  unfold getInteger Json.Object.HasInteger
  simp only [bind_eq_ok_iff, Json.Object.at_eq_ok_iff]

private theorem commissionAsset_eq_ok_iff {asset : Bytes} :
    commissionAsset toString o = .ok asset ↔ HasCommissionAsset toString o asset := by
  unfold commissionAsset HasCommissionAsset Json.Object.HasText
  cases hfind : o.find (bytes "N") with
  | none => simp [pure, Except.pure]
  | some value =>
    cases value <;>
      simp [pure, Except.pure, Except.map, Json.isNumber, Json.getNumberFloat]

private theorem readBalance_eq_ok_iff {info : WsBalanceInfo} :
    readBalance userID o = .ok info ↔ ReportsBalance userID o info := by
  unfold readBalance
  simp only [bind_eq_ok_iff, getText_eq_ok_iff, getInteger_eq_ok_iff, pure, Except.pure,
    Except.ok.injEq]
  constructor
  · rintro ⟨balance, hbalance, instrumentID, hinstrumentID, eventTime, heventTime, clearTime,
      hclearTime, rfl⟩
    exact ⟨hbalance, hinstrumentID, ⟨eventTime, heventTime, rfl⟩, ⟨clearTime, hclearTime, rfl⟩,
      rfl⟩
  · rintro ⟨hbalance, hinstrumentID, ⟨eventTime, heventTime, hevent⟩,
      ⟨clearTime, hclearTime, hclear⟩, huser⟩
    refine ⟨_, hbalance, _, hinstrumentID, eventTime, heventTime, clearTime, hclearTime, ?_⟩
    rw [← hevent, ← hclear, ← huser]

private theorem readOrder_eq_ok_iff {info : WsOrderInfo} :
    readOrder toString userID o = .ok info ↔ ReportsOrder toString userID o info := by
  unfold readOrder
  simp only [bind_eq_ok_iff, getText_eq_ok_iff, getInteger_eq_ok_iff, commissionAsset_eq_ok_iff,
    pure, Except.pure, Except.ok.injEq]
  constructor
  · rintro ⟨_, hs, _, hS, _, ho, _, hf, _, hq, _, hp, _, hP, _, hx, _, hX, _, hr, _, hl, _, hn, _,
      hL, _, hz, i, hi, t, ht, _, hN, E, hE, T, hT, O, hO, rfl⟩
    exact ⟨hs, hS, ho, hf, hq, hp, hP, hx, hX, hr, hl, hn, hL, hz, ⟨i, hi, rfl⟩, ⟨t, ht, rfl⟩, hN,
      ⟨E, hE, rfl⟩, ⟨T, hT, rfl⟩, ⟨O, hO, rfl⟩, rfl⟩
  · rintro ⟨hs, hS, ho, hf, hq, hp, hP, hx, hX, hr, hl, hn, hL, hz, ⟨i, hi, horder⟩,
      ⟨t, ht, htrade⟩, hN, ⟨E, hE, hevent⟩, ⟨T, hT, htransaction⟩, ⟨O, hO, hcreated⟩, huser⟩
    refine ⟨_, hs, _, hS, _, ho, _, hf, _, hq, _, hp, _, hP, _, hx, _, hX, _, hr, _, hl, _, hn, _,
      hL, _, hz, i, hi, t, ht, _, hN, E, hE, T, hT, O, hO, ?_⟩
    rw [← horder, ← htrade, ← hevent, ← htransaction, ← hcreated, ← huser]

/-- The record a loop starts with does not matter beyond what the loop leaves as it is. -/
private theorem readUpdates_eq_ok_iff {data : WsAccountUpdate} {before : List WsAccountUpdate}
    {items : List Json} {all : List WsAccountUpdate} :
    readUpdates data before items = .ok all ↔
      ∃ updates, all = before ++ updates ∧
        List.Forall₂ (StatesUpdate data.userID data.eventTime data.lastAccountUpdate) items
          updates := by
  induction items generalizing data before with
  | nil =>
    simp only [readUpdates, pure, Except.pure, Except.ok.injEq, List.forall₂_nil_left_iff,
      exists_eq_right, List.append_nil]
    exact eq_comm
  | cons item rest ih =>
    simp only [readUpdates, bind_eq_ok_iff, Json.getObject_eq_ok_iff, getText_eq_ok_iff, ih]
    constructor
    · rintro ⟨o, rfl, instrumentID, ha, freeAmount, hf, lockedAmount, hl, updates, rfl, hupdates⟩
      refine ⟨_ :: updates, (List.append_cons _ _ _).symm, .cons ?_ hupdates⟩
      exact ⟨⟨o, rfl, ha, hf, hl⟩, rfl, rfl, rfl⟩
    · rintro ⟨_, rfl, hall⟩
      obtain ⟨update, updates, hstates, hupdates, rfl⟩ := List.forall₂_cons_left_iff.mp hall
      obtain ⟨⟨o, rfl, ha, hf, hl⟩, huser, hevent, hlast⟩ := hstates
      refine ⟨o, rfl, _, ha, _, hf, _, hl, updates, ?_, hupdates⟩
      rw [← huser, ← hevent, ← hlast]
      exact List.append_cons _ _ _

/-! ### All or nothing -/

/-- The computation appends these events at its end, or throws and appends nothing. -/
def AppendsAtOnce (x : Interpreting Unit) (events : Except StdException (List StreamData)) :
    Prop :=
  ∀ results, x results = (events.map fun _ ↦ (), results ++ events.toOption.getD [])

private theorem appendsAtOnce_pure : AppendsAtOnce (pure ()) (.ok []) := by
  intro results
  rw [Except.toOption, Option.getD_some, List.append_nil]
  rfl

private theorem appendsAtOnce_appendList (events : List StreamData) :
    AppendsAtOnce (appendList events) (.ok events) := fun _ ↦ rfl

/-- What is read first does not touch the results. -/
private theorem AppendsAtOnce.bind {α : Type} {y : Except StdException α}
    {f : α → Interpreting Unit} {g : α → Except StdException (List StreamData)}
    (h : ∀ a, AppendsAtOnce (f a) (g a)) : AppendsAtOnce (liftM y >>= f) (y >>= g) := by
  intro results
  cases hy : y with
  | error e =>
    rw [Throwing.lift_bind_error rfl]
    exact Prod.ext rfl (List.append_nil results).symm
  | ok a =>
    rw [Throwing.lift_bind_ok rfl]
    exact h a results

/-- The events of an object, or what is thrown. -/
def eventsOfRoot (toString : ℚ → Bytes) (userID : Bytes) (root : Json.Object) :
    Except StdException (List StreamData) := do
  match root.find (bytes "e") with
  | none => pure []
  | some event =>
    let eventType ← event.getString
    if eventType = bytes "executionReport" then
      let info ← readOrder toString userID root
      pure [.order info]
    else if eventType = bytes "balanceUpdate" then
      let info ← readBalance userID root
      pure [.balance info]
    else if eventType = bytes "outboundAccountPosition" then
      let eventTime ← getInteger root "E"
      let lastAccountUpdate ← getInteger root "u"
      let balances ← root.at (bytes "B") >>= Json.getArray
      let updates ← readUpdates
        { userID, eventTime := eventTime.toUInt64,
          lastAccountUpdate := lastAccountUpdate.toUInt64 } [] balances
      pure (updates.map .account)
    else pure []

theorem appendsAtOnce_interpretRoot (parse : JsonParse) (toString : ℚ → Bytes)
    (userID buffer : Bytes) : AppendsAtOnce (interpretRoot parse toString userID buffer)
      ((parse buffer >>= Json.getObject) >>= eventsOfRoot toString userID) := by
  refine .bind fun root ↦ ?_
  unfold eventsOfRoot
  cases root.find (bytes "e") with
  | none => exact appendsAtOnce_pure
  | some event =>
    refine .bind fun eventType ↦ ?_
    split
    · exact .bind fun info ↦ appendsAtOnce_appendList [.order info]
    · split
      · exact .bind fun info ↦ appendsAtOnce_appendList [.balance info]
      · split
        · refine .bind fun eventTime ↦ .bind fun lastAccountUpdate ↦ .bind fun balances ↦
            .bind fun updates ↦ ?_
          exact appendsAtOnce_appendList (updates.map .account)
        · exact appendsAtOnce_pure

theorem eventsOfRoot_of_describes {root : Json.Object} {events : List StreamData}
    (h : Describes toString userID root events) :
    eventsOfRoot toString userID root = .ok events := by
  unfold eventsOfRoot
  cases h with
  | order hevent hinfo =>
    rw [hevent]
    change (readOrder toString userID root >>= _) = _
    rw [readOrder_eq_ok_iff.mpr hinfo]
    rfl
  | balance hevent hinfo =>
    rw [hevent]
    change (readBalance userID root >>= _) = _
    rw [readBalance_eq_ok_iff.mpr hinfo]
    rfl
  | account hevent heventTime hlast hitems hupdates =>
    obtain ⟨n, hn, rfl⟩ := heventTime
    obtain ⟨m, hm, rfl⟩ := hlast
    rw [hevent]
    change (getInteger root "E" >>= _) = _
    simp only [bind_eq_ok_iff, getInteger_eq_ok_iff, Json.Object.at_eq_ok_iff,
      Json.getArray_eq_ok_iff, readUpdates_eq_ok_iff, List.nil_append]
    exact ⟨n, hn, m, hm, _, ⟨_, hitems, rfl⟩, _, ⟨_, rfl, hupdates⟩, rfl⟩

theorem describes_of_eventsOfRoot {root : Json.Object} {events : List StreamData}
    (h : eventsOfRoot toString userID root = .ok events) :
    Describes toString userID root events ∨ events = [] := by
  unfold eventsOfRoot at h
  split at h
  · exact .inr (Except.ok.inj h).symm
  · next event hevent =>
    obtain ⟨eventType, htype, hread⟩ := of_bind_eq_ok h
    obtain rfl := Json.getString_eq_ok_iff.mp htype
    split at hread
    · next heq =>
      obtain ⟨info, hinfo, hread⟩ := of_bind_eq_ok hread
      obtain rfl := Except.ok.inj hread
      exact .inl (.order (heq ▸ hevent) (readOrder_eq_ok_iff.mp hinfo))
    · split at hread
      · next heq =>
        obtain ⟨info, hinfo, hread⟩ := of_bind_eq_ok hread
        obtain rfl := Except.ok.inj hread
        exact .inl (.balance (heq ▸ hevent) (readBalance_eq_ok_iff.mp hinfo))
      · split at hread
        · next heq =>
          simp only [bind_eq_ok_iff, getInteger_eq_ok_iff, Json.Object.at_eq_ok_iff,
            Json.getArray_eq_ok_iff, readUpdates_eq_ok_iff, List.nil_append] at hread
          obtain ⟨n, hn, m, hm, items, ⟨_, hitems, rfl⟩, updates, ⟨_, rfl, hupdates⟩, hread⟩ :=
            hread
          obtain rfl := Except.ok.inj hread
          exact .inl (.account (heq ▸ hevent) ⟨n, hn, rfl⟩ ⟨m, hm, rfl⟩ hitems hupdates)
        · exact .inr (Except.ok.inj hread).symm

/-- The message is an object that describes these events. -/
def MessageDescribes (parse : JsonParse) (toString : ℚ → Bytes) (userID buffer : Bytes)
    (events : List StreamData) : Prop :=
  ∃ root, parse buffer = .ok (.object root) ∧ Describes toString userID root events

/-- For every message, whatever the results are before: the events that the message describes
are appended, all of them, in their order and with the user of the stream, and nothing if it
describes none; the next read is posted. The function is undefined only without a buffer or a
stream. -/
theorem wsInterpretGenericMessages_appends (parse : JsonParse) (toString : ℚ → Bytes)
    (userID : Bytes) (s : BinanceStream) (results : List StreamData) (buffer : Bytes) :
    ∃ events, wsInterpretGenericMessages parse toString userID s results buffer =
        (if s.buffer && s.sslWebStream then
          some ({ s with buffer := true }, results ++ events, [.read])
        else none) ∧
      (∀ described, MessageDescribes parse toString userID buffer described → described = events) ∧
      ((∀ described, ¬MessageDescribes parse toString userID buffer described) → events = []) := by
  refine ⟨((parse buffer >>= Json.getObject) >>= eventsOfRoot toString userID).toOption.getD [],
    ?_, ?_, ?_⟩
  · have hresults : ((tryCatch (interpretRoot parse toString userID buffer) fun _ ↦ pure () :
        Interpreting Unit) results).2 =
        results ++ ((parse buffer >>= Json.getObject) >>=
          eventsOfRoot toString userID).toOption.getD [] := by
      have happends := appendsAtOnce_interpretRoot parse toString userID buffer results
      cases hevents : (parse buffer >>= Json.getObject) >>= eventsOfRoot toString userID with
      | ok events =>
        rw [hevents] at happends
        rw [Throwing.tryCatch_ok happends]
      | error e =>
        rw [hevents] at happends
        rw [Throwing.tryCatch_error happends]
        rfl
    unfold wsInterpretGenericMessages BinanceStream.wsWaitForMessages
    rw [hresults]
    cases s.buffer <;> cases s.sslWebStream <;> rfl
  · rintro described ⟨root, hparse, hdescribes⟩
    have hevents : (parse buffer >>= Json.getObject) >>= eventsOfRoot toString userID =
        .ok described := by
      rw [hparse]
      exact eventsOfRoot_of_describes hdescribes
    rw [hevents]
    rfl
  · intro hnone
    cases hevents : (parse buffer >>= Json.getObject) >>= eventsOfRoot toString userID with
    | error e => rfl
    | ok events =>
      obtain ⟨root, hroot, hevents⟩ := of_bind_eq_ok hevents
      obtain ⟨value, hparse, hobject⟩ := of_bind_eq_ok hroot
      obtain rfl := Json.getObject_eq_ok_iff.mp hobject
      exact (describes_of_eventsOfRoot hevents).resolve_left fun h ↦ hnone events ⟨root, hparse, h⟩

/-- The second element of `B` has no locked amount. -/
example : wsInterpretGenericMessages
    (fun _ ↦ .ok (.object [(bytes "B", .array
        [.object [(bytes "a", .string (bytes "ETH")), (bytes "f", .string (bytes "1")),
            (bytes "l", .string (bytes "0"))],
          .object [(bytes "a", .string (bytes "BTC")), (bytes "f", .string (bytes "2"))]]),
      (bytes "E", .numberInteger 3), (bytes "e", .string (bytes "outboundAccountPosition")),
      (bytes "u", .numberInteger 4)]))
    (fun _ ↦ []) (bytes "u1") { sslWebStream := true, buffer := true } [] [] =
      some ({ sslWebStream := true, buffer := true }, [], [.read]) := by decide +kernel

end KeepMyJournal.AccountMonitor.Binance
