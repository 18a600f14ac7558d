import KeepMyJournal.AccountMonitor.BinanceMessages
import KeepMyJournal.Common.JsonUtils

/-!
# The events of the Binance account stream as JSON

`to_json` of the three events, `common/src/json_utils.cpp:46–88`, which `account_tasks` writes as
text. The members of an object stand in the order of their keys. What a message appends to the
results can always be written, where the parser yields UTF-8 and the user is known by UTF-8.
-/

namespace KeepMyJournal.AccountMonitor.Binance

open KeepMyJournal.Base KeepMyJournal.Common

/-! ### to_json -/

/-- `to_json` of a `ws_balance_info_t`. -/
def WsBalanceInfo.toJson (data : WsBalanceInfo) : Json :=
  .object
    [(bytes "balance", .string data.balance), (bytes "clear_time", .numberUnsigned data.clearTime),
      (bytes "event_time", .numberUnsigned data.eventTime),
      (bytes "symbol", .string data.instrumentID), (bytes "user_id", .string data.userID)]

/-- `to_json` of a `ws_order_info_t`. -/
def WsOrderInfo.toJson (data : WsOrderInfo) : Json :=
  .object
    [(bytes "commission_amount", .string data.commissionAmount),
      (bytes "commission_asset", .string data.commissionAsset),
      (bytes "created_time", .numberUnsigned data.createdTime),
      (bytes "cumm_filled_qty", .string data.cumulativeFilledQuantity),
      (bytes "event_time", .numberUnsigned data.eventTime),
      (bytes "execution_type", .string data.executionType),
      (bytes "last_executed_price", .string data.lastExecutedPrice),
      (bytes "last_filled_qty", .string data.lastFilledQuantity),
      (bytes "order_id", .string data.orderID), (bytes "order_price", .string data.orderPrice),
      (bytes "order_side", .string data.orderSide), (bytes "order_type", .string data.orderType),
      (bytes "quantity", .string data.quantityPurchased),
      (bytes "rejection_reason", .string data.rejectReason),
      (bytes "status", .string data.orderStatus), (bytes "stop_price", .string data.stopPrice),
      (bytes "symbol", .string data.instrumentID),
      (bytes "time_in_force", .string data.timeInForce), (bytes "trade_id", .string data.tradeID),
      (bytes "transaction_time", .numberUnsigned data.transactionTime),
      (bytes "user_id", .string data.userID)]

/-- `to_json` of a `ws_account_update_t`. -/
def WsAccountUpdate.toJson (data : WsAccountUpdate) : Json :=
  .object
    [(bytes "event_time", .numberUnsigned data.eventTime),
      (bytes "free_amount", .string data.freeAmount),
      (bytes "last_update", .numberUnsigned data.lastAccountUpdate),
      (bytes "locked_amount", .string data.lockedAmount),
      (bytes "symbol", .string data.instrumentID), (bytes "user_id", .string data.userID)]

/-- `json(data)` in the visitor of `http_send_result`. -/
def StreamData.toJson : StreamData → Json
  | .balance info => info.toJson
  | .order info => info.toJson
  | .account update => update.toJson

/-- The texts of an event. -/
def StreamData.texts : StreamData → List Bytes
  | .balance info => [info.balance, info.instrumentID, info.userID]
  | .order info =>
    [info.commissionAmount, info.commissionAsset, info.cumulativeFilledQuantity,
      info.executionType, info.lastExecutedPrice, info.lastFilledQuantity, info.orderID,
      info.orderPrice, info.orderSide, info.orderType, info.quantityPurchased, info.rejectReason,
      info.orderStatus, info.stopPrice, info.instrumentID, info.timeInForce, info.tradeID,
      info.userID]
  | .account update =>
    [update.freeAmount, update.lockedAmount, update.instrumentID, update.userID]

/-- An event is written if all its texts are UTF-8. -/
theorem StreamData.dumps_toJson (data : StreamData) :
    data.toJson.dumps = data.texts.all Json.isUtf8 := by
  have hkeys : ∀ key ∈ ["balance", "clear_time", "commission_amount", "commission_asset",
      "created_time", "cumm_filled_qty", "event_time", "execution_type", "free_amount",
      "last_executed_price", "last_filled_qty", "last_update", "locked_amount", "order_id",
      "order_price", "order_side", "order_type", "quantity", "rejection_reason", "status",
      "stop_price", "symbol", "time_in_force", "trade_id", "transaction_time", "user_id"],
      Json.isUtf8 (bytes key) = true := by
    decide
  simp only [List.forall_mem_cons] at hkeys
  cases data with
  | balance info =>
    simp [toJson, texts, WsBalanceInfo.toJson, Json.dumps, Json.dumpsMembers, hkeys]
  | order info =>
    simp [toJson, texts, WsOrderInfo.toJson, Json.dumps, Json.dumpsMembers, hkeys]
  | account update =>
    simp [toJson, texts, WsAccountUpdate.toJson, Json.dumps, Json.dumpsMembers, hkeys]

/-! ### What is read is UTF-8 -/

/-- A number is written in digits, perhaps behind a sign. -/
theorem isUtf8_formatInteger (n : Int64) : Json.isUtf8 (formatInteger n) = true := by
  apply Json.isUtf8_of_forall_le
  apply forall_mem_bytes_le
  have hdigits : ∀ m : ℕ, ∀ c ∈ m.repr.toList, c.toNat ≤ 0x7f := by
    intro m c hc
    have hdigit : c.isDigit = true :=
      Nat.isDigit_of_mem_toDigits (b := 10) (by omega) (by omega) (by simpa [Nat.repr] using hc)
    simp only [Char.isDigit, Bool.and_eq_true, decide_eq_true_eq] at hdigit
    have hnine : c.toNat ≤ 57 := hdigit.2
    omega
  intro c hc
  change c ∈ n.toInt.repr.toList at hc
  cases hn : n.toInt with
  | ofNat m =>
    rw [hn] at hc
    exact hdigits m c hc
  | negSucc m =>
    rw [hn, Int.repr] at hc
    have hsign : ("-" ++ (m + 1).repr).toList = '-' :: (m + 1).repr.toList := by simp
    change c ∈ ("-" ++ (m + 1).repr).toList at hc
    rw [hsign] at hc
    rcases List.mem_cons.mp hc with rfl | hc
    · decide
    · exact hdigits _ c hc

variable {parse : JsonParse} {toString : ℚ → Bytes} {userID : Bytes} {root : Json.Object}

private theorem isUtf8_of_hasText (hroot : (Json.object root).dumps = true) {key text : Bytes}
    (h : root.HasText key text) : Json.isUtf8 text = true :=
  Json.dumps_of_find hroot h

private theorem isUtf8_of_hasNumeral {key : String} {text : Bytes} (h : HasNumeral root key text) :
    Json.isUtf8 text = true := by
  obtain ⟨n, -, rfl⟩ := h
  exact isUtf8_formatInteger n

private theorem isUtf8_of_hasCommissionAsset (hroot : (Json.object root).dumps = true)
    (htoString : ∀ x, Json.isUtf8 (toString x) = true) {asset : Bytes}
    (h : HasCommissionAsset toString root asset) : Json.isUtf8 asset = true := by
  rcases h with htext | ⟨value, x, -, -, rfl⟩ | ⟨-, -, rfl⟩
  · exact isUtf8_of_hasText hroot htext
  · exact htoString x
  · rfl

private theorem isUtf8_of_statesUpdate {eventTime lastAccountUpdate : UInt64} {items : List Json}
    {updates : List WsAccountUpdate} (hitems : (Json.array items).dumps = true)
    (huserID : Json.isUtf8 userID = true)
    (h : List.Forall₂ (StatesUpdate userID eventTime lastAccountUpdate) items updates) :
    ∀ update ∈ updates, (StreamData.account update).texts.all Json.isUtf8 = true := by
  induction h with
  | nil => simp
  | cons hstates hrest ih =>
    simp only [Json.dumps, Json.dumpsItems, Bool.and_eq_true] at hitems
    rw [List.forall_mem_cons]
    refine ⟨?_, ih (by simpa [Json.dumps] using hitems.2)⟩
    obtain ⟨⟨o, rfl, ha, hf, hl⟩, rfl, -, -⟩ := hstates
    simp [StreamData.texts, isUtf8_of_hasText hitems.1 ha, isUtf8_of_hasText hitems.1 hf,
      isUtf8_of_hasText hitems.1 hl, huserID]

/-- The texts of the events that an object describes are texts of the object, numerals, or the
user's. -/
theorem isUtf8_of_describes (hroot : (Json.object root).dumps = true)
    (htoString : ∀ x, Json.isUtf8 (toString x) = true) (huserID : Json.isUtf8 userID = true)
    {events : List StreamData} (h : Describes toString userID root events) :
    ∀ data ∈ events, data.texts.all Json.isUtf8 = true := by
  cases h with
  | balance hevent hinfo =>
    intro data hdata
    obtain rfl := List.mem_singleton.mp hdata
    simp [StreamData.texts, isUtf8_of_hasText hroot hinfo.balance,
      isUtf8_of_hasText hroot hinfo.instrumentID, hinfo.userID, huserID]
  | order hevent hinfo =>
    intro data hdata
    obtain rfl := List.mem_singleton.mp hdata
    have htext {key text : Bytes} (h : root.HasText key text) := isUtf8_of_hasText hroot h
    simp [StreamData.texts, htext hinfo.commissionAmount, htext hinfo.cumulativeFilledQuantity,
      htext hinfo.executionType, htext hinfo.lastExecutedPrice, htext hinfo.lastFilledQuantity,
      htext hinfo.orderPrice, htext hinfo.orderSide, htext hinfo.orderType,
      htext hinfo.quantityPurchased, htext hinfo.rejectReason, htext hinfo.orderStatus,
      htext hinfo.stopPrice, htext hinfo.instrumentID, htext hinfo.timeInForce,
      isUtf8_of_hasCommissionAsset hroot htoString hinfo.commissionAsset,
      isUtf8_of_hasNumeral hinfo.orderID, isUtf8_of_hasNumeral hinfo.tradeID, hinfo.userID, huserID]
  | account hevent heventTime hlast hitems hupdates =>
    intro data hdata
    obtain ⟨update, hupdate, rfl⟩ := List.mem_map.mp hdata
    exact isUtf8_of_statesUpdate (Json.dumps_of_find hroot hitems) huserID hupdates update hupdate

/-! ### The events of a message -/

/-- The events a message is read as, and none if it cannot be read. -/
def eventsOfMessage (parse : JsonParse) (toString : ℚ → Bytes) (userID buffer : Bytes) :
    List StreamData :=
  ((parse buffer >>= Json.getObject) >>= eventsOfRoot toString userID).toOption.getD []

/-- `ws_interpret_generic_messages` appends the events of the message. -/
theorem wsInterpretGenericMessages_events (s : BinanceStream) (results : List StreamData)
    (buffer : Bytes) : wsInterpretGenericMessages parse toString userID s results buffer =
      s.wsInterpretGenericMessages.map fun r ↦
        (r.1, results ++ eventsOfMessage parse toString userID buffer, r.2) := by
  have hresults : ((tryCatch (interpretRoot parse toString userID buffer) fun _ ↦ pure () :
      Interpreting Unit) results).2 = results ++ eventsOfMessage parse toString userID buffer := by
    have happends := appendsAtOnce_interpretRoot parse toString userID buffer results
    unfold eventsOfMessage
    cases hevents : (parse buffer >>= Json.getObject) >>= eventsOfRoot toString userID with
    | ok events =>
      rw [hevents] at happends
      rw [Throwing.tryCatch_ok happends]
    | error e =>
      rw [hevents] at happends
      rw [Throwing.tryCatch_error happends]
      rfl
  unfold wsInterpretGenericMessages BinanceStream.wsInterpretGenericMessages
  rw [hresults]
  split
  · rfl
  · rfl

/-- The message describes its events, or describes nothing. -/
theorem eventsOfMessage_spec (parse : JsonParse) (toString : ℚ → Bytes) (userID buffer : Bytes) :
    MessageDescribes parse toString userID buffer
        (eventsOfMessage parse toString userID buffer) ∨
      eventsOfMessage parse toString userID buffer = [] ∧
        ∀ described, ¬MessageDescribes parse toString userID buffer described := by
  unfold eventsOfMessage
  cases hevents : (parse buffer >>= Json.getObject) >>= eventsOfRoot toString userID with
  | error e =>
    refine .inr ⟨rfl, ?_⟩
    rintro described ⟨root, hparse, hdescribes⟩
    rw [hparse] at hevents
    cases (eventsOfRoot_of_describes hdescribes).symm.trans hevents
  | ok events =>
    obtain ⟨root, hroot, hread⟩ := of_bind_eq_ok hevents
    obtain ⟨value, hparse, hobject⟩ := of_bind_eq_ok hroot
    obtain rfl := Json.getObject_eq_ok_iff.mp hobject
    by_cases hdescribed : ∃ described, Describes toString userID root described
    · obtain ⟨described, hdescribes⟩ := hdescribed
      obtain rfl := Except.ok.inj (hread.symm.trans (eventsOfRoot_of_describes hdescribes))
      exact .inl ⟨root, hparse, hdescribes⟩
    · refine .inr ⟨?_, ?_⟩
      · exact (describes_of_eventsOfRoot hread).resolve_left fun h ↦ hdescribed ⟨events, h⟩
      · rintro described ⟨other, hother, hdescribes⟩
        obtain rfl := Json.object.inj (Except.ok.inj (hparse.symm.trans hother))
        exact hdescribed ⟨described, hdescribes⟩

/-- All events that a message describes are written. -/
theorem dumps_of_messageDescribes
    (hparse : ∀ text value, parse text = .ok value → value.dumps = true)
    (htoString : ∀ x, Json.isUtf8 (toString x) = true) (huserID : Json.isUtf8 userID = true)
    {buffer : Bytes} {events : List StreamData}
    (h : MessageDescribes parse toString userID buffer events) :
    ∀ data ∈ events, data.toJson.dumps = true := by
  intro data hdata
  obtain ⟨root, hroot, hdescribes⟩ := h
  rw [StreamData.dumps_toJson]
  exact isUtf8_of_describes (hparse _ _ hroot) htoString huserID hdescribes data hdata

end KeepMyJournal.AccountMonitor.Binance
