import KeepMyJournal.Base.Throwing
import KeepMyJournal.PriceMonitor.KucoinStream

/-!
# The price in a message of a KuCoin price stream

What `get_instrument_from_json` (`price_monitor/src/kucoin_price_stream.cpp:10–58`) puts into the
instrument that `interpret_generic_messages` appends to the sink. A spot price that is neither
text nor a number leaves `currentPrice` at its default.
-/

namespace KeepMyJournal.PriceMonitor.Kucoin

open KeepMyJournal.Base KeepMyJournal.Base.Shared KeepMyJournal.Common

/-- The number a member of a message stands for: a text is read by `std::stod`. -/
inductive StandsFor (stod : Bytes → Except StdException ℚ) : Json → ℚ → Prop
  | text {s : Bytes} {x : ℚ} (h : stod s = .ok x) : StandsFor stod (.string s) x
  | number {value : Json} {x : ℚ} (h : value.getNumberFloat = .ok x) : StandsFor stod value x

/-- The price that the `data` member of a message states: for spot its price, otherwise the mean
of its best bid and its best ask. -/
def DataPrice (stod : Bytes → Except StdException ℚ) (tradeType : TradeType)
    (dataObject : Json.Object) (price : ℚ) : Prop :=
  if tradeType = .spot then
    ∃ value, dataObject.find (bytes "price") = some value ∧ StandsFor stod value price
  else
    ∃ bid ask bidPrice askPrice,
      dataObject.find (bytes "bestBidPrice") = some bid ∧ StandsFor stod bid bidPrice ∧
      dataObject.find (bytes "bestAskPrice") = some ask ∧ StandsFor stod ask askPrice ∧
      price = (bidPrice + askPrice) / 2

/-- The price that a message states. -/
def MessagePrice (parse : JsonParse) (stod : Bytes → Except StdException ℚ) (str : Bytes)
    (tradeType : TradeType) (price : ℚ) : Prop :=
  ∃ jsonObject dataObject : Json.Object, parse str = .ok (.object jsonObject) ∧
    jsonObject.find (bytes "data") = some (.object dataObject) ∧
    DataPrice stod tradeType dataObject price

/-- Every named instrument that is read from the message has the price that the message states,
and so has every instrument that a stream appends to the sink when it receives the message. -/
def PricedByMessage (parse : JsonParse) (stod : Bytes → Except StdException ℚ) (str : Bytes)
    (tradeType : TradeType) : Prop :=
  (∀ inst, getInstrumentFromJson parse stod str tradeType = .ok inst → inst.name ≠ [] →
    MessagePrice parse stod str tradeType inst.currentPrice) ∧
  ∀ (s : KucoinStream) r, s.tradeType = tradeType →
    s.interpretGenericMessages parse stod str = some r →
    ∀ inst, .append inst ∈ r.2.1 → MessagePrice parse stod str tradeType inst.currentPrice

/-- A spot message with a subject and with a price that is neither text nor a number. -/
def UnreadPrice (parse : JsonParse) (str : Bytes) : Prop :=
  ∃ (jsonObject dataObject : Json.Object) (name : Bytes) (price : Json),
    parse str = .ok (.object jsonObject) ∧
    jsonObject.find (bytes "data") = some (.object dataObject) ∧
    jsonObject.find (bytes "subject") = some (.string name) ∧ name ≠ [] ∧
    dataObject.find (bytes "price") = some price ∧ price.isNumber = false ∧
    ∀ s, price ≠ .string s

variable {parse : JsonParse} {stod : Bytes → Except StdException ℚ} {str : Bytes}
  {tradeType : TradeType}

/-- A price that is read is the number its member stands for, or the member is neither text nor
a number. -/
private theorem readPrice_eq_ok {price : Json} {x : ℚ}
    (h : readPrice stod (pure 0) price = .ok x) :
    StandsFor stod price x ∨ price.isNumber = false ∧ ∀ s, price ≠ .string s := by
  unfold readPrice at h
  split at h
  · exact .inl (.text h)
  · next htext =>
    split at h
    · exact .inl (.number h)
    · next hnumber => exact .inr ⟨Bool.eq_false_iff.mpr hnumber, htext⟩

/-- A member that is neither text nor a number is read as no price at all. -/
private theorem readPrice_unread {price : Json} (hnumber : price.isNumber = false)
    (htext : ∀ s, price ≠ .string s) : readPrice stod (pure 0) price = .ok 0 := by
  unfold readPrice
  split
  · next s => exact absurd rfl (htext s)
  · rw [hnumber]
    rfl

private theorem not_standsFor_unread {price : Json} (hnumber : price.isNumber = false)
    (htext : ∀ s, price ≠ .string s) (x : ℚ) : ¬StandsFor stod price x := by
  rintro (@⟨s, _, -⟩ | hfloat)
  · exact htext s rfl
  · unfold Json.getNumberFloat at hfloat
    split at hfloat <;> first | cases hnumber | cases hfloat

/-- A named spot instrument has the price of its message, or that price is unread. -/
private theorem spotInstrument_eq_ok {jsonObject dataObject : Json.Object}
    {inst : InstrumentType} (h : spotInstrument stod jsonObject dataObject .spot = .ok inst)
    (hname : inst.name ≠ []) :
    DataPrice stod .spot dataObject inst.currentPrice ∨
      ∃ name price, jsonObject.find (bytes "subject") = some (.string name) ∧ name ≠ [] ∧
        dataObject.find (bytes "price") = some price ∧ price.isNumber = false ∧
        ∀ s, price ≠ .string s := by
  unfold spotInstrument at h
  split at h
  · next name hsubject =>
    split at h
    · obtain rfl := Except.ok.inj h
      exact absurd rfl hname
    · next price hprice =>
      obtain ⟨x, hx, h⟩ := of_bind_eq_ok h
      obtain rfl := Except.ok.inj h
      obtain hstands | ⟨hnumber, htext⟩ := readPrice_eq_ok hx
      · exact .inl ⟨price, hprice, hstands⟩
      · exact .inr ⟨name, price, hsubject, hname, hprice, hnumber, htext⟩
  · obtain rfl := Except.ok.inj h
    exact absurd rfl hname

/-- A named instrument of the futures branch has the mean of the two prices of its message. -/
private theorem futuresInstrument_eq_ok {dataObject : Json.Object} {inst : InstrumentType}
    (htype : tradeType ≠ .spot) (h : futuresInstrument stod dataObject tradeType = .ok inst)
    (hname : inst.name ≠ []) : DataPrice stod tradeType dataObject inst.currentPrice := by
  unfold futuresInstrument at h
  split at h
  · split at h
    · next bid ask hbid hask =>
      obtain ⟨bidPrice, hbidPrice, h⟩ := of_bind_eq_ok h
      obtain ⟨askPrice, haskPrice, h⟩ := of_bind_eq_ok h
      obtain rfl := Except.ok.inj h
      unfold DataPrice
      rw [if_neg htype]
      exact ⟨_, _, bidPrice, askPrice, hbid, .text hbidPrice, hask, .text haskPrice, rfl⟩
    · obtain rfl := Except.ok.inj h
      exact absurd rfl hname
  · obtain rfl := Except.ok.inj h
    exact absurd rfl hname

/-- A named instrument has the price of its message, or it is a spot instrument and that price
is unread. -/
private theorem getInstrumentFromJson_eq_ok {inst : InstrumentType}
    (h : getInstrumentFromJson parse stod str tradeType = .ok inst) (hname : inst.name ≠ []) :
    MessagePrice parse stod str tradeType inst.currentPrice ∨
      tradeType = .spot ∧ UnreadPrice parse str := by
  obtain ⟨jsonObject, hobject, h⟩ := of_bind_eq_ok h
  obtain ⟨value, hparse, hvalue⟩ := of_bind_eq_ok hobject
  obtain rfl : value = .object jsonObject := by
    cases value with
    | object members => rw [Except.ok.inj hvalue]
    | _ => cases hvalue
  unfold readInstrument at h
  split at h
  · next dataObject hdata =>
    split at h
    · next htype =>
      subst htype
      obtain hprice | ⟨name, price, hunread⟩ := spotInstrument_eq_ok h hname
      · exact .inl ⟨jsonObject, dataObject, hparse, hdata, hprice⟩
      · exact .inr ⟨rfl, jsonObject, dataObject, name, price, hparse, hdata, hunread⟩
    · next htype =>
      exact .inl ⟨jsonObject, dataObject, hparse, hdata, futuresInstrument_eq_ok htype h hname⟩
  · obtain rfl := Except.ok.inj h
    exact absurd rfl hname

/-- A spot message whose price is unread gives a named instrument with a price that the message
does not state. -/
private theorem getInstrumentFromJson_unread (stod : Bytes → Except StdException ℚ)
    (h : UnreadPrice parse str) :
    ∃ inst, getInstrumentFromJson parse stod str .spot = .ok inst ∧ inst.name ≠ [] ∧
      ¬MessagePrice parse stod str .spot inst.currentPrice := by
  obtain ⟨jsonObject, dataObject, name, price, hparse, hdata, hsubject, hname, hprice, hnumber,
    htext⟩ := h
  refine ⟨{ name := name, currentPrice := 0, tradeType := .spot }, ?_, hname, ?_⟩
  · unfold getInstrumentFromJson
    rw [hparse]
    change readInstrument stod jsonObject .spot = _
    unfold readInstrument
    rw [hdata]
    change spotInstrument stod jsonObject dataObject .spot = _
    unfold spotInstrument
    rw [hsubject, hprice]
    dsimp only
    rw [readPrice_unread hnumber htext]
    rfl
  · rintro ⟨_, _, hparse', hdata', value, hvalue, hstands⟩
    cases hparse.symm.trans hparse'
    cases hdata.symm.trans hdata'
    cases hprice.symm.trans hvalue
    exact not_standsFor_unread hnumber htext _ hstands

/-- A subscription appends nothing to the sink. -/
private theorem append_not_mem_sendTickerSubscription {s : KucoinStream} {r : Result}
    (h : s.sendTickerSubscription = some r) (inst : InstrumentType) : .append inst ∉ r.2.1 := by
  unfold KucoinStream.sendTickerSubscription at h
  split at h
  · obtain rfl := Option.some.inj h
    exact List.not_mem_nil
  · split at h
    · cases h
    · split at h
      · obtain rfl := Option.some.inj h
        exact List.not_mem_nil
      · obtain rfl := Option.some.inj h
        rw [List.mem_singleton]
        nofun

/-- What a stream appends to the sink is the named instrument it read from the message. -/
private theorem getInstrumentFromJson_of_append {s : KucoinStream} {r : Result}
    (h : s.interpretGenericMessages parse stod str = some r) {inst : InstrumentType}
    (hinst : .append inst ∈ r.2.1) :
    getInstrumentFromJson parse stod str s.tradeType = .ok inst ∧ inst.name ≠ [] := by
  unfold KucoinStream.interpretGenericMessages at h
  split at h
  · obtain rfl := Option.some.inj h
    cases List.mem_singleton.mp hinst
  · next read hread =>
    obtain ⟨sent, hsent, rfl⟩ := Option.map_eq_some_iff.mp h
    have hnone : .append inst ∉ sent.2.1 := by
      split at hsent
      · exact append_not_mem_sendTickerSubscription hsent inst
      · obtain rfl := Option.some.inj hsent
        exact List.not_mem_nil
    have happend := (List.mem_append.mp hinst).resolve_right hnone
    split at happend
    · cases happend
    · next hname =>
      cases List.mem_singleton.mp happend
      exact ⟨hread, fun hnil ↦ hname (List.isEmpty_iff.mpr hnil)⟩

/-- The instruments read from a message have the price that the message states, for every text
but a spot message with a subject whose price is neither text nor a number. -/
theorem pricedByMessage_iff (parse : JsonParse) (stod : Bytes → Except StdException ℚ)
    (str : Bytes) (tradeType : TradeType) :
    PricedByMessage parse stod str tradeType ↔ ¬(tradeType = .spot ∧ UnreadPrice parse str) := by
  constructor
  · rintro ⟨hread, -⟩ ⟨rfl, hunread⟩
    obtain ⟨inst, hinst, hname, hprice⟩ := getInstrumentFromJson_unread stod hunread
    exact hprice (hread inst hinst hname)
  · intro hnot
    have hread : ∀ inst, getInstrumentFromJson parse stod str tradeType = .ok inst →
        inst.name ≠ [] → MessagePrice parse stod str tradeType inst.currentPrice :=
      fun inst h hname ↦ (getInstrumentFromJson_eq_ok h hname).resolve_right hnot
    refine ⟨hread, ?_⟩
    rintro s r rfl h inst hinst
    obtain ⟨hget, hname⟩ := getInstrumentFromJson_of_append h hinst
    exact hread inst hget hname

/-- A ticker message without a price. -/
def nullPriceText : Bytes :=
  bytes "\x7b\"subject\":\"BTC-USDT\",\"data\":\x7b\"price\":null\x7d\x7d"

/-- `json::parse` of that message. -/
def parseNullPrice : JsonParse := fun text ↦
  if text = nullPriceText then
    .ok (.object [(bytes "data", .object [(bytes "price", .null)]),
      (bytes "subject", .string (bytes "BTC-USDT"))])
  else .error .parseError

/-- A spot message with the price null puts the instrument into the sink at the price zero. -/
theorem not_pricedByMessage_null :
    ¬PricedByMessage parseNullPrice (fun _ ↦ .error .invalidArgument)
      nullPriceText .spot := by
  rintro ⟨hread, -⟩
  obtain ⟨_, _, hparse, hdata, value, hvalue, hstands⟩ := hread
    { name := bytes "BTC-USDT", currentPrice := 0, tradeType := .spot } rfl (by decide)
  cases hparse
  cases hdata
  cases hvalue
  cases hstands with
  | number h => cases h

end KeepMyJournal.PriceMonitor.Kucoin
