import KeepMyJournal.HttpStream.PriceServices
import KeepMyJournal.HttpStream.Session

/-!
# The latest price of an instrument

The spellings of a request under which `latest_price_handler`,
`http_stream/src/session.cpp:352–379`, finds a cached instrument.
-/

namespace KeepMyJournal.HttpStream

open KeepMyJournal.Base KeepMyJournal.Common
open Handling

/-! ### Spellings -/

/-- The strings differ in letter case at most. -/
def SameLetters (a b : Bytes) : Prop := toLowerCopy a = toLowerCopy b

instance (a b : Bytes) : Decidable (SameLetters a b) :=
  inferInstanceAs (Decidable (toLowerCopy a = toLowerCopy b))

private theorem toUpper_toLower (b : UInt8) : toUpper (toLower b) = toUpper b := by
  have hall : ∀ n : Fin 256, toUpper (toLower (.ofNat n)) = toUpper (.ofNat n) := by
    decide +kernel
  have hb := hall ⟨b.toNat, b.toNat_lt⟩
  rwa [UInt8.ofNat_toNat] at hb

private theorem isSpace_toUpper (b : UInt8) : isSpace (toUpper b) = isSpace b := by
  have hall : ∀ n : Fin 256, isSpace (toUpper (.ofNat n)) = isSpace (.ofNat n) := by
    decide +kernel
  have hb := hall ⟨b.toNat, b.toNat_lt⟩
  rwa [UInt8.ofNat_toNat] at hb

/-- Two such strings are one string in upper case. -/
theorem SameLetters.toUpperCopy_eq {a b : Bytes} (h : SameLetters a b) :
    toUpperCopy a = toUpperCopy b := by
  have hupper : ∀ s : Bytes, toUpperCopy (toLowerCopy s) = toUpperCopy s := by
    intro s
    rw [toUpperCopy, toLowerCopy, List.map_map]
    exact List.map_congr_left fun b _ ↦ toUpper_toLower b
  rw [← hupper a, h, hupper]

private theorem dropWhile_toUpperCopy (s : Bytes) :
    (toUpperCopy s).dropWhile isSpace = toUpperCopy (s.dropWhile isSpace) := by
  induction s with
  | nil => rfl
  | cons b s ih =>
    rw [toUpperCopy] at ih ⊢
    rw [List.map_cons, List.dropWhile_cons, List.dropWhile_cons, isSpace_toUpper, ih]
    split
    · rfl
    · rfl

/-- Upper-case letters are no more whitespace than lower-case letters. -/
theorem trim_toUpperCopy (s : Bytes) : trim (toUpperCopy s) = toUpperCopy (trim s) := by
  have hreverse : ∀ s : Bytes, (toUpperCopy s).reverse = toUpperCopy s.reverse :=
    fun s ↦ List.map_reverse.symm
  rw [trim, trim, ltrim, ltrim, rtrim, rtrim, dropWhile_toUpperCopy, List.rdropWhile, hreverse,
    dropWhile_toUpperCopy, hreverse, List.rdropWhile]

/-- Nothing longer is left. -/
theorem trim_sublist (s : Bytes) : (trim s).Sublist s :=
  (List.rdropWhile_prefix isSpace (s.dropWhile isSpace)).sublist.trans
    (List.dropWhile_sublist isSpace)

/-- The exchange is read from every spelling of its name. -/
theorem stringToExchange_of_sameLetters {text : Bytes} {exchange : Exchange}
    (h : SameLetters text (exchangesToString exchange)) :
    stringToExchange (toLowerCopy text) = exchange := by
  rw [h]
  cases exchange <;> rfl

/-- The trade type is read from every spelling of its name. -/
theorem stringToTradeType_of_sameLetters {text : Bytes} {tradeType : TradeType}
    (h : SameLetters text (tradeTypeToString tradeType)) :
    stringToTradeType (toLowerCopy text) = tradeType := by
  rw [h]
  cases tradeType <;> rfl

/-! ### The handler -/

variable {σ : Type} (world : World σ) (s : Session σ)

/-- The only response is the instrument as it is cached. -/
def AnswersWith (handling : Handling σ Unit) (s : Session σ) (instr : InstrumentType) : Prop :=
  handling s = (.ok (), { s with responses := s.responses ++ [.json 200 instr.toJson] })

private theorem response_eq {response : Response} {instr : InstrumentType} {t : Session σ}
    (h : (Except.ok (), { s with responses := s.responses ++ [response] }) =
      ((.ok (), { t with responses := s.responses ++ [.json 200 instr.toJson] }) :
        Except Exception Unit × Session σ)) : response = .json 200 instr.toJson := by
  have hresponses := congrArg (fun r ↦ r.2.responses) h
  exact List.singleton_inj.mp (List.append_cancel_left hresponses)

/-- Instruments that are written the same have the same name. -/
private theorem name_eq_of_toJson {a b : InstrumentType} (h : a.toJson = b.toJson) :
    a.name = b.name := by
  simp only [InstrumentType.toJson, Json.object.injEq, List.cons.injEq, Prod.mk.injEq,
    Json.string.injEq] at h
  exact h.1.2

private theorem dumps_of_sendSuccess {body : Json} {t : Session σ}
    (h : sendSuccess body s = (.ok (), t)) : body.dumps = true := by
  by_contra hdumps
  unfold sendSuccess jsonSuccess at h
  rw [if_neg hdumps] at h
  cases congrArg Prod.fst h

section Query

variable {query : UrlQuery} {symbol exchangeText trade : Bytes}
  (hsymbol : query[bytes "symbol"]? = some symbol)
  (hexchange : query[bytes "exchange"]? = some exchangeText)
  (htrade : query[bytes "trade"]? = some trade)
include hsymbol hexchange htrade

/-- What is answered with an instrument has the name that the symbol is in upper case. -/
private theorem of_answersWith {instr : InstrumentType}
    (h : AnswersWith (latestPriceHandler world query) s instr) :
    toUpperCopy symbol = instr.name ∧ instr.name ≠ [] ∧
      stringToExchange (toLowerCopy exchangeText) ≠ .total ∧
      stringToTradeType (toLowerCopy trade) ≠ .total ∧ Json.isUtf8 instr.name = true := by
  unfold AnswersWith latestPriceHandler at h
  simp only [hsymbol, hexchange, htrade] at h
  by_cases hmalformed : (trimCopy (toUpperCopy symbol)).isEmpty ∨
      stringToExchange (toLowerCopy exchangeText) = .total ∨
      stringToTradeType (toLowerCopy trade) = .total
  · rw [if_pos hmalformed] at h
    cases response_eq s h
  · rw [if_neg hmalformed] at h
    simp only [not_or, List.isEmpty_iff, trimCopy] at hmalformed
    obtain ⟨hne, hex, htr⟩ := hmalformed
    cases hfound : (world.uniqueInstruments (stringToExchange (toLowerCopy exchangeText))).findItem
        { name := toUpperCopy symbol, tradeType := stringToTradeType (toLowerCopy trade) } with
    | none =>
      simp only [trimCopy, hfound] at h
      rw [sendSuccess_of_dumps (show (Json.text "not found").dumps = true from rfl)] at h
      cases response_eq s h
    | some result =>
      simp only [trimCopy, hfound] at h
      obtain ⟨-, hkey⟩ := (UniqueElements.findItem_eq_some_iff _ _ result).mp hfound
      have hname : result.name = toUpperCopy symbol := congrArg Prod.fst hkey
      have hdumps := dumps_of_sendSuccess s h
      rw [InstrumentType.dumps_toJson] at hdumps
      rw [sendSuccess_of_dumps (by rwa [InstrumentType.dumps_toJson])] at h
      have hsame : result.name = instr.name :=
        name_eq_of_toJson (Response.json.inj (response_eq s h)).2
      rw [← hsame]
      exact ⟨hname.symm, hname ▸ hne, hex, htr, hdumps⟩

/-- An instrument with the symbol in upper case as its name is found. -/
private theorem answersWith_of_name {instr : InstrumentType}
    (hcached : instr ∈
      (world.uniqueInstruments (stringToExchange (toLowerCopy exchangeText))).toList)
    (hname : toUpperCopy symbol = instr.name)
    (htype : stringToTradeType (toLowerCopy trade) = instr.tradeType) (hne : instr.name ≠ [])
    (hex : stringToExchange (toLowerCopy exchangeText) ≠ .total)
    (htr : instr.tradeType ≠ .total) (hutf : Json.isUtf8 instr.name = true) :
    AnswersWith (latestPriceHandler world query) s instr := by
  have hfound : (world.uniqueInstruments (stringToExchange (toLowerCopy exchangeText))).findItem
      { name := instr.name, tradeType := instr.tradeType } = some instr :=
    (UniqueElements.findItem_eq_some_iff _ _ instr).mpr ⟨hcached, rfl⟩
  unfold AnswersWith latestPriceHandler
  simp only [hsymbol, hexchange, htrade]
  rw [if_neg (by simp [trimCopy, hname, htype, hne, hex, htr])]
  simp only [trimCopy, hname, htype, hfound]
  exact sendSuccess_of_dumps (by rwa [InstrumentType.dumps_toJson])

end Query

/-- A cached instrument whose name has no lower-case letters and no whitespace at its ends is
asked for under any spelling of its exchange and its trade type, and under any spelling of its
symbol with whitespace around it. It is answered with exactly if there is no such whitespace, the
name is UTF-8 and not empty, and the exchange and the trade type are none of the sentinels. -/
theorem latestPriceHandler_answersWith_iff {query : UrlQuery} {symbol exchangeText trade : Bytes}
    (hsymbol : query[bytes "symbol"]? = some symbol)
    (hexchange : query[bytes "exchange"]? = some exchangeText)
    (htrade : query[bytes "trade"]? = some trade) {exchange : Exchange} {instr : InstrumentType}
    (hcached : instr ∈ (world.uniqueInstruments exchange).toList)
    (hupper : toUpperCopy instr.name = instr.name) (htrim : trim instr.name = instr.name)
    (hname : SameLetters (trim symbol) instr.name)
    (hexchangeName : SameLetters exchangeText (exchangesToString exchange))
    (htradeName : SameLetters trade (tradeTypeToString instr.tradeType)) :
    AnswersWith (latestPriceHandler world query) s instr ↔
      trim symbol = symbol ∧ instr.name ≠ [] ∧ exchange ≠ .total ∧ instr.tradeType ≠ .total ∧
        Json.isUtf8 instr.name = true := by
  have hex := stringToExchange_of_sameLetters hexchangeName
  have htr := stringToTradeType_of_sameLetters htradeName
  constructor
  · intro h
    obtain ⟨hsame, hne, hexchange', htrade', hutf⟩ :=
      of_answersWith world s hsymbol hexchange htrade h
    refine ⟨?_, hne, hex ▸ hexchange', htr ▸ htrade', hutf⟩
    -- the trimmed symbol is as long as the symbol
    have hlength := congrArg List.length (trim_toUpperCopy symbol)
    rw [hsame, htrim, ← hsame, toUpperCopy, toUpperCopy, List.length_map, List.length_map]
      at hlength
    exact (trim_sublist symbol).eq_of_length hlength.symm
  · rintro ⟨htrimmed, hne, hexchange', htrade', hutf⟩
    rw [htrimmed] at hname
    refine answersWith_of_name world s hsymbol hexchange htrade ?_ ?_ htr hne ?_ htrade' hutf
    · rwa [hex]
    · rw [hname.toUpperCopy_eq, hupper]
    · rwa [hex]

/-- A spot instrument. -/
private def btcUsdt : InstrumentType :=
  { name := bytes "BTC-USDT", currentPrice := 100, open24h := 90, tradeType := .spot }

/-- A server that has cached it for KuCoin. -/
private def kucoinWorld : World Services where
  parse _ := .error .parseError
  past _ := 0
  uniqueInstruments
    | .kucoin => UniqueElements.empty.insert btcUsdt
    | _ => .empty
  proxies := Services.proxies { outcome := fun _ ↦ .scheduled, cache := fun _ _ ↦ default }
  queueAccountStreamTasks _ := pure none

private def noTasks : Session Services where
  process := { services := { time := ∅, progress := ∅ } }

/-- The query for a spot price at KuCoin. -/
private def spotQuery (symbol : Bytes) : UrlQuery :=
  .ofList
    [(bytes "symbol", symbol), (bytes "exchange", bytes "KuCoin"), (bytes "trade", bytes "Spot")]

private theorem btcUsdt_cached :
    btcUsdt ∈ (kucoinWorld.uniqueInstruments .kucoin).toList ∧
      toUpperCopy btcUsdt.name = btcUsdt.name ∧ trim btcUsdt.name = btcUsdt.name :=
  ⟨List.mem_singleton_self btcUsdt, rfl, rfl⟩

theorem latestPriceHandler_lowerCase :
    AnswersWith (latestPriceHandler kucoinWorld (spotQuery (bytes "btc-usdt"))) noTasks
      btcUsdt := by
  have hquery : (spotQuery (bytes "btc-usdt"))[bytes "symbol"]? = some (bytes "btc-usdt") ∧
      (spotQuery (bytes "btc-usdt"))[bytes "exchange"]? = some (bytes "KuCoin") ∧
      (spotQuery (bytes "btc-usdt"))[bytes "trade"]? = some (bytes "Spot") :=
    ⟨rfl, rfl, rfl⟩
  obtain ⟨hcached, hupper, htrim⟩ := btcUsdt_cached
  exact (latestPriceHandler_answersWith_iff kucoinWorld noTasks hquery.1 hquery.2.1 hquery.2.2
    hcached hupper htrim rfl rfl rfl).mpr
    ⟨rfl, List.cons_ne_nil _ _, nofun, nofun, rfl⟩

/-- With a space in front of its symbol the instrument is not found. -/
theorem not_answersWith_padded :
    ¬∀ (world : World Services) (s : Session Services) (query : UrlQuery)
      (symbol exchangeText trade : Bytes) (exchange : Exchange) (instr : InstrumentType),
      query[bytes "symbol"]? = some symbol → query[bytes "exchange"]? = some exchangeText →
      query[bytes "trade"]? = some trade → instr ∈ (world.uniqueInstruments exchange).toList →
      toUpperCopy instr.name = instr.name → trim instr.name = instr.name →
      SameLetters (trim symbol) instr.name →
      SameLetters exchangeText (exchangesToString exchange) →
      SameLetters trade (tradeTypeToString instr.tradeType) →
      AnswersWith (latestPriceHandler world query) s instr := by
  intro h
  have hquery : (spotQuery (bytes " btc-usdt"))[bytes "symbol"]? = some (bytes " btc-usdt") ∧
      (spotQuery (bytes " btc-usdt"))[bytes "exchange"]? = some (bytes "KuCoin") ∧
      (spotQuery (bytes " btc-usdt"))[bytes "trade"]? = some (bytes "Spot") :=
    ⟨rfl, rfl, rfl⟩
  obtain ⟨hcached, hupper, htrim⟩ := btcUsdt_cached
  obtain ⟨hname, -⟩ := of_answersWith kucoinWorld noTasks hquery.1 hquery.2.1 hquery.2.2
    (h kucoinWorld noTasks _ _ _ _ .kucoin btcUsdt hquery.1 hquery.2.1 hquery.2.2 hcached hupper
      htrim rfl rfl rfl)
  revert hname
  decide +kernel

end KeepMyJournal.HttpStream
