import KeepMyJournal.Common.Tasks

/-!
# Sending the prices on

The loop of `store_exchanges_price_into_storage`
(`price_monitor/src/external_messaging_stream.cpp:34–49`) and what a receiver reads of its
messages (`http_stream/src/latest_prices_watcher.cpp:36–59`). The serial buffer is kept over the
iterations and cleared after a message that was sent. The MessagePack functions are parameters.
-/

namespace KeepMyJournal.PriceMonitor

open KeepMyJournal.Base KeepMyJournal.Common

/-- One iteration: the instrument taken from the sink, and whether `send` returns a size. -/
structure Iteration where
  instrument : InstrumentType
  sent : Bool
  deriving DecidableEq, Repr

/-- A message that is handed to the socket, with its iteration. -/
structure Message where
  iteration : Iteration
  view : Bytes
  deriving DecidableEq, Repr

variable (pack : InstrumentType → Bytes) (unpack : Bytes → Option InstrumentType)

/-- The loop of `store_exchanges_price_into_storage`, with what `serialBuffer` holds;
`msgpack::pack` appends to it. -/
def storeExchangesPrice (serialBuffer : Bytes) : List Iteration → List Message
  | [] => []
  | it :: iterations =>
    let serialBuffer := serialBuffer ++ pack it.instrument
    { iteration := it, view := serialBuffer } ::
      storeExchangesPrice (if it.sent then [] else serialBuffer) iterations

/-- The message is the encoding of the instrument of its iteration, and if it is sent, that is
the first object a receiver unpacks. -/
def Message.IsLive (message : Message) : Prop :=
  message.view = pack message.iteration.instrument ∧
    (message.iteration.sent = true → unpack message.view = some message.iteration.instrument)

/-- Every message of a run of the loop is live. -/
def Live (iterations : List Iteration) : Prop :=
  ∀ message ∈ storeExchangesPrice pack [] iterations, message.IsLive pack unpack

instance (message : Message) : Decidable (message.IsLive pack unpack) := by
  unfold Message.IsLive
  infer_instance

instance (iterations : List Iteration) : Decidable (Live pack unpack iterations) := by
  unfold Live
  infer_instance

variable {pack unpack}

/-- The messages from an iteration on are live if and only if nothing is left over in the buffer,
where there is a message, and every send but the last succeeds. -/
private theorem isLive_iff {serialBuffer : Bytes} {iterations : List Iteration}
    (hpack : ∀ it ∈ iterations, pack it.instrument ≠ [])
    (hunpack : ∀ it ∈ iterations, ∀ rest,
      unpack (pack it.instrument ++ rest) = some it.instrument) :
    (∀ message ∈ storeExchangesPrice pack serialBuffer iterations, message.IsLive pack unpack) ↔
      (iterations ≠ [] → serialBuffer = []) ∧ ∀ it ∈ iterations.dropLast, it.sent = true := by
  induction iterations generalizing serialBuffer with
  | nil => simp [storeExchangesPrice]
  | cons it iterations ih =>
    obtain ⟨hfirst, hpack⟩ := List.forall_mem_cons.mp hpack
    obtain ⟨hread, hunpack⟩ := List.forall_mem_cons.mp hunpack
    have hhead : Message.IsLive pack unpack
        { iteration := it, view := serialBuffer ++ pack it.instrument } ↔ serialBuffer = [] := by
      unfold Message.IsLive
      rw [List.append_left_eq_self, and_iff_left_iff_imp]
      rintro rfl _
      rw [← hread [], List.append_nil, List.nil_append]
    have hkept : (if it.sent then [] else serialBuffer ++ pack it.instrument) = [] ↔
        it.sent = true := by
      cases it.sent with
      | true => exact iff_of_true rfl rfl
      | false =>
        refine iff_of_false ?_ nofun
        intro h
        exact hfirst (List.append_eq_nil_iff.mp h).2
    unfold storeExchangesPrice
    rw [List.forall_mem_cons, hhead, ih hpack hunpack, hkept]
    cases iterations with
    | nil => simp
    | cons next iterations =>
      rw [List.dropLast_cons_of_ne_nil (List.cons_ne_nil _ _), List.forall_mem_cons]
      simp

/-- In every run of the loop, each message is the encoding of the instrument taken in its
iteration, and is read as that instrument if it is sent, if and only if every `send` but the
last succeeds. -/
theorem messages_live_iff (pack : InstrumentType → Bytes)
    (unpack : Bytes → Option InstrumentType) (iterations : List Iteration)
    (hpack : ∀ it ∈ iterations, pack it.instrument ≠ [])
    (hunpack : ∀ it ∈ iterations, ∀ rest,
      unpack (pack it.instrument ++ rest) = some it.instrument) :
    Live pack unpack iterations ↔ ∀ it ∈ iterations.dropLast, it.sent = true := by
  unfold Live
  rw [isLive_iff hpack hunpack, and_iff_right (fun _ ↦ rfl)]

/-! ### Two instruments -/

/-- A spot instrument at a half, a quarter a day ago. -/
def halfPriced (name : Bytes) : InstrumentType :=
  { name := name, currentPrice := 1 / 2, open24h := 1 / 4, tradeType := .spot }

/-- The bytes of such an instrument with a name of three bytes: an array of four, the string,
two doubles and an integer. -/
def packHalfPriced (instr : InstrumentType) : Bytes :=
  [0x94, 0xa3] ++ instr.name ++
    [0xcb, 0x3f, 0xe0, 0, 0, 0, 0, 0, 0, 0xcb, 0x3f, 0xd0, 0, 0, 0, 0, 0, 0, 0x01]

/-- What is read back of such bytes. -/
def unpackHalfPriced (view : Bytes) : Option InstrumentType :=
  ["BTC", "ETH"].map (fun name ↦ halfPriced (bytes name)) |>.find? fun instr ↦
    (packHalfPriced instr).isPrefixOf view

private theorem unpackHalfPriced_pack {name : String} (h : name = "BTC" ∨ name = "ETH")
    (rest : Bytes) : unpackHalfPriced (packHalfPriced (halfPriced (bytes name)) ++ rest) =
      some (halfPriced (bytes name)) := by
  rcases h with rfl | rfl
  · rfl
  · rfl

/-- With the first message sent both are live. -/
theorem messages_live_lastFails :
    Live packHalfPriced unpackHalfPriced
      [⟨halfPriced (bytes "BTC"), true⟩, ⟨halfPriced (bytes "ETH"), false⟩] := by
  refine (messages_live_iff packHalfPriced unpackHalfPriced _ (by decide) ?_).mpr (by decide)
  intro it hit rest
  rw [List.mem_cons, List.mem_singleton] at hit
  rcases hit with rfl | rfl
  · exact unpackHalfPriced_pack (.inl rfl) rest
  · exact unpackHalfPriced_pack (.inr rfl) rest

/-- After a message that was not sent, the next one still begins with its instrument. -/
theorem not_messages_live_firstFails :
    ¬Live packHalfPriced unpackHalfPriced
      [⟨halfPriced (bytes "BTC"), false⟩, ⟨halfPriced (bytes "ETH"), true⟩] := by
  decide +kernel

end KeepMyJournal.PriceMonitor
