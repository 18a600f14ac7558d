import KeepMyJournal.HttpStream.Contracts
import KeepMyJournal.HttpStream.TaskBatch

/-!
# What is listed for a contract

A contract of `POST /add_pricing_tasks` becomes a task, is checked, crosses the bus to the
service that keeps it, and crosses it back when the tasks of its user are listed as JSON
(`http_stream/src/session.cpp:554–632`, `common/src/json_utils.cpp:9–27`). The listing shows
what was submitted, in the server's units and spelling.
-/

namespace KeepMyJournal.HttpStream

open KeepMyJournal.Base KeepMyJournal.Common

/-- The request is answered as accepted. -/
def Accepts {σ : Type} (world : World σ) (request : Request) (s : Session σ) : Prop :=
  ∃ members : Json.Object,
    (addNewPricingTasks world request s).2.responses =
        s.responses ++ [.json 200 (.object members)] ∧
      members.find (bytes "status") = some (.numberInteger ErrorType.noError.toInt64)

/-- The body of the request carries these contracts for this user. -/
def Submits {σ : Type} (world : World σ) (request : Request) (userId : Bytes)
    (contracts : List Json.Object) : Prop :=
  ∃ root : Json.Object, parseBody world request = .ok root ∧
    root.find (bytes "user_id") = some (.string userId) ∧
    root.find (bytes "contracts") = some (.array (contracts.map .object))

/-- An interval, if the contract has one, is a positive integer whose milliseconds fit in 63
bits. -/
def IntervalInRange (contract : Json.Object) : Prop :=
  (contract.find (bytes "intervals")).isSome →
    ∃ n unit, AsksInterval contract n unit ∧ 0 < n ∧ n * inMilliseconds unit < 2 ^ 63

/-- The listed object carries what the contract says. -/
structure Carries (contract listed : Json.Object) : Prop where
  exchange : ∃ text, contract.find (bytes "exchange") = some (.string text) ∧
    listed.find (bytes "exchange") = some (.string text)
  tradeType : ∃ text, contract.find (bytes "trade") = some (.string text) ∧
    listed.find (bytes "trade_type") =
      some (.string (if text = bytes "future" then bytes "futures" else text))
  symbols : ∃ names sorted : List Bytes,
    contract.find (bytes "symbols") = some (.array (names.map .string)) ∧
      listed.find (bytes "symbols") = some (.array (sorted.map .string)) ∧
      sorted.Perm (names.map toUpperCopy) ∧ sorted.Pairwise (fun a b ↦ (compare a b).isLE)
  interval : ∀ n unit, AsksInterval contract n unit →
    listed.find (bytes "duration") = some (.text "seconds") ∧
      ∃ intervals : Int64, listed.find (bytes "intervals") = some (.numberInteger intervals) ∧
        intervals.toInt = n * inSeconds unit
  percentage : contract.find (bytes "intervals") = none →
    ∃ value percentage direction, contract.find (bytes "percentage") = some value ∧
      value.getNumberFloat = .ok percentage ∧
      contract.find (bytes "direction") = some (.string direction) ∧
      listed.find (bytes "percentage") = some (.numberFloat (min |percentage| 100)) ∧
      listed.find (bytes "direction") = some (.string (toLowerCopy direction))

/-- What the listing shows of a task that a service keeps. -/
def shown : PriceService → ScheduledPriceTask → Json
  | .time, kept => (timePart kept).toJson
  | .progress, kept => (progressPart kept).toJson

/-- The services keep a task for each contract of the request, and what they show of it, then
and later, carries the contract. -/
def ListsContracts (world : World Services) (env : Environment) (request : Request)
    (s : Session Services) : Prop :=
  let s' := (addNewPricingTasks { world with proxies := Services.proxies env } request s).2
  ∃ (userId : Bytes) (contracts : List Json.Object)
    (kept : List (PriceService × ScheduledPriceTask)),
    Submits world request userId contracts ∧
      (∀ svc, s'.process.services.tasks svc userId =
        s.process.services.tasks svc userId ++ (kept.filter (fun k ↦ k.1 = svc)).map Prod.snd) ∧
      (∀ (later : Environment) (p : HttpProcess Services),
        ∃ taskList, getPriceTasksForUser (Services.proxies later) userId p = (.ok taskList, p) ∧
          taskList.map ScheduledPriceTask.toJson =
            (p.services.tasks .time userId).map (shown .time) ++
              (p.services.tasks .progress userId).map (shown .progress)) ∧
      List.Forall₂ (fun contract k ↦ IntervalInRange contract →
          ∃ listed, shown k.1 k.2 = .object listed ∧ Carries contract listed)
        contracts kept

/-! ### The spelling of enumerations -/

private theorem exchangesToString_stringToExchange {text : Bytes}
    (h : stringToExchange text ≠ .total) : exchangesToString (stringToExchange text) = text := by
  unfold stringToExchange at h ⊢
  split
  · next hbinance => exact hbinance.symm
  · split
    · next hkucoin => exact hkucoin.symm
    · split
      · next hokex => exact hokex.symm
      · next hbinance hkucoin hokex =>
        rw [if_neg hbinance, if_neg hkucoin, if_neg hokex] at h
        exact absurd rfl h

private theorem tradeTypeToString_stringToTradeType {text : Bytes}
    (h : stringToTradeType text ≠ .total) :
    tradeTypeToString (stringToTradeType text) =
      if text = bytes "future" then bytes "futures" else text := by
  have hknown : text = bytes "futures" ∨ text = bytes "future" ∨ text = bytes "spot" ∨
      text = bytes "swap" := by
    by_contra hunknown
    simp only [not_or] at hunknown
    obtain ⟨hfutures, hfuture, hspot, hswap⟩ := hunknown
    unfold stringToTradeType at h
    rw [if_neg (not_or.mpr ⟨hfutures, hfuture⟩), if_neg hspot, if_neg hswap] at h
    exact h rfl
  rcases hknown with rfl | rfl | rfl | rfl
  · rfl
  · rfl
  · rfl
  · rfl

/-! ### The percentage -/

private theorem eq_down {text : Bytes} (h : stringToPriceDirection text = .down) :
    text = bytes "down" := by
  unfold stringToPriceDirection at h
  split at h
  · cases h
  · split at h
    · assumption
    · cases h

private theorem eq_up {text : Bytes} (hvalid : stringToPriceDirection text ≠ .invalid)
    (hdown : stringToPriceDirection text ≠ .down) : text = bytes "up" := by
  unfold stringToPriceDirection at hvalid hdown
  split at hvalid
  · assumption
  · next hup =>
    rw [if_neg hup] at hdown
    split at hvalid
    · next h => exact absurd (if_pos h) hdown
    · exact absurd rfl hvalid

/-- A percentage that is read has the sign of its direction and the size that was submitted. -/
private theorem readPercentage_of_ok {contract : Json.Object} {value : Json}
    {prop : PercentageBasedProperty} (h : readPercentage contract value = .ok prop) :
    ∃ percentage direction, value.getNumberFloat = .ok percentage ∧
      contract.find (bytes "direction") = some (.string direction) ∧
      |prop.percentage| = |percentage| ∧
      toLowerCopy direction = if prop.percentage < 0 then bytes "down" else bytes "up" := by
  unfold readPercentage at h
  split at h
  · cases h
  · next direction hdirection =>
    obtain ⟨percentage, hpercentage, hread⟩ := of_bind_eq_ok h
    obtain ⟨text, htext, hbuilt⟩ := of_bind_eq_ok hread
    have hstring := Json.getString_eq_ok_iff.mp (of_mapError_eq_ok htext)
    rw [hstring] at hdirection
    refine ⟨percentage, text, of_mapError_eq_ok hpercentage, hdirection, ?_⟩
    dsimp only at hbuilt
    split at hbuilt
    · cases hbuilt
    · next hvalid =>
      split at hbuilt
      · next hdown =>
        split at hbuilt
        · cases hbuilt
        · next hzero =>
          obtain rfl := Except.ok.inj hbuilt
          have hneg : |percentage| * -1 < 0 := by
            have hne : |percentage| ≠ 0 := fun h0 ↦ hzero (by rw [h0, zero_mul])
            have hpos := lt_of_le_of_ne (abs_nonneg percentage) hne.symm
            linarith
          refine ⟨?_, by rw [if_pos hneg]; exact eq_down hdown⟩
          dsimp only
          rw [mul_neg_one, abs_neg, abs_abs]
      · next hup =>
        split at hbuilt
        · cases hbuilt
        · obtain rfl := Except.ok.inj hbuilt
          refine ⟨abs_abs percentage, ?_⟩
          rw [if_neg (not_lt.mpr (abs_nonneg percentage))]
          exact eq_up hvalid hup

/-! ### One contract -/

/-- The seconds that are shown are those of the interval. -/
private theorem toInt_seconds {timeMS : UInt64} {n : Int} {unit : DurationUnit}
    (htime : (timeMS.toNat : Int) = n * inMilliseconds unit)
    (hsmall : n * inMilliseconds unit < 2 ^ 63) :
    (timeMS.toInt64 / 1000).toInt = n * inSeconds unit := by
  have hsigned : timeMS.toInt64.toInt = n * inMilliseconds unit := by
    rw [← Int64.toInt_toBitVec, UInt64.toBitVec_toInt64, BitVec.toInt_eq_toNat_cond,
      UInt64.toNat_toBitVec, if_pos (by omega), htime]
  rw [Int64.toInt_div_of_ne_right _ _ (by decide), hsigned]
  change (n * (inSeconds unit * 1000)).tdiv 1000 = _
  rw [← mul_assoc]
  exact Int.mul_tdiv_cancel _ (by decide)

/-- What an accepted contract has become shows what it said. -/
private theorem carries_of_readFrom {userId requestId : Bytes} {contract : Json.Object}
    {task task' : ScheduledPriceTask} (hfrom : ReadFrom userId requestId contract task)
    (hcheck : passedValidTaskCheck task = (true, task')) (hrange : IntervalInRange contract) :
    ∃ listed, task'.toJson = .object listed ∧ Carries contract listed := by
  obtain ⟨rfl, hset, -⟩ := passedValidTaskCheck_of_true hcheck
  obtain ⟨hexchange, htrade⟩ := known_of_passedValidTaskCheck hcheck
  obtain ⟨names, hnames, htokens⟩ := hfrom.symbols
  obtain ⟨trade, htradeText, htradeType⟩ := hfrom.tradeType
  obtain ⟨exchange, hexchangeText, hexchangeValue⟩ := hfrom.exchange
  have hexchangeName : exchangesToString task.exchange = exchange := by
    rw [hexchangeValue] at hexchange ⊢
    exact exchangesToString_stringToExchange hexchange
  have htradeName : tradeTypeToString task.tradeType =
      if trade = bytes "future" then bytes "futures" else trade := by
    rw [htradeType] at htrade ⊢
    exact tradeTypeToString_stringToTradeType htrade
  have hsorted : (sortTokens task.tokens).Perm (names.map toUpperCopy) := by
    rw [← htokens]
    exact perm_sortTokens task.tokens
  obtain ⟨listed, hlisted, hexchangeShown, htradeShown, hsymbolsShown, htimeShown,
    hpercentShown⟩ := (normalised task).toJson_members
  refine ⟨listed, hlisted, ⟨exchange, hexchangeText, hexchangeName ▸ hexchangeShown⟩,
    ⟨trade, htradeText, htradeName ▸ htradeShown⟩,
    ⟨names, sortTokens task.tokens, hnames, hsymbolsShown, hsorted, pairwise_sortTokens _⟩, ?_, ?_⟩
  · intro n unit hasks
    obtain ⟨intervals, hintervals, -⟩ := Option.bind_eq_some_iff.mp hasks.intervals
    obtain ⟨n', unit', hasks', hpos, hsmall⟩ := hrange (by rw [hintervals]; rfl)
    obtain ⟨rfl, rfl⟩ := hasks.unique hasks'
    obtain ⟨prop, hprop, htime, -⟩ := hfrom.interval intervals hintervals
    obtain ⟨hduration, hseconds⟩ := htimeShown prop htime
    refine ⟨hduration, _, hseconds, toInt_seconds ?_ hsmall⟩
    have hunit := unit_of_readInterval hasks hprop
    have hn : n * 1 ≤ n * inMilliseconds unit :=
      Int.mul_le_mul_of_nonneg_left (by unfold inMilliseconds; omega) hpos.le
    have hms := (readInterval_of_asks hasks (by omega) (by omega) hintervals hprop).1
    rw [hms]
    exact Int.emod_eq_of_lt (by omega) (by omega)
  · intro hintervals
    obtain ⟨htime, hpercentage⟩ := hfrom.percentage hintervals
    obtain ⟨prop, hpercent⟩ : ∃ prop, task.percentProp = some prop :=
      Option.isSome_iff_exists.mp (hset.resolve_right (by rw [htime]; simp))
    obtain ⟨value, hvalue, hread⟩ := hpercentage prop hpercent
    obtain ⟨percentage, direction, hnumber, hdirection, habs, hlower⟩ := readPercentage_of_ok hread
    obtain ⟨hdirectionShown, hpercentageShown⟩ := hpercentShown
      { prop with percentage := clampPercentage prop.percentage } htime
      (congrArg (Option.map _) hpercent)
    refine ⟨value, percentage, direction, hvalue, hnumber, hdirection, ?_, ?_⟩
    · rw [hpercentageShown, abs_clampPercentage, habs]
    · rw [hdirectionShown, hlower]
      by_cases hneg : prop.percentage < 0
      · rw [if_pos ((clampPercentage_neg_iff _).mpr hneg), if_pos hneg]
        rfl
      · rw [if_neg (fun h ↦ hneg ((clampPercentage_neg_iff _).mp h)), if_neg hneg]
        rfl

/-! ### The request -/

private theorem find_status {scheduled : Bool} {tasks : List ScheduledPriceTask}
    {requestId : Bytes} {members : Json.Object}
    (h : pricingResult scheduled tasks requestId = .object members) :
    members.find (bytes "status") =
      some (.numberInteger (if scheduled then ErrorType.noError else .badRequest).toInt64) := by
  obtain rfl := Json.object.inj h
  cases scheduled with
  | true => cases requestId <;> rfl
  | false => cases requestId <;> rfl

/-- A request that is accepted has been read, and its tasks are scheduled. -/
private theorem of_accepts {σ : Type} {world : World σ} {request : Request} {s : Session σ}
    (h : Accepts world request s) :
    ∃ (root : Json.Object) (requestId userId : Bytes) (contracts : List Json)
      (tasks : List ScheduledPriceTask),
      parseBody world request = .ok root ∧
        root.find (bytes "user_id") = some (.string userId) ∧
        root.find (bytes "contracts") = some (.array contracts) ∧
        contracts.mapM (readContract userId requestId) = .ok tasks ∧
        (scheduleNewPriceTasks world.proxies tasks s.process).1 = .ok true ∧
        (addNewPricingTasks world request s).2.process =
          (scheduleNewPriceTasks world.proxies tasks s.process).2 := by
  obtain ⟨members, hresponses, hstatus⟩ := h
  have hbody := Handling.of_orBadRequest hresponses nofun
  obtain ⟨root, s₁, hroot, hbody⟩ := Throwing.of_bind hbody
  obtain ⟨hparse, rfl⟩ := Handling.of_std hroot
  have hlast {responses : List Response} {response : Response}
      (hlast : (addNewPricingTasks world request s).2.responses = responses ++ [response]) :
      response = .json 200 (.object members) := by
    have heq := congrArg List.getLast? (hlast.symm.trans hresponses)
    rw [List.getLast?_concat, List.getLast?_concat] at heq
    exact Option.some.inj heq
  have hrefused {message : String} {u : Session σ}
      (hrefused : Handling.errorHandler (badRequest message) u =
        (.ok (), (addNewPricingTasks world request s).2)) : False := by
    cases hlast (congrArg Session.responses (Prod.mk.inj hrefused).2).symm
  cases hid : root.find (bytes "task_id") with
  | none =>
    rw [hid] at hbody
    exact (hrefused hbody).elim
  | some requestId' =>
    cases huser : root.find (bytes "user_id") with
    | none =>
      rw [hid, huser] at hbody
      exact (hrefused hbody).elim
    | some userId' =>
      rw [hid, huser] at hbody
      obtain ⟨requestId, s₂, hid', huserId⟩ := Throwing.of_bind hbody
      obtain ⟨-, rfl⟩ := Handling.of_std hid'
      obtain ⟨userId, s₃, huser', hjobs⟩ := Throwing.of_bind huserId
      obtain ⟨huserString, rfl⟩ := Handling.of_std huser'
      obtain rfl := Json.getString_eq_ok_iff.mp huserString
      obtain ⟨contracts, s₄, hcontracts, hread⟩ := Throwing.of_bind hjobs
      obtain ⟨hcontractsAt, rfl⟩ := Handling.of_std hcontracts
      obtain ⟨array, harray, hget⟩ := of_bind_eq_ok hcontractsAt
      obtain rfl := Json.getArray_eq_ok_iff.mp hget
      cases htasks : contracts.mapM (readContract userId requestId) with
      | error rejection =>
        rw [htasks] at hread
        cases rejection with
        | thrown e => cases congrArg Prod.fst hread
        | badRequest message => exact (hrefused hread).elim
      | ok tasks =>
        rw [htasks] at hread
        obtain ⟨scheduled, s₅, hscheduled, hsent⟩ := Throwing.of_bind hread
        obtain ⟨hcall, rfl⟩ := Handling.of_dbus hscheduled
        have hsend := Handling.of_sendSuccess hsent
        have hmembers := hlast (congrArg Session.responses hsend)
        refine ⟨root, requestId, userId, contracts, tasks, hparse, huser,
          Json.Object.at_eq_ok_iff.mp harray, htasks, ?_, congrArg Session.process hsend⟩
        rw [hcall]
        cases scheduled with
        | true => rfl
        | false =>
          rw [find_status (Response.json.inj hmembers).2] at hstatus
          cases hstatus

/-- The contracts of a request are objects, read one by one. -/
private theorem readFrom_of_mapM {userId requestId : Bytes} {contracts : List Json}
    {tasks : List ScheduledPriceTask}
    (h : contracts.mapM (readContract userId requestId) = .ok tasks) :
    ∃ objects : List Json.Object, contracts = objects.map .object ∧
      List.Forall₂ (ReadFrom userId requestId) objects tasks := by
  have hall := forall₂_of_mapM_eq_ok h
  clear h
  induction hall with
  | nil => exact ⟨[], rfl, .nil⟩
  | cons hread _ ih =>
    obtain ⟨objects, rfl, hobjects⟩ := ih
    obtain ⟨o, rfl, hfrom⟩ := readContract_readFrom hread
    exact ⟨o :: objects, rfl, .cons hfrom hobjects⟩

/-- The tasks that are read from the contracts of a request. -/
private def requestOf {userId requestId : Bytes} {objects : List Json.Object}
    {tasks : List ScheduledPriceTask}
    (h : List.Forall₂ (ReadFrom userId requestId) objects tasks) : AddRequest where
  userId := userId
  taskId := requestId
  tasks := tasks
  owned := by
    induction h with
    | nil => simp
    | cons hfrom _ ih => exact List.forall_mem_cons.mpr ⟨hfrom.ids, ih⟩
  oneKind := by
    induction h with
    | nil => simp
    | cons hfrom _ ih => exact List.forall_mem_cons.mpr ⟨hfrom.oneKind, ih⟩

/-- A service shows a task with one kind of terms as it was pushed. -/
private theorem shown_received {task : ScheduledPriceTask}
    (hone : task.percentProp = none ∨ task.timeProp = none) :
    shown (serviceOf task) (received task) = task.toJson := by
  cases hservice : serviceOf task with
  | time => exact congrArg ScheduledPriceTask.toJson (timePart_received hservice)
  | progress => exact congrArg ScheduledPriceTask.toJson (progressPart_received hservice hone)

/-- What the services show of a batch carries the contracts it was read from. -/
private theorem carries_batch {userId requestId : Bytes} {objects : List Json.Object}
    {tasks batch : List ScheduledPriceTask}
    (hread : List.Forall₂ (ReadFrom userId requestId) objects tasks)
    (hcheck : ∀ task ∈ tasks, (passedValidTaskCheck task).1 = true)
    (hbatch : batch.map contract = tasks.map (fun t ↦ contract (normalised t))) :
    List.Forall₂ (fun contract kept ↦ IntervalInRange contract →
        ∃ listed, shown kept.1 kept.2 = .object listed ∧ Carries contract listed)
      objects (batch.map fun task ↦ (serviceOf task, received task)) := by
  induction hread generalizing batch with
  | nil =>
    rw [List.map_eq_nil_iff.mp hbatch]
    exact .nil
  | @cons object task objects tasks hfrom _ ih =>
    obtain ⟨hone, hrest⟩ := List.forall_mem_cons.mp hcheck
    cases batch with
    | nil => cases hbatch
    | cons pushed batch =>
      obtain ⟨hpushed, hbatch⟩ := List.cons.inj hbatch
      refine .cons ?_ (ih hrest hbatch)
      intro hrange
      have hpassed : passedValidTaskCheck task = (true, (passedValidTaskCheck task).2) :=
        Prod.ext hone rfl
      obtain ⟨listed, hlisted, hcarries⟩ := carries_of_readFrom hfrom hpassed hrange
      refine ⟨listed, ?_, hcarries⟩
      rw [← hlisted, (passedValidTaskCheck_of_true hpassed).1, shown_received]
      · -- the number the server assigns is not shown
        have hshown := congrArg ScheduledPriceTask.toJson hpushed
        exact hshown
      · have hpercent := congrArg ScheduledPriceTask.percentProp hpushed
        have htime := congrArg ScheduledPriceTask.timeProp hpushed
        change pushed.percentProp = (normalised task).percentProp at hpercent
        change pushed.timeProp = task.timeProp at htime
        rw [hpercent, htime]
        refine hfrom.oneKind.imp_left fun hnone ↦ ?_
        unfold normalised
        rw [hnone]
        rfl

private theorem userId_of_batch {r : AddRequest} {batch : List ScheduledPriceTask}
    (hbatch : batch.map contract = r.tasks.map (fun t ↦ contract (normalised t)))
    {task : ScheduledPriceTask} (h : task ∈ batch) : task.userId = r.userId := by
  have hmem : contract task ∈ r.tasks.map (fun t ↦ contract (normalised t)) :=
    hbatch ▸ List.mem_map_of_mem h
  obtain ⟨t, ht, heq⟩ := List.mem_map.mp hmem
  have huser := congrArg ScheduledPriceTask.userId heq
  exact huser.symm.trans (r.owned t ht).1

/-- An accepted request leaves one task for each of its contracts in the services, behind those
they had; and as long as a service keeps such a task, the listing of its user shows it, as an
object that carries the contract. -/
theorem listsContracts_of_accepts (world : World Services) (env : Environment)
    (request : Request) (s : Session Services)
    (h : Accepts { world with proxies := Services.proxies env } request s) :
    ListsContracts world env request s := by
  obtain ⟨root, requestId, userId, contracts, tasks, hparse, huser, hcontracts, hread, hscheduled,
    hprocess⟩ := of_accepts h
  obtain ⟨objects, rfl, hobjects⟩ := readFrom_of_mapM hread
  obtain ⟨haccepted, batch, hbatch, htasks⟩ :=
    scheduledOnce_of_true (r := requestOf hobjects) hscheduled
  refine ⟨userId, objects, batch.map fun task ↦ (serviceOf task, received task),
    ⟨root, hparse, huser, hcontracts⟩, ?_, ?_, ?_⟩
  · intro svc
    rw [hprocess]
    refine (htasks svc userId).trans (congrArg (_ ++ ·) ?_)
    rw [addedTo, List.filter_map, List.map_map]
    refine congrArg (List.map received) (List.filter_congr fun task htask ↦ ?_)
    have howner := userId_of_batch hbatch htask
    rw [Function.comp_apply, howner]
    simp [requestOf]
  · intro later p
    refine ⟨_, Services.getPriceTasksForUser_proxies later userId p, ?_⟩
    rw [Services.listed, List.map_append, List.map_map, List.map_map]
    rfl
  · exact carries_batch hobjects (List.all_eq_true.mp haccepted) hbatch

/-- A server whose requests carry one contract, for a price every minute. -/
private def minuteWorld : World Services where
  parse _ := .ok (.object
    [(bytes "contracts", .array [.object (secondsContract 60)]), (bytes "task_id", .text "t1"),
      (bytes "user_id", .text "u1")])
  past _ := 0
  uniqueInstruments _ := default
  proxies := Services.proxies { outcome := fun _ ↦ .scheduled, cache := fun _ _ ↦ default }
  queueAccountStreamTasks _ := pure none

/-- The contract of one minute is listed. -/
theorem listsContracts_oneMinute :
    ListsContracts minuteWorld { outcome := fun _ ↦ .scheduled, cache := fun _ _ ↦ default }
      { target := bytes "/add_pricing_tasks", method := .post }
      { process := { services := { time := ∅, progress := ∅ } } } :=
  listsContracts_of_accepts _ _ _ _ ⟨_, rfl, rfl⟩

end KeepMyJournal.HttpStream
