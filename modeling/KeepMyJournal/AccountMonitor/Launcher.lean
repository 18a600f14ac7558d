import KeepMyJournal.Base.Transition
import KeepMyJournal.Common.AccountTasks

/-!
# The monitor loops of the account streams

One iteration of each loop of `account_monitor/src/watches_launcher.cpp:126–235`, with the
functions that add and remove the streams of an exchange (`binance_user_stream.cpp:360–381`,
`kucoin_user_stream.cpp:340–370`, `okex_user_stream.cpp:408–415`). A stream stands here for
what the lists are searched by.
-/

namespace KeepMyJournal.AccountMonitor

open KeepMyJournal.Base KeepMyJournal.Common

/-- `acct_info_from_task`. -/
def acctInfoFromTask (task : AccountScheduledTask) : AccountInfo :=
  { userID := task.userID
    apiKey := task.apiKey
    secretKey := task.secretKey
    passphrase := task.passphrase }

/-- A monitor loop between two iterations: its streams, and what the last iteration appended
to `monitorStatusResults`. -/
structure MonitorLoop (α : Type) where
  streams : List α := []
  result : Option AccountMonitorTaskResult := none
  deriving DecidableEq, Repr

/-- `find_if` by account, and `erase` of the stream found. -/
def eraseFirst {α : Type} (info : α → AccountInfo) (account : AccountInfo) (list : List α) :
    List α :=
  list.eraseP (fun s ↦ info s == account)

/-! ### Binance -/

/-- `addBinanceAccountStream`. -/
def addBinanceAccountStream (list : List AccountInfo) (task : AccountInfo) : List AccountInfo :=
  list ++ [task]

/-- `removeBinanceAccountStream`. -/
def removeBinanceAccountStream (list : List AccountInfo) (info : AccountInfo) :
    List AccountInfo :=
  eraseFirst id info list

/-- `binanceAccountMonitor`; the task is missing when the socket gave no valid message. -/
def binanceAccountMonitor (loop : MonitorLoop AccountInfo) (optTask : Option AccountScheduledTask) :
    MonitorLoop AccountInfo :=
  match optTask with
  | none => { loop with result := none }
  | some task =>
    if task.exchange ≠ .binance then { loop with result := none }
    else
      let accountInfo := acctInfoFromTask task
      let result (state : TaskState) : AccountMonitorTaskResult :=
        { state := state, userID := task.userID, taskID := task.taskID }
      match task.operation with
      | .add =>
        { streams := addBinanceAccountStream loop.streams accountInfo, result := result .running }
      | .remove =>
        { streams := removeBinanceAccountStream loop.streams accountInfo
          result := result .stopped }
      | .update => { loop with result := result .stopped }

/-! ### KuCoin -/

/-- A KuCoin stream: of the spot or of the futures account. -/
structure KucoinStreamInfo where
  accountInfo : AccountInfo
  tradeType : TradeType
  deriving DecidableEq, Repr

/-- `addKucoinAccountStream`. -/
def addKucoinAccountStream (list : List KucoinStreamInfo) (task : AccountInfo)
    (tradeType : TradeType) : List KucoinStreamInfo :=
  if tradeType = .spot then list ++ [{ accountInfo := task, tradeType := .spot }]
  else if tradeType = .futures then list ++ [{ accountInfo := task, tradeType := .futures }]
  else list

/-- `removeKucoinAccountStream`. -/
def removeKucoinAccountStream (list : List KucoinStreamInfo) (info : AccountInfo) :
    List KucoinStreamInfo :=
  eraseFirst KucoinStreamInfo.accountInfo info list

/-- `kucoinAccountMonitor`. -/
def kucoinAccountMonitor (loop : MonitorLoop KucoinStreamInfo)
    (optTask : Option AccountScheduledTask) : MonitorLoop KucoinStreamInfo :=
  match optTask with
  | none => { loop with result := none }
  | some task =>
    if task.exchange ≠ .kucoin then { loop with result := none }
    else
      let accountInfo := acctInfoFromTask task
      let result (state : TaskState) : AccountMonitorTaskResult :=
        { state := state, userID := task.userID, taskID := task.taskID }
      match task.operation with
      | .add =>
        { streams := addKucoinAccountStream loop.streams accountInfo task.tradeType
          result := result .running }
      | .remove =>
        { streams := removeKucoinAccountStream loop.streams accountInfo
          result := result .running }
      | .update => { loop with result := result .stopped }

/-! ### OKX -/

/-- `addOkexAccountStream`, which has an empty body. -/
def addOkexAccountStream (streams : List AccountInfo) (_accountInfo : AccountInfo) :
    List AccountInfo := streams

/-- `removeOkexAccountStream`, which has an empty body. -/
def removeOkexAccountStream (streams : List AccountInfo) (_accountInfo : AccountInfo) :
    List AccountInfo := streams

/-- `okexAccountMonitor`. -/
def okexAccountMonitor (loop : MonitorLoop AccountInfo) (optTask : Option AccountScheduledTask) :
    MonitorLoop AccountInfo :=
  match optTask with
  | none => { loop with result := none }
  | some task =>
    if task.exchange ≠ .okex then { loop with result := none }
    else
      let accountInfo := acctInfoFromTask task
      let result (state : TaskState) : AccountMonitorTaskResult :=
        { state := state, userID := task.userID, taskID := task.taskID }
      match task.operation with
      | .add =>
        { streams := addOkexAccountStream loop.streams accountInfo, result := result .running }
      | .remove =>
        { streams := removeOkexAccountStream loop.streams accountInfo, result := result .running }
      | .update => { loop with result := result .stopped }

/-! ### Reports and lists -/

/-- The status reported for an add or a remove agrees with the list right after it. -/
def ReportAgrees {α : Type} (info : α → AccountInfo) (exchange : Exchange)
    (loop' : MonitorLoop α) (optTask : Option AccountScheduledTask) : Prop :=
  ∀ task ∈ optTask, task.exchange = exchange → ∃ result, loop'.result = some result ∧
    (task.operation = .add → result.state = .running →
      ∃ s ∈ loop'.streams, info s = acctInfoFromTask task) ∧
    (task.operation = .remove →
      result.state = .stopped ∧ ∀ s ∈ loop'.streams, info s ≠ acctInfoFromTask task)

/-- A remove finds at most one stream of its account. -/
def BinanceInStep (loop : MonitorLoop AccountInfo) (optTask : Option AccountScheduledTask) :
    Prop :=
  ∀ task ∈ optTask, task.exchange = .binance → task.operation = .remove →
    loop.streams.count (acctInfoFromTask task) ≤ 1

/-- Nothing is removed, and what is added is a spot or futures account or already listed. -/
def KucoinInStep (loop : MonitorLoop KucoinStreamInfo) (optTask : Option AccountScheduledTask) :
    Prop :=
  ∀ task ∈ optTask, task.exchange = .kucoin → task.operation ≠ .remove ∧
    (task.operation = .add → task.tradeType = .spot ∨ task.tradeType = .futures ∨
      ∃ s ∈ loop.streams, s.accountInfo = acctInfoFromTask task)

/-- Nothing is added or removed. -/
def OkexInStep (optTask : Option AccountScheduledTask) : Prop :=
  ∀ task ∈ optTask, task.exchange = .okex → task.operation = .update

/-- No stream of the account is left by `eraseFirst` if and only if there was one at most. -/
private theorem forall_mem_eraseFirst_iff (list : List AccountInfo) (account : AccountInfo) :
    (∀ s ∈ eraseFirst id account list, s ≠ account) ↔ list.count account ≤ 1 := by
  induction list with
  | nil => simp [eraseFirst]
  | cons s rest ih =>
    unfold eraseFirst at ih ⊢
    by_cases hs : s = account
    · subst hs
      rw [List.eraseP_cons_of_pos (by simp), List.count_cons_self, Nat.add_le_add_iff_right
        (n := 1) (m := rest.count s) (k := 0), Nat.le_zero, List.count_eq_zero]
      constructor
      · intro h hm
        exact h s hm rfl
      · rintro h t ht rfl
        exact h ht
    · rw [List.eraseP_cons_of_neg (by simpa using hs), List.count_cons_of_ne hs, ← ih]
      simp [hs]

private theorem binance_reportAgrees_iff (loop : MonitorLoop AccountInfo)
    (optTask : Option AccountScheduledTask) :
    ReportAgrees id .binance (binanceAccountMonitor loop optTask) optTask ↔
      BinanceInStep loop optTask := by
  unfold ReportAgrees BinanceInStep
  cases optTask with
  | none => simp
  | some task =>
    simp only [Option.mem_def, Option.some.injEq, forall_eq']
    apply imp_congr_right
    intro he
    simp only [binanceAccountMonitor, he, ne_eq, not_true_eq_false, if_false]
    cases ho : task.operation with
    | add => simp [addBinanceAccountStream]
    | remove =>
      have hiff := forall_mem_eraseFirst_iff loop.streams (acctInfoFromTask task)
      simpa [removeBinanceAccountStream] using hiff
    | update => simp

private theorem kucoin_reportAgrees_iff (loop : MonitorLoop KucoinStreamInfo)
    (optTask : Option AccountScheduledTask) :
    ReportAgrees KucoinStreamInfo.accountInfo .kucoin (kucoinAccountMonitor loop optTask) optTask ↔
      KucoinInStep loop optTask := by
  unfold ReportAgrees KucoinInStep
  cases optTask with
  | none => simp
  | some task =>
    simp only [Option.mem_def, Option.some.injEq, forall_eq']
    apply imp_congr_right
    intro he
    simp only [kucoinAccountMonitor, he, ne_eq, not_true_eq_false, if_false]
    cases ho : task.operation with
    | add =>
      simp only [addKucoinAccountStream]
      split
      · next h => simp [h]
      · next hspot =>
        split
        · next h => simp [h]
        · next hfutures => simp [hspot, hfutures]
    | remove => simp
    | update => simp

private theorem okex_reportAgrees_iff {loop : MonitorLoop AccountInfo}
    (hempty : loop.streams = []) (optTask : Option AccountScheduledTask) :
    (ReportAgrees id .okex (okexAccountMonitor loop optTask) optTask ↔ OkexInStep optTask) ∧
      (okexAccountMonitor loop optTask).streams = [] := by
  unfold ReportAgrees OkexInStep
  cases optTask with
  | none => simp [okexAccountMonitor, hempty]
  | some task =>
    unfold okexAccountMonitor
    by_cases he : task.exchange = .okex
    · cases ho : task.operation <;>
        simp [he, ho, hempty, addOkexAccountStream, removeOkexAccountStream]
    · simp [he, hempty]

/-- Over every run of a monitor loop, all reports agree with the list if and only if all tasks
are in step with what the loop does: for Binance a remove meets at most one stream of its
account, for KuCoin there is no remove and no add that starts nothing, for OKX there is
neither. -/
theorem reports_agree_iff (tasks : List (Option AccountScheduledTask)) :
    (Transition.Along (fun loop task ↦ some (binanceAccountMonitor loop task))
        (fun _ task loop' ↦ ReportAgrees id .binance loop' task) {} tasks ↔
      Transition.Along (fun loop task ↦ some (binanceAccountMonitor loop task))
        (fun loop task _ ↦ BinanceInStep loop task) {} tasks) ∧
    (Transition.Along (fun loop task ↦ some (kucoinAccountMonitor loop task))
        (fun _ task loop' ↦ ReportAgrees KucoinStreamInfo.accountInfo .kucoin loop' task) {} tasks ↔
      Transition.Along (fun loop task ↦ some (kucoinAccountMonitor loop task))
        (fun loop task _ ↦ KucoinInStep loop task) {} tasks) ∧
    (Transition.Along (fun loop task ↦ some (okexAccountMonitor loop task))
        (fun _ task loop' ↦ ReportAgrees id .okex loop' task) {} tasks ↔
      Transition.Along (fun loop task ↦ some (okexAccountMonitor loop task))
        (fun _ task _ ↦ OkexInStep task) {} tasks) := by
  refine ⟨?_, ?_, ?_⟩
  · apply Transition.along_congr_of_step
    intro loop task loop' hstep
    obtain rfl := Option.some.inj hstep
    exact binance_reportAgrees_iff loop task
  · apply Transition.along_congr_of_step
    intro loop task loop' hstep
    obtain rfl := Option.some.inj hstep
    exact kucoin_reportAgrees_iff loop task
  · apply Transition.along_congr (I := fun loop ↦ loop.streams = [])
    · intro loop task _ loop' hempty hstep
      obtain rfl := Option.some.inj hstep
      exact (okex_reportAgrees_iff hempty task).1
    · intro loop task _ loop' hempty hstep _
      obtain rfl := Option.some.inj hstep
      exact (okex_reportAgrees_iff hempty task).2
    · rfl

/-- The OKX loop reports an add as running although its list is empty. -/
theorem okex_reports_running :
    let task : AccountScheduledTask :=
      { userID := bytes "u1", exchange := .okex, tradeType := .spot, operation := .add }
    ¬Transition.Along (fun loop task ↦ some (okexAccountMonitor loop task))
      (fun _ task loop' ↦ ReportAgrees id .okex loop' task) {} [some task] := by
  intro task h
  obtain ⟨result, hresult, hadd, -⟩ := (h _ rfl).1 task rfl rfl
  obtain rfl := Option.some.inj hresult
  obtain ⟨s, hs, -⟩ := hadd rfl rfl
  cases hs

end KeepMyJournal.AccountMonitor
