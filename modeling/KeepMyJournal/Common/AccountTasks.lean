import KeepMyJournal.Base.Bytes
import KeepMyJournal.Common.Enumerations

/-!
# Account tasks

`common/include/account_stream/user_scheduled_task.hpp`: what the HTTP server asks of an account
monitor, and what it is told.
-/

namespace KeepMyJournal.Common

open KeepMyJournal.Base

/-- `task_operation_e`. -/
inductive TaskOperation where
  | add | remove | update
  deriving DecidableEq, Repr

/-- `account_info_t`; its `operator==` compares all four members. -/
structure AccountInfo where
  userID : Bytes
  apiKey : Bytes := []
  secretKey : Bytes := []
  passphrase : Bytes := []
  deriving DecidableEq, Repr

/-- `account_scheduled_task_t`. -/
structure AccountScheduledTask where
  userID : Bytes := []
  taskID : Bytes := []
  apiKey : Bytes := []
  secretKey : Bytes := []
  passphrase : Bytes := []
  exchange : Exchange
  tradeType : TradeType
  operation : TaskOperation
  deriving DecidableEq, Repr

/-- `account_monitor_task_result_t`. -/
structure AccountMonitorTaskResult where
  state : TaskState
  userID : Bytes
  taskID : Bytes
  deriving DecidableEq, Repr

end KeepMyJournal.Common
