import KeepMyJournal.AccountMonitor.BinanceAccounts
import KeepMyJournal.AccountMonitor.BinanceEvents
import KeepMyJournal.AccountMonitor.BinanceMessages
import KeepMyJournal.AccountMonitor.BinancePointers
import KeepMyJournal.AccountMonitor.KucoinPings
import KeepMyJournal.AccountMonitor.Launcher
import KeepMyJournal.AccountMonitor.OkexResults
import KeepMyJournal.AccountMonitor.OkexSubscription
import KeepMyJournal.AccountMonitor.Stop
import KeepMyJournal.AccountTasks.Relay
import KeepMyJournal.Base.BitGroups
import KeepMyJournal.Base.Readings
import KeepMyJournal.Base.RemoteCalls
import KeepMyJournal.Common.Base64
import KeepMyJournal.Common.HttpRestClient
import KeepMyJournal.Common.MobileNumber
import KeepMyJournal.Common.MutexedList
import KeepMyJournal.Common.RestClientProgress
import KeepMyJournal.Common.RestClients
import KeepMyJournal.Common.Splitting
import KeepMyJournal.Common.Uri
import KeepMyJournal.Common.UrlDecoding
import KeepMyJournal.Common.WaitableContainer
import KeepMyJournal.Common.WatchTimers
import KeepMyJournal.HttpStream.AccountResults
import KeepMyJournal.HttpStream.AccountTaskQueue
import KeepMyJournal.HttpStream.Answering
import KeepMyJournal.HttpStream.Connection
import KeepMyJournal.HttpStream.ContractListing
import KeepMyJournal.HttpStream.LatestPrice
import KeepMyJournal.HttpStream.PathValues
import KeepMyJournal.HttpStream.PriceAnswers
import KeepMyJournal.HttpStream.QueryString
import KeepMyJournal.HttpStream.SpecialRoutes
import KeepMyJournal.HttpStream.StopTasks
import KeepMyJournal.HttpStream.TargetSpelling
import KeepMyJournal.HttpStream.TaskBatch
import KeepMyJournal.HttpStream.TaskNumbers
import KeepMyJournal.HttpStream.TaskTable
import KeepMyJournal.PriceMonitor.Distribution
import KeepMyJournal.PriceMonitor.ExternalMessaging
import KeepMyJournal.PriceMonitor.Feeding
import KeepMyJournal.PriceMonitor.FuturesContracts
import KeepMyJournal.PriceMonitor.InstrumentPrice
import KeepMyJournal.PriceMonitor.KucoinPings
import KeepMyJournal.PriceMonitor.Markets
import KeepMyJournal.PriceMonitor.Messages
import KeepMyJournal.PriceMonitor.OkexSubscriptions
import KeepMyJournal.PriceMonitor.TokenResponse
import KeepMyJournal.PriceResultStream.Delivery
import KeepMyJournal.PriceTasks.Checking
import KeepMyJournal.PriceTasks.LivePrices
import KeepMyJournal.PriceTasks.Notifications
import KeepMyJournal.PriceTasks.Removal
import KeepMyJournal.ProgressTasks.Alert
import KeepMyJournal.ProgressTasks.Snapshots
import KeepMyJournal.TelegramClient.LoginSequence
import KeepMyJournal.TelegramClient.RequestHandlers
