import AshiChat.Overlay
import AshiChat.CheckRuns
import AshiChat.FreshSession
import AshiChat.ForgedAck
import AshiChat.HalfOpen
import AshiChat.SimultaneousOpen
import AshiChat.HelloReplay
import AshiChat.ReplayWindow
import AshiChat.AckBeforeLog
import AshiChat.MessageOrigin
import AshiChat.Receipts
import AshiChat.Display
import AshiChat.WriteAhead
import AshiChat.Stranded
import AshiChat.StatusOrder
import AshiChat.StoredQueue
import AshiChat.RequestCache
import AshiChat.LocalVersion
import AshiChat.ResolutionSafety
import AshiChat.ResolutionReach
import AshiChat.StateAgreement
import AshiChat.ReconnectionPlan
import AshiChat.Archiving
import AshiChat.DataRate
import AshiChat.SignedRecords
import AshiChat.StaleUpdates
import AshiChat.UpdateOrder
import AshiChat.ReceiptOrder
import AshiChat.RetryBound
import AshiChat.ResolveCalls
import AshiChat.GenuineUpdates
import AshiChat.FlushRun
import AshiChat.SyncPass
import AshiChat.HelloPromise
import AshiChat.LogReading
import AshiChat.ReconnectLoop
import AshiChat.SuspectVerdict
