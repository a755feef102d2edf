import EspS31.ForStd.CallHistory
import EspS31.ForStd.Deadline
import EspS31.ForStd.LinkedList
import EspS31.ForStd.Ownership
import EspS31.ForStd.Ring
import EspS31.ForStd.SlotTable
import EspS31.ForStd.TracedBuffer
import EspS31.ForStd.SyncCall
import EspS31.ForStd.Trace
import EspS31.ForStd.Wakeup
import EspS31.Native.Queue
import EspS31.Native.Event
import EspS31.Native.Notify
import EspS31.Native.Rtos
import EspS31.Spec.QueueCorrect
import EspS31.Spec.SectionFrames
import EspS31.Spec.SemaphoreTokens
import EspS31.Spec.TimerDispatch
import EspS31.Spec.TimerPhase
import EspS31.Spec.TimerOrder
import EspS31.Spec.WakeupCorrect
import EspS31.Spec.NotifyCorrect
import EspS31.Spec.NotifyCount
import EspS31.Spec.Timeouts
import EspS31.Native.Locks
import EspS31.Spec.MutexCorrect
import EspS31.Spec.BridgeContexts
import EspS31.Spec.EventBroadcast
import EspS31.Spec.EventHistory
import EspS31.Spec.IsrContext
import EspS31.Spec.LockExclusion
import EspS31.Spec.LockModels
import EspS31.Spec.LockTable
import EspS31.ForStd.ByteMem
import EspS31.ForStd.ByteRange
import EspS31.Native.Shim
import EspS31.Native.ShimLocks
import EspS31.Native.Timer
import EspS31.Native.Wifi
import EspS31.Native.PayloadMem
import EspS31.Native.Xespv
import EspS31.Native.Memops
import EspS31.Spec.WifiStart
import EspS31.Spec.WifiRequests
import EspS31.Spec.WifiConfig
import EspS31.Spec.PayloadStores
import EspS31.Spec.XespvBlocks
import EspS31.Spec.XespvRuns
import EspS31.Spec.XespvCalls
import EspS31.Spec.MemcmpCorrect
import EspS31.Spec.CompositeCorrect
import EspS31.Spec.AddSatCorrect
import EspS31.Spec.CopyCorrect
import EspS31.Spec.SearchCorrect
import EspS31.Spec.StrchrCorrect
import EspS31.Spec.XespvAligned
import EspS31.Spec.AlignedAccess
import EspS31.Spec.StrcmpCorrect
import EspS31.Spec.StpcpyCorrect
import EspS31.ForStd.CText
import EspS31.ForStd.Strtoul
import EspS31.ForStd.BlockStream
import EspS31.ForStd.Sha1
import EspS31.ForStd.Pbkdf2
import EspS31.Native.Overlay
import EspS31.Native.OverlayBuffer
import EspS31.Native.OverlayRoute
import EspS31.Native.WifiSha1
import EspS31.Native.WifiPmk
import EspS31.Native.Netlink
import EspS31.Spec.OverlayPersist
import EspS31.Spec.OverlayRecord
import EspS31.Spec.OverlayTracking
import EspS31.Spec.OverlayUpdate
import EspS31.Spec.RouteArguments
import EspS31.Spec.RoutePatch
import EspS31.Spec.Sha1Correct
import EspS31.Spec.PmkCorrect
import EspS31.Spec.NetlinkAttrs
import EspS31.Spec.BleNames
import EspS31.Spec.BleReports
import EspS31.Spec.BleOutput
import EspS31.ForStd.SampleWindow
import EspS31.Native.BleMgmt
import EspS31.Native.WifiMessages
import EspS31.Native.WifiReplies
import EspS31.Native.Tasks
import EspS31.Native.WifiCapture
import EspS31.Native.WifiEvents
import EspS31.Spec.WifiMessages
import EspS31.Spec.WifiReplies
import EspS31.Spec.TaskLife
import EspS31.Spec.TaskObjects
import EspS31.Spec.CriticalNesting
import EspS31.Spec.BleSession
import EspS31.Spec.WifiCapture
import EspS31.Spec.WifiEvents
import EspS31.Native.EspSimd
import EspS31.Spec.EspSimdRoutines
import EspS31.Spec.EspSimdPrograms
