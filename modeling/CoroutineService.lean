import CoroutineService.Transition.Machine
import CoroutineService.Transition.Census
import CoroutineService.Transition.Dispatch
import CoroutineService.Transition.Locked
import CoroutineService.Scheduler.Queue
import CoroutineService.Scheduler.Machine
import CoroutineService.Scheduler.Accounting
import CoroutineService.Scheduler.FiberSafety
import CoroutineService.Scheduler.WakeUp
import CoroutineService.IOManager.Table
import CoroutineService.IOManager.Events
import CoroutineService.IOManager.Registrations
import CoroutineService.IOManager.Operations
import CoroutineService.IOManager.Machine
import CoroutineService.IOManager.StaleEvents
import CoroutineService.Containers.KeyedSet
import CoroutineService.Timers.TimerManager
import CoroutineService.Timers.Retention
import CoroutineService.Hook.Machine
import CoroutineService.Hook.Isolation
import CoroutineService.Http.Response
import CoroutineService.Http.Write
import CoroutineService.Containers.CString
import CoroutineService.Http.Parser
import CoroutineService.Http.Lines
import CoroutineService.Http.Pieces
import CoroutineService.Timers.Shared
import CoroutineService.Containers.LruCache
import CoroutineService.Http.Users
import CoroutineService.Http.DoRequest
import CoroutineService.Text.LexicalPath
import CoroutineService.Text.SqlLiteral
import CoroutineService.Http.Statement
import CoroutineService.Http.Buffers
import CoroutineService.Http.DocRoot
import CoroutineService.Http.Registration
import CoroutineService.Http.RegistrationLock
import CoroutineService.Hook.TimedWait
import CoroutineService.IOManager.Pool
import CoroutineService.IOManager.Shutdown
import CoroutineService.IOManager.TimerWakeUp
import CoroutineService.Timers.Termination
import CoroutineService.Database.ConnectionPool
import CoroutineService.Hook.FdManager
import CoroutineService.Hook.NonBlocking
import CoroutineService.Containers.LruNodes
import CoroutineService.Memory.Linked
import CoroutineService.Memory.MemoryPool
import CoroutineService.Http.Connection
import CoroutineService.Http.Complete
import CoroutineService.Http.BodyPointer
import CoroutineService.Http.Credentials
import CoroutineService.Http.KeepAlive
import CoroutineService.Timers.Expired
import CoroutineService.Timers.OwnTimer
import CoroutineService.IOManager.Removal
import CoroutineService.Http.Splitting
import CoroutineService.Http.RequestLine
import CoroutineService.Http.Indices
import CoroutineService.Http.Activity
import CoroutineService.Http.Content
import CoroutineService.Http.ProxyGate
import CoroutineService.Http.ServedFile
import CoroutineService.Hook.Blocking
import CoroutineService.Hook.Connect
import CoroutineService.Hook.Delays
import CoroutineService.Address.Endian
import CoroutineService.Address.Prefix
import CoroutineService.Text.Ipv6Text
import CoroutineService.Address.Insert
import CoroutineService.Address.Lookup
import CoroutineService.Socket.SslSocket
import CoroutineService.Server.TcpServer
import CoroutineService.Memory.FirstSlot
import CoroutineService.Containers.AssocList
import CoroutineService.Containers.FindCache
import CoroutineService.Http.AddResponse
import CoroutineService.Transition.Coroutines
import CoroutineService.Scheduler.ContextSafety
import CoroutineService.Thread.Semaphore
import CoroutineService.Transition.Effort
import CoroutineService.Thread.Start
import CoroutineService.Thread.Returns
import CoroutineService.Containers.PooledCache
import CoroutineService.Database.Shutdown
import CoroutineService.Server.Service
import CoroutineService.Server.ServiceSafety
import CoroutineService.Timers.Punctual
import CoroutineService.Address.RoundTrip
import CoroutineService.Hook.Waits
import CoroutineService.Http.Site
