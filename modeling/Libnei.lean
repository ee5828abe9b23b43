import Libnei.CommandLine.Quoting
import Libnei.CommandLine.Reparse
import Libnei.Http.AcceptEncoding
import Libnei.Http.CookieJar
import Libnei.Http.CookieScope
import Libnei.Http.FileDownload
import Libnei.Http.FileUpload
import Libnei.Http.FilterGuard
import Libnei.Http.GzipRoundTrip
import Libnei.Http.HttpDate
import Libnei.Http.MultipartRoundTrip
import Libnei.Http.RedirectChain
import Libnei.Http.RoutePattern
import Libnei.Http.Shutdown
import Libnei.Http1.BodyStreaming
import Libnei.Http1.Consumption
import Libnei.Io.AppendFile
import Libnei.Io.LineReader
import Libnei.Io.PipeStream
import Libnei.Ipc.Draining
import Libnei.Ipc.RoundTrip
import Libnei.Ipc.RpcEndpoint
import Libnei.Log.ConfigReuse
import Libnei.Log.Flush
import Libnei.Log.PlanCache
import Libnei.Log.Rotation
import Libnei.Net.TcpConnect
import Libnei.Path.Split
import Libnei.Pool.QueueOrder
import Libnei.Pool.SourceHeap
import Libnei.Pool.TaskCount
import Libnei.Sequence.Quotas
import Libnei.Sequence.WorkMasks
import Libnei.Strings.Repair
import Libnei.Sync.Tokens
import Libnei.Sync.WaitableEvent
import Libnei.Task.Deadlines
import Libnei.Task.JobTaskIds
import Libnei.Task.MessagePump
import Libnei.Task.RepeatingTimer
import Libnei.Threading.SlotOwners
import Libnei.Tls.Ciphertext
import Libnei.Url.Encoding
import Libnei.Utils.Base64
import Libnei.Utils.Crc32
import Libnei.Utils.Digests
import Libnei.Utils.FlakeId
import Libnei.WebSocket.CloseHandshake
import Libnei.WebSocket.FrameSequence
import Libnei.WebSocket.ReceiveLoops
import Libnei.Xdr.Bounds
import Libnei.Xdr.RoundTrip
