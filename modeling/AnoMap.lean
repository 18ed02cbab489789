import AnoMap.Controllers.Alarms
import AnoMap.Controllers.LoginFlow
import AnoMap.Controllers.Settings
import AnoMap.Core.AiImages
import AnoMap.Core.Logout
import AnoMap.Core.Malformed
import AnoMap.Core.Order
import AnoMap.Core.Program
import AnoMap.Core.Restarts
import AnoMap.Core.Sessions
import AnoMap.Core.Shutdown
import AnoMap.Core.SlotWorkers
import AnoMap.Core.StreamUrls
import AnoMap.Domain.ConcurrentUpdates
import AnoMap.Domain.FailedUpdates
import AnoMap.Domain.StreamNumbers
import AnoMap.Front.AiPage
import AnoMap.Front.DevicePage
import AnoMap.Front.FullScreenOverlay
import AnoMap.Front.LiveGraph
import AnoMap.Front.Navigation
import AnoMap.Models.CameraRows
import AnoMap.Models.Capabilities
import AnoMap.Models.DeviceCells
import AnoMap.Models.DeviceRows
import AnoMap.Models.MergeSplit
import AnoMap.Models.MergedCameras
import AnoMap.Network.ArrivalOrder
import AnoMap.Network.Datagrams
import AnoMap.Network.Disconnect
import AnoMap.Network.Dispatch
import AnoMap.Network.Handshake
import AnoMap.Network.Metadata
import AnoMap.Network.Once
import AnoMap.Network.Peer
import AnoMap.Network.RecordOrder
import AnoMap.Network.RoundTrip
import AnoMap.Network.Straggler
import AnoMap.Network.Watch
import AnoMap.Network.WholeFrames
import AnoMap.Services.Debounce
import AnoMap.Services.FrameCopy
import AnoMap.Services.FramePipeline
import AnoMap.Services.Requests
import AnoMap.Services.VideoStream
