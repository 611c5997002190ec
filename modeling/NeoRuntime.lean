import NeoRuntime.OsUpgrade.StagingProof
import NeoRuntime.OsUpgrade.Cpio
import NeoRuntime.HostLink.Receive
import NeoRuntime.HostLink.NotifyProof
import NeoRuntime.HostLink.Expiry
import NeoRuntime.Ota.Entry
import NeoRuntime.EventBus.ServerProof
import NeoRuntime.AppManager.RegistryMemoryProof
import NeoRuntime.AppManager.Capabilities
import NeoRuntime.AppManager.GiveUp
import NeoRuntime.AppManager.Resolver
import NeoRuntime.AppManager.PatchNull
import NeoRuntime.PlatformApi.ModelPackageProof
import NeoRuntime.PlatformApi.NetworkAdapterProof
import NeoRuntime.PlatformApi.NetworkRead
import NeoRuntime.Rs485.ReceiveProof
import NeoRuntime.CameraDaemon.CleanCapture
import NeoRuntime.AppManager.StagingGuard
import NeoRuntime.CameraDaemon.Blend
import NeoRuntime.CameraDaemon.PrivacyMask
import NeoRuntime.CameraDaemon.Mosaic
import NeoRuntime.CameraDaemon.DayNightProof
import NeoRuntime.CameraDaemon.Dsp.Reserve
import NeoRuntime.CameraDaemon.Dsp.Import
import NeoRuntime.CameraDaemon.Fg2009
import NeoRuntime.CameraDaemon.Rtsp.Requests
import NeoRuntime.CameraDaemon.Rtsp.Audio
import NeoRuntime.CameraDaemon.Fd.Framing
import NeoRuntime.AiRuntime.SchedulerShare
import NeoRuntime.AiRuntime.SchedulerWait
import NeoRuntime.AiRuntime.Session
import NeoRuntime.AiRuntime.InferCount
import NeoRuntime.AiRuntime.Admission
import NeoRuntime.Hal.FactoryRoundTrip
import NeoRuntime.LensMotor.PulseProof
import NeoRuntime.LensMotor.LimitProof
import NeoRuntime.LensMotor.IrCut
import NeoRuntime.Ota.WriteOnce
import NeoRuntime.Boot.Corruption
import NeoRuntime.PlatformApi.RelayClients
import NeoRuntime.Nginx.RouteSync
