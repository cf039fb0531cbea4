import SweepDSEmu.Timing.Delivery
import SweepDSEmu.Kernel.MapToBase
import SweepDSEmu.Kernel.QueryMemory
import SweepDSEmu.Kernel.ControlProcess
import SweepDSEmu.Kernel.MemoryOwnership
import SweepDSEmu.FileSys.ArticCacheKeys
import SweepDSEmu.FileSys.RomFSReader
import SweepDSEmu.FileSys.LayeredFS
import SweepDSEmu.FileSys.ExeFsLzss
import SweepDSEmu.FileSys.PatchBounds
import SweepDSEmu.Network.ZipPassDownload
import SweepDSEmu.Network.ZipPass
import SweepDSEmu.Service.UdsMembership
import SweepDSEmu.Service.UdsBeacon
import SweepDSEmu.Service.UdsFrames
import SweepDSEmu.Kernel.IPCBounds
import SweepDSEmu.Memory.Watchpoints
import SweepDSEmu.VideoCore.ShaderReturnPoint
import SweepDSEmu.Service.CROHelper
import SweepDSEmu.Kernel.CpuLimiter
import SweepDSEmu.Kernel.WaitAll
import SweepDSEmu.Kernel.SessionRequests
import SweepDSEmu.Kernel.ArbiterRun
import SweepDSEmu.Kernel.ThreadCreation
import SweepDSEmu.MelonDS.MelonDSCore
import SweepDSEmu.StreetPass.ImportRun
import SweepDSEmu.Timing.Conversion
import SweepDSEmu.Timing.Clocks
import SweepDSEmu.Timing.LoopDelivery
import SweepDSEmu.Memory.AccessAgreement
import SweepDSEmu.VideoCore.ProgramCodeFixup
import SweepDSEmu.VideoCore.CommandList
import SweepDSEmu.VideoCore.LoopScopes
import SweepDSEmu.VideoCore.ShaderTranslation
import SweepDSEmu.VideoCore.GeometryBackends
import SweepDSEmu.VideoCore.SurfaceValidation
import SweepDSEmu.Audio.SourceBuffers
import SweepDSEmu.VideoCore.TextureCopy
import SweepDSEmu.VideoCore.MortonRoundTrip
import SweepDSEmu.Cheats.CheatFile
import SweepDSEmu.Cheats.CheatLoops
import SweepDSEmu.Cheats.CheatConditions
import SweepDSEmu.HW.Y2RService
import SweepDSEmu.Common.RingBuffer
import SweepDSEmu.Common.ThreadQueueRun
import SweepDSEmu.Common.ParamPackage
import SweepDSEmu.Core.MovieReplay
import SweepDSEmu.Core.MovieRun
import SweepDSEmu.StreetPass.OutboxFiles
