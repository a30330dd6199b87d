import XenonRecomp.Agreement.ExactHelpers
import XenonRecomp.Agreement.System
import XenonRecomp.Agreement.VectorImmediate
import XenonRecomp.Aot.ExactLanes
import XenonRecomp.Aot.Fpscr
import XenonRecomp.Audio.XmaFramePasses
import XenonRecomp.Audio.XmaKicks
import XenonRecomp.Audio.XmaWriteBack
import XenonRecomp.Content.StfsLayout
import XenonRecomp.Core.JsonRoundTrip
import XenonRecomp.Execution.CodeCacheLive
import XenonRecomp.Execution.HotPublication
import XenonRecomp.Filesystem.GdfxTermination
import XenonRecomp.Gpu.DepthRoundTrip
import XenonRecomp.Gpu.EdramOwnership
import XenonRecomp.Gpu.PrimitiveProcessor
import XenonRecomp.Gpu.ShaderReach
import XenonRecomp.Gpu.TiledOffsets
import XenonRecomp.Gpu.VisibleOrder
import XenonRecomp.Kernel.AlertableWait
import XenonRecomp.Kernel.CriticalSectionSafety
import XenonRecomp.Kernel.DirectoryScan
import XenonRecomp.Kernel.FileSharingRuns
import XenonRecomp.Kernel.GuestHeapContract
import XenonRecomp.Kernel.GuestIoOrder
import XenonRecomp.Kernel.PacketDelivery
import XenonRecomp.Kernel.PoolBlocks
import XenonRecomp.Kernel.ThreadLifeCycle
import XenonRecomp.Kernel.TimerDispatch
import XenonRecomp.Memory.BlockMove
import XenonRecomp.Memory.EpochBoundary
import XenonRecomp.Memory.JournalHistory
import XenonRecomp.Memory.MirrorFreshness
import XenonRecomp.Memory.NativeBoundary
import XenonRecomp.Memory.RangeAllocator
import XenonRecomp.Memory.ReservationAtomicity
import XenonRecomp.Recomp.AnchorScan
import XenonRecomp.Recomp.ChunkOwnership
import XenonRecomp.Recomp.EntryIntegrity
import XenonRecomp.Recomp.LearnedIdentity
import XenonRecomp.Recomp.NativeContracts
import XenonRecomp.Recomp.ReturnSoundness
import XenonRecomp.Xbox.TimeRoundTrip
import XenonRecomp.Xex.AesModes
import XenonRecomp.Xex.DeltaPatch
import XenonRecomp.Xex.LzxBlocks
