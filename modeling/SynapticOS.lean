import SynapticOS.Runs.Payloads
import SynapticOS.Runs.Roles
import SynapticOS.Runs.Images
import SynapticOS.Runs.Atomic
import SynapticOS.Runs.Evicts
import SynapticOS.Runs.Writers
import SynapticOS.Runs.Undisturbed
import SynapticOS.Runs.Runnable
import SynapticOS.Runs.StagedUpdates
import SynapticOS.Runs.Pivot
import SynapticOS.Layered.Sessions
import SynapticOS.Infer.Contexts
import SynapticOS.Infer.Suspension
import SynapticOS.Infer.LivePipes
import SynapticOS.Infer.Waiting
import SynapticOS.Infer.Handles
import SynapticOS.Infer.Untouched
import SynapticOS.Infer.Order
import SynapticOS.Infer.Quiesce
import SynapticOS.Remote.ExchangeLaws
import SynapticOS.Npu.ResidencyLaws
import SynapticOS.Ipc.LinkLaws
import SynapticOS.Remote.DrainGate
import SynapticOS.Remote.InferenceLaws
import SynapticOS.Memory.ServingLaws
import SynapticOS.IngestLaws
import SynapticOS.Runs.Upgrade
import SynapticOS.Runs.Isolation
import SynapticOS.Infer.Deadlines
import SynapticOS.HealthLaws
import SynapticOS.Infer.Preemption
import SynapticOS.Npu.Swap
import SynapticOS.Store.ScanLaws
import SynapticOS.Npu.Outputs
import SynapticOS.Infer.RunSyncLaws
import SynapticOS.Process.Capacity
import SynapticOS.Process.Nms
import SynapticOS.Process.TopK
import SynapticOS.Memory.Sizes
import SynapticOS.Runs.Shapes
import SynapticOS.Layered.Format
import SynapticOS.Tools.Synn
import SynapticOS.Tools.Tflite
import SynapticOS.Shell.RawOta
import SynapticOS.ThreadsLaws
import SynapticOS.Dsp.FftLaws
import SynapticOS.Dsp.Q15Laws
import SynapticOS.Tools.Delivery
import SynapticOS.Infer.Progress
import SynapticOS.Cpu1.SessionLaws
import SynapticOS.Cpu1.RecoveryLaws
import SynapticOS.Watchdog
import SynapticOS.Tools.FlashMap
import SynapticOS.Dma.Stub
import SynapticOS.Dma.EdmaLaws
import SynapticOS.Npu.RegistryView
import SynapticOS.Infer.RegistryView
