import Ps5Vulkan.Control.Agent
import Ps5Vulkan.Format.Clear
import Ps5Vulkan.GpuBroker.Away
import Ps5Vulkan.GpuBroker.FlipCounter
import Ps5Vulkan.GpuBroker.Frame
import Ps5Vulkan.GpuBroker.FramePage
import Ps5Vulkan.GpuBroker.SharedState
import Ps5Vulkan.GpuBroker.Sources
import Ps5Vulkan.GpuBroker.StagingPool
import Ps5Vulkan.Image.Chains
import Ps5Vulkan.Image.ClearRanges
import Ps5Vulkan.Image.Eviction
import Ps5Vulkan.Image.RowLevels
import Ps5Vulkan.Image.SampledView
import Ps5Vulkan.Image.UploadRuns
import Ps5Vulkan.Memory.DirectMemory
import Ps5Vulkan.Native.ModuleWriter
import Ps5Vulkan.Present.Ownership
import Ps5Vulkan.Present.Swapchain
import Ps5Vulkan.Queue.Completion
import Ps5Vulkan.Queue.Losses
import Ps5Vulkan.Queue.Retire
import Ps5Vulkan.Record.BindingOptions
import Ps5Vulkan.Record.IndirectReads
import Ps5Vulkan.Record.Inheritance
import Ps5Vulkan.Record.PoolRuns
import Ps5Vulkan.Record.Scissors
import Ps5Vulkan.Record.SetContents
import Ps5Vulkan.Record.Tracking
import Ps5Vulkan.Shader.CacheKey
import Ps5Vulkan.Shader.Package
