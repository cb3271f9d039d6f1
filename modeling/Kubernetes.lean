import Kubernetes.Library.Transition
import Kubernetes.Library.CyclicScan
import Kubernetes.Registry.Allocator.Bitmap
import Kubernetes.Library.Prefix
import Kubernetes.Controller.NodeIpam.CidrSet
import Kubernetes.Controller.NodeIpam.Blocks
import Kubernetes.Library.Outcome
import Kubernetes.Registry.Service.Pool
import Kubernetes.Registry.Service.Operation
import Kubernetes.Registry.Service.Alloc
import Kubernetes.Registry.Service.Atomicity
import Kubernetes.Library.Bytes
import Kubernetes.Registry.Allocator.Etcd
import Kubernetes.Registry.Pod.Eviction
import Kubernetes.Registry.Pod.Disruption
import Kubernetes.Library.Sweep
import Kubernetes.Kubelet.MemoryManager.PolicyStatic
import Kubernetes.Kubelet.MemoryManager.Accounting
import Kubernetes.Kubelet.DeviceManager.Manager
import Kubernetes.Kubelet.DeviceManager.Exclusive
import Kubernetes.Controller.GarbageCollector.GraphBuilder
import Kubernetes.Controller.GarbageCollector.Dependents
import Kubernetes.Controller.GarbageCollector.Consistency
import Kubernetes.Kubelet.PodWorkers
import Kubernetes.Registry.Service.IPAllocator
import Kubernetes.Controller.Deployment.Rolling
import Kubernetes.Library.FiniteMap
import Kubernetes.Proxy.Service
import Kubernetes.Proxy.EndpointSliceCache
import Kubernetes.Proxy.Endpoints
import Kubernetes.Library.Keyed
import Kubernetes.Scheduler.Framework.Types
import Kubernetes.Scheduler.Queue.SchedulingQueue
import Kubernetes.Scheduler.Queue.Backoff
import Kubernetes.Library.ContainerHeap
import Kubernetes.Scheduler.Internal.Heap
import Kubernetes.Library.Slice
import Kubernetes.Scheduler.Framework.NodeInfo
import Kubernetes.Scheduler.Framework.Aggregates
import Kubernetes.Scheduler.Preemption.SelectVictims
import Kubernetes.Scheduler.Preemption.Victims
import Kubernetes.Library.LeastCounts
import Kubernetes.Library.Tally
import Kubernetes.Scheduler.PodTopologySpread.Filtering
import Kubernetes.Scheduler.PodTopologySpread.Spread
import Kubernetes.Scheduler.PodTopologySpread.Extensions
import Kubernetes.Library.LeastKeys
import Kubernetes.Scheduler.Preemption.Candidates
import Kubernetes.Scheduler.Preemption.DryRun
import Kubernetes.Scheduler.Cache.NodeTree
import Kubernetes.Library.LinkedList
import Kubernetes.Scheduler.Cache.Cache
import Kubernetes.Scheduler.Cache.Expiry
import Kubernetes.Library.Strconv
import Kubernetes.Controller.StatefulSet.Utils
import Kubernetes.Controller.StatefulSet.Control
import Kubernetes.Controller.StatefulSet.Ordering
import Kubernetes.Controller.StatefulSet.MaxUnavailable
import Kubernetes.Controller.EndpointSlice.Reconciler
import Kubernetes.Controller.EndpointSlice.Packing
import Kubernetes.Kubelet.Cpuset.Codec
import Kubernetes.Library.Choice
import Kubernetes.Kubelet.TopologyManager.Bitmask
import Kubernetes.Kubelet.TopologyManager.Policy
import Kubernetes.Kubelet.TopologyManager.SingleNumaNode
import Kubernetes.Library.Picking
import Kubernetes.Kubelet.CpuManager.Topology
import Kubernetes.Kubelet.CpuManager.CpuAssignment
import Kubernetes.Library.Float64
import Kubernetes.Kubelet.CpuManager.Distributed
import Kubernetes.Kubelet.CpuManager.PolicyStatic
import Kubernetes.Kubelet.CpuManager.Exclusive
import Kubernetes.Library.GoInt
import Kubernetes.Controller.Job.OrderedIntervals
import Kubernetes.Controller.Job.IndexedPods
import Kubernetes.Library.Lexicographic
import Kubernetes.Controller.ReplicaSet.DeletionOrder
import Kubernetes.Controller.NodeLifecycle.RateLimitedQueue
import Kubernetes.Controller.CronJob.Schedule
