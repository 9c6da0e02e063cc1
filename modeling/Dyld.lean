import Dyld.Lib.Memory
import Dyld.Lib.Threaded
import Dyld.Lib.BitField
import Dyld.Lib.Patch
import Dyld.Lib.Chains
import Dyld.Closure.TextFixups
import Dyld.Closure.TypedBytes
import Dyld.Closure.BindPattern
import Dyld.Closure.RebasePattern
import Dyld.Chained.Starts
import Dyld.Chained.Validate
import Dyld.Chained.Pointer
import Dyld.Chained.Fixup
import Dyld.SlideInfo.Region
import Dyld.SlideInfo.V3
import Dyld.SlideInfo.Format
import Dyld.SlideInfo.Link
import Dyld.SlideInfo.Pages
import Dyld.SlideInfo.V2
import Dyld.SlideInfo.V4
import Dyld.SlideInfo.PointerViews
import Dyld.Lib.CString
import Dyld.Closure.FileLists
import Dyld.Closure.Interposing
import Dyld.Lib.LastWrite
import Dyld.Closure.InterposingTuples
import Dyld.Closure.ResolvedTarget
import Dyld.Closure.Segments
import Dyld.Lib.Marking
import Dyld.Runtime.GarbageCollection
import Dyld.Runtime.CompleteDependents
import Dyld.Runtime.VisitDependents
import Dyld.Runtime.ImmutableMemory
import Dyld.Runtime.Initializers
import Dyld.Lib.FlatArray
import Dyld.Cache.PatchTable
import Dyld.Cache.Adjustor
import Dyld.Cache.AdjustReference
import Dyld.Cache.RebaseChains
import Dyld.Cache.ImpCaches
import Dyld.Cache.ImpCacheSearch
import Dyld.Closure.Filling
import Dyld.Closure.ObjCFixups
import Dyld.Lib.Probing
import Dyld.Containers.Map
import Dyld.Containers.MultiMap
import Dyld.Closure.WeakDefs
import Dyld.Lib.BubbleSort
import Dyld.Lib.DepthFirst
import Dyld.Closure.InitOrder
import Dyld.Closure.InitializerRoots
import Dyld.Chained.Imports
import Dyld.MachO.LoadCommands
import Dyld.MachO.MachOBuffer
import Dyld.MachO.ValidLoadCommands
import Dyld.MachO.ValidSegments
import Dyld.MachO.ValidLinkedit
import Dyld.MachO.ReExports
import Dyld.MachO.FindSymbol
import Dyld.MachO.BindTargets
import Dyld.Cache.SelectorBuckets
import Dyld.MachO.Leb128
import Dyld.Chained.ThreadedBinds
import Dyld.Chained.OldArm64eStarts
import Dyld.Chained.OldArm64eRun
import Dyld.Lib.Opcodes
import Dyld.MachO.RebaseOpcodes
import Dyld.MachO.RebaseAgreement
import Dyld.MachO.RebaseAddresses
import Dyld.MachO.RuntimeOffsets
import Dyld.Lib.Calls
import Dyld.Lib.CallBounds
import Dyld.MachO.BindOpcodes
import Dyld.MachO.OpcodeRuns
import Dyld.MachO.AcceptedLocations
import Dyld.MachO.BindStreams
import Dyld.Cache.StringPool
import Dyld.Cache.MergedLinkedit
import Dyld.Cache.MergedSymbols
import Dyld.Chained.KernelFixups
import Dyld.Chained.KernelPages
import Dyld.Chained.KernelTables
import Dyld.Chained.KernelRoundTrip
import Dyld.Lib.RadixTree
import Dyld.Lib.Layout
import Dyld.Cache.Tries
import Dyld.MachO.TrieWalk
import Dyld.Lib.Feed
import Dyld.Closure.PathPool
import Dyld.Closure.EnvVars
import Dyld.Closure.FrameworkPaths
import Dyld.Closure.PathVariants
import Dyld.Lib.FirstMax
import Dyld.MachO.CodeDirectories
import Dyld.MachO.ClosestSymbol
import Dyld.MachO.FatFile
import Dyld.Closure.ChainedPointers
import Dyld.MachO.TrieBounds
import Dyld.Lib.NamedSearch
import Dyld.MachO.TrieRecursion
import Dyld.Cache.AdjustCode
import Dyld.Lib.BitWindow
import Dyld.Cache.SelectorConstraints
import Dyld.Runtime.PreflightCache
import Dyld.Lib.MemoSearch
import Dyld.Cache.TransitiveDependents
import Dyld.Cache.SelectorPlacement
import Dyld.Cache.AdjustTables
import Dyld.Cache.RebuildLinkedit
import Dyld.Cache.PatchableAddends
import Dyld.Runtime.Lines
import Dyld.MachO.UlebCodecs
import Dyld.Cache.TrackerViews
import Dyld.Containers.Arrays
import Dyld.Cache.CoalescedText
import Dyld.Cache.VTables
import Dyld.Cache.CodeSignPages
import Dyld.MachO.KernelCollection
import Dyld.Lib.SortedCursors
import Dyld.ImageLoader.CoalIterator
import Dyld.ImageLoader.WeakBind
import Dyld.ImageLoader.WeakBindRun
import Dyld.Lib.PostOrder
import Dyld.ImageLoader.Link
import Dyld.ImageLoader.LinkOrder
import Dyld.ImageLoader.Depths
import Dyld.ImageLoader.Initialization
