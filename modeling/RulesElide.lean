import RulesElide.Library.Varint
import RulesElide.Library.WireFormat
import RulesElide.Library.Reader
import RulesElide.Library.Framing
import RulesElide.Library.Base64
import RulesElide.Library.LengthPrefix
import RulesElide.Library.Effects
import RulesElide.Library.Transition
import RulesElide.Library.SemVer
import RulesElide.Library.Pipe
import RulesElide.Library.FileTree
import RulesElide.Platform.Values
import RulesElide.Platform.Strings
import RulesElide.Platform.Files
import RulesElide.WorkerProtocol.Codec
import RulesElide.WorkerProtocol.Parsing
import RulesElide.WorkerProtocol.Requests
import RulesElide.WorkerProtocol.Framing
import RulesElide.WorkerProtocol.Responses
import RulesElide.IncrementalWorker.Signature
import RulesElide.IncrementalWorker.Model
import RulesElide.IncrementalWorker.Reuse
import RulesElide.IncrementalWorker.Damage
import RulesElide.IncrementalWorker.Correspondence
import RulesElide.IncrementalWorker.Forwarding
import RulesElide.IncrementalWorker.Sending
import RulesElide.IncrementalWorker.Packing
import RulesElide.IncrementalWorker.RequestLoop
import RulesElide.IncrementalWorker.Shutdown
import RulesElide.KotlinBuilder.Flagfile
import RulesElide.KotlinBuilder.ElideCompile
import RulesElide.KotlinBuilder.PluginFlags
import RulesElide.KotlinBuilder.Router
import RulesElide.KotlinBuilder.JavacOptions
import RulesElide.KotlinBuilder.Commands
import RulesElide.KotlinBuilder.ElideWorker
import RulesElide.KotlinBuilder.Machine
import RulesElide.KotlinBuilder.SourceJars
import RulesElide.KotlinBuilder.Main
import RulesElide.KotlinBuilder.WorkerLoop
import RulesElide.Rules.CompileCommon
import RulesElide.Rules.JvmTools
import RulesElide.Toolchains.Versions
import RulesElide.Toolchains.Extension
import RulesElide.Toolchains.ModuleOrder
import RulesElide.Library.Dedup
import RulesElide.Tools.SbomEnrich
import RulesElide.Python.Launcher
import RulesElide.Benchmarks.GenWorkrequest
import RulesElide.Benchmarks.RequestCodecs
import RulesElide.WorkerProtocol.Varints
import RulesElide.Library.ActionGraph
import RulesElide.Rules.Actions
import RulesElide.Rules.Compilations
import RulesElide.Rules.Targets
import RulesElide.Rules.TargetGraph
import RulesElide.Rules.Reports
import RulesElide.IncrementalWorker.History
import RulesElide.Rules.IncrementalBuilds
import RulesElide.Library.Glob
import RulesElide.Toolchains.Resolution
import RulesElide.Toolchains.ToolFiles
import RulesElide.Library.Shell
import RulesElide.Rules.Format
import RulesElide.Rules.Launchers
import RulesElide.Toolchains.KotlinToolchain
