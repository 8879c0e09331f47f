import ViewCompiler.Cache.Flight
import ViewCompiler.Main
import ViewCompiler.Memory
import ViewCompiler.Proofs.Cache.Fresh
import ViewCompiler.Proofs.Cache.Invalidation
import ViewCompiler.Proofs.Cache.Links
import ViewCompiler.Proofs.Cache.Orderly
import ViewCompiler.Proofs.Cache.Sightings
import ViewCompiler.Proofs.Cache.SingleFlight
import ViewCompiler.Proofs.Cache.Transparency
import ViewCompiler.Proofs.Cache.Unexpired
import ViewCompiler.Proofs.Compilation.Pointing
import ViewCompiler.Proofs.Page.FrontEnds
import ViewCompiler.Proofs.PageClass.Agreement
import ViewCompiler.Proofs.PageClass.Attributes
import ViewCompiler.Proofs.PageClass.ReadBack
import ViewCompiler.Proofs.Compilation.Sight
import ViewCompiler.Proofs.Dependents.Mirror
import ViewCompiler.Proofs.Cache.Vouching
import ViewCompiler.Proofs.Disk.Edits
import ViewCompiler.Proofs.Disk.Walking
import ViewCompiler.Proofs.Signals.Firing
import ViewCompiler.Proofs.Directory.Sight
import ViewCompiler.Proofs.Directory.Signalling
import ViewCompiler.Proofs.Directory.Probing
import ViewCompiler.Proofs.Checker.Answers
import ViewCompiler.Proofs.Checker.Anew
import ViewCompiler.Proofs.WatchRun.Affected
import ViewCompiler.Proofs.Directory.Contained
import ViewCompiler.Proofs.Cache.Aftermath
import ViewCompiler.Proofs.Cache.Contest
import ViewCompiler.Proofs.Cache.Timely
import ViewCompiler.Proofs.Directory.Latching
import ViewCompiler.Proofs.Memory.Landing
import ViewCompiler.Proofs.Disk.Spelling
import ViewCompiler.Proofs.Probe.Answers
import ViewCompiler.Proofs.Batch.Netting
import ViewCompiler.Proofs.Report.Carets
import ViewCompiler.Proofs.Report.Underlining
import ViewCompiler.Proofs.Signals.Reaching
import ViewCompiler.Proofs.Dependents.Recording
import ViewCompiler.Proofs.PageModel.Merging
import ViewCompiler.Proofs.Directive.Positions
import ViewCompiler.Proofs.Compilation.Grouping
import ViewCompiler.Proofs.PageClass.Literals
import ViewCompiler.Proofs.Directive.LineEnds
import ViewCompiler.Proofs.PageClass.LineEnds
import ViewCompiler.Proofs.Directive.OnePass
import ViewCompiler.Proofs.Manifest.TypeNames
import ViewCompiler.Proofs.Path.Cancelling
import ViewCompiler.Proofs.Path.ImportChain
import ViewCompiler.Proofs.Config.Reloading
import ViewCompiler.Proofs.Batch.Idling
import ViewCompiler.Proofs.Directory.Enumerating
import ViewCompiler.Proofs.Screen.Replacing
import ViewCompiler.Proofs.Checker.Finding
import ViewCompiler.Proofs.WatchRun.Attending
import ViewCompiler.Proofs.Directory.Alike
import ViewCompiler.Proofs.Path.Separators
import ViewCompiler.Proofs.Checker.Reporting
import ViewCompiler.Proofs.Config.Usable
import ViewCompiler.Proofs.Report.Words
import ViewCompiler.Proofs.PageClass.Agreement
