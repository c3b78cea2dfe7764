import AssetUsage.Text.Word
import AssetUsage.Text.Basic
import AssetUsage.Text.Lines
import AssetUsage.Path.Bytes
import AssetUsage.Path.Name
import AssetUsage.Path.Normal
import AssetUsage.Reference
import AssetUsage.Finder.Line
import AssetUsage.Project
import AssetUsage.Tree.Reading
import AssetUsage.Main
import AssetUsage.Report.Render
import AssetUsage.Session
import AssetUsage.Hashing
import AssetUsage.Command.Run
import AssetUsage.Proofs.Scan.Exactness
import AssetUsage.Proofs.Scan.DeferredText
import AssetUsage.Proofs.Layout.Declarations
import AssetUsage.Proofs.Session.History
import AssetUsage.Proofs.Markup.SpelledTag
import AssetUsage.Proofs.Finder.TagReferences
import AssetUsage.Proofs.Command.Agreement
import AssetUsage.Proofs.Path.Below
import AssetUsage.Proofs.Command.Spellings
import AssetUsage.Proofs.Finder.LogicalNames
import AssetUsage.Proofs.Scan.CandidateFiles
import AssetUsage.Proofs.Call.Arguments
import AssetUsage.Proofs.Finder.HelperNames
import AssetUsage.Proofs.Layout.Conventions
import AssetUsage.Proofs.Report.Formats
import AssetUsage.Proofs.Report.JsonFormats
import AssetUsage.Proofs.Scan.Locality
import AssetUsage.Proofs.Call.NestedOptions
import AssetUsage.Proofs.Call.ContinuedLiterals
import AssetUsage.Proofs.Finder.LogicalDirectories
import AssetUsage.Proofs.Path.Climbing
import AssetUsage.Proofs.Reference.DocumentRoot
import AssetUsage.Proofs.Call.HelperPlaces
import AssetUsage.Proofs.Call.RenderEnds
import AssetUsage.Proofs.Scan.LineNumbers
import AssetUsage.Proofs.Finder.SheetReferences
import AssetUsage.Proofs.Finder.ViewReferences
import AssetUsage.Proofs.Command.ShownTargets
import AssetUsage.Proofs.Report.FileEntries
import AssetUsage.Proofs.Reference.HelperAssets
import AssetUsage.Proofs.Report.Colour
import AssetUsage.Proofs.Usage.Identity
