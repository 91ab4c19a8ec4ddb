import Galley.Document.Lemmas
import Galley.Main
import Galley.Proofs.Conversion.ContextRule
import Galley.Proofs.Conversion.WalkOrder
import Galley.Proofs.Document.Growth
import Galley.Proofs.Document.Graft
import Galley.Proofs.Conversion.LiveContext
import Galley.Proofs.Conversion.Effect
import Galley.Proofs.Conversion.Run
import Galley.Proofs.Conversion.Progress
import Galley.Proofs.Conversion.Calls
import Galley.Proofs.Conversion.ExistingContent
import Galley.Proofs.Document.Shown
import Galley.Proofs.Conversion.TextsAndLinks
import Galley.Proofs.Conversion.ListMarkers
import Galley.Proofs.Conversion.Lists
import Galley.Proofs.Conversion.Failures
import Galley.Proofs.Conversion.Continuation
import Galley.Proofs.Conversion.BreakRuns
import Galley.Proofs.Conversion.Idle
import Galley.Proofs.Conversion.Spacers
import Galley.Proofs.Conversion.NearestBlock
import Galley.Proofs.Conversion.InlineContent
import Galley.Proofs.Document.Owners
import Galley.Proofs.Document.Operations
import Galley.Proofs.Conversion.Composed
import Galley.Proofs.Conversion.DepthLimit
import Galley.Proofs.Document.Moved
import Galley.Proofs.Conversion.Independence
import Galley.Proofs.Document.Order
import Galley.Proofs.Conversion.BlockOrder
import Galley.Proofs.Conversion.RegistryMap
import Galley.Proofs.Conversion.Skeleton
import Galley.Proofs.Conversion.LooseContent
import Galley.Proofs.Document.TreeOrder
import Galley.Proofs.Conversion.AnyContext
import Galley.Proofs.Text.Search
import Galley.Proofs.Markup.DeclaredAlignment
import Galley.Proofs.Text.ReadingBack
import Galley.Proofs.Document.OutlineText
import Galley.Proofs.Document.OutlineReading
import Galley.Proofs.Document.OutlineOrder
import Galley.Proofs.Json.Grammar
import Galley.Proofs.Json.Reading
import Galley.Proofs.Json.Acceptance
import Galley.Proofs.Json.Numerals
import Galley.Proofs.Json.Writing
import Galley.Proofs.Json.Fields
import Galley.Proofs.Conversion.SettingsText
import Galley.Proofs.Conversion.OutlineOfMarkup
import Galley.Proofs.Conversion.BareMarkup
import Galley.Proofs.Conversion.ReservedClass
import Galley.Proofs.CommandLine.Rendering
import Galley.Proofs.CommandLine.SettingsLayers
import Galley.Proofs.Conversion.ItemPositions
