import PageBindings.Script.BrowserSession
import PageBindings.Script.MemorySession
import PageBindings.Script.RebuildRules
import PageBindings.Proofs.Binding.Declaration
import PageBindings.Proofs.Binding.Discovery
import PageBindings.Proofs.Patch.Basic
import PageBindings.Proofs.Patch.Insertion
import PageBindings.Proofs.Patch.Likeness
import PageBindings.Proofs.Script.Completion
import PageBindings.Proofs.Script.Coverage
import PageBindings.Proofs.Script.Dispatch
import PageBindings.Proofs.Script.Listeners
import PageBindings.Proofs.World.Channels
import PageBindings.Proofs.Script.Channels
import PageBindings.Proofs.Binding.Grammar
import PageBindings.Proofs.Json.Numeral
import PageBindings.Proofs.Json.RoundTrip
import PageBindings.Proofs.Json.Grammar
import PageBindings.Proofs.Number.Overflow
import PageBindings.Proofs.Json.Limits
import PageBindings.Proofs.Binding.RoundTrip
import PageBindings.Proofs.Binding.Targeting
import PageBindings.Proofs.Document.Tree
import PageBindings.Proofs.Document.Copies
import PageBindings.Proofs.Document.Splicing
import PageBindings.Proofs.Markup.Entities
import PageBindings.Proofs.Markup.Rendering
import PageBindings.Proofs.Markup.RoundTrip
import PageBindings.Proofs.Markup.Bytes
import PageBindings.Proofs.Markup.Characters
import PageBindings.Proofs.Document.Numbering
import PageBindings.Proofs.Page.Creation
import PageBindings.Proofs.Client.Marks
import PageBindings.Proofs.Page.Features
import PageBindings.Proofs.Patch.Planting
import PageBindings.Proofs.Client.Grafting
import PageBindings.Proofs.Client.Commuting
import PageBindings.Proofs.Document.Order
import PageBindings.Proofs.Selector.Attribute
import PageBindings.Proofs.Selector.CssString
import PageBindings.Proofs.Selector.Grammar
import PageBindings.Proofs.Text.Words
import PageBindings.Proofs.Push.Message
import PageBindings.Proofs.Settings.Values
import PageBindings.Proofs.Settings.Record
import PageBindings.Proofs.Settings.Choice
import PageBindings.Proofs.Settings.Partial
import PageBindings.Proofs.Page.Views
import PageBindings.Proofs.Selector.Search
import PageBindings.Proofs.Page.Marks
import PageBindings.Proofs.Text.FormEncoding
import PageBindings.Proofs.Request
import PageBindings.Proofs.Script.Departure
import PageBindings.Proofs.Client.Order
import PageBindings.Proofs.Client.Scanning
import PageBindings.Proofs.Parameter
import PageBindings.Proofs.Client.Failure
import PageBindings.Proofs.Client.Pushing
import PageBindings.Proofs.Document.Remaking
import PageBindings.Proofs.Patch.Remaking
import PageBindings.Proofs.Client.Rebinding
import PageBindings.Proofs.Script.Rebinding
import PageBindings.Proofs.Client.Delivery
import PageBindings.Proofs.Script.Pushing
import PageBindings.Proofs.Client.Redelivery
import PageBindings.Proofs.Script.Redelivery
import PageBindings.Proofs.Patch.Refusals
import PageBindings.Proofs.Client.Isolation
import PageBindings.Proofs.Client.Healing
import PageBindings.Proofs.World.Healing
import PageBindings.Proofs.Script.Healing
import PageBindings.Proofs.Script.Recording
import PageBindings.Proofs.Binding.Roots
import PageBindings.Proofs.Json.Walk
import PageBindings.Proofs.Json.Rebuild
import PageBindings.Proofs.Patch.Moving
