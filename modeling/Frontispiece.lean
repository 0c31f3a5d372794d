import Frontispiece.Artifact.Svg
import Frontispiece.Build.Atlas
import Frontispiece.Build.Gallery
import Frontispiece.Command.Run
import Frontispiece.Config.Basic
import Frontispiece.Config.Report
import Frontispiece.Json.Compare
import Frontispiece.Main
import Frontispiece.Project.Layout
import Frontispiece.Project.Variant
import Frontispiece.Report.Label
import Frontispiece.Scene.Interpreter
import Frontispiece.Template.Compile
import Frontispiece.Text.Base64
import Frontispiece.Text.Split
import Frontispiece.Yaml.Data
import Frontispiece.Proofs.Artifact.Svg
import Frontispiece.Proofs.Build.Atlas
import Frontispiece.Proofs.Build.Course
import Frontispiece.Proofs.Build.Publication
import Frontispiece.Proofs.Build.Run
import Frontispiece.Proofs.Build.Session
import Frontispiece.Proofs.Deferred.Handle
import Frontispiece.Proofs.Deferred.Output
import Frontispiece.Proofs.Deferred.Resolve
import Frontispiece.Proofs.Drawing.Document
import Frontispiece.Proofs.Drawing.Frame
import Frontispiece.Proofs.Drawing.Links
import Frontispiece.Proofs.Drawing.Operation
import Frontispiece.Proofs.Drawing.Descendants
import Frontispiece.Proofs.Drawing.RoundTrip
import Frontispiece.Proofs.Drawing.Still
import Frontispiece.Proofs.Files.Growth
import Frontispiece.Proofs.Files.Part
import Frontispiece.Proofs.Files.Tree
import Frontispiece.Proofs.Json.Fields
import Frontispiece.Proofs.Markup.Escape
import Frontispiece.Proofs.Markup.Pretty
import Frontispiece.Proofs.Markup.Readable
import Frontispiece.Proofs.Markup.RoundTrip
import Frontispiece.Proofs.Markup.Tag
import Frontispiece.Proofs.Publish.Pages
import Frontispiece.Proofs.Scene.Draw
import Frontispiece.Proofs.Scene.Frame
import Frontispiece.Proofs.Scene.Import
import Frontispiece.Proofs.Scene.Still
import Frontispiece.Proofs.Stats.Provider
import Frontispiece.Proofs.Template.Congruence
import Frontispiece.Proofs.Template.Direct
import Frontispiece.Proofs.Template.Immediate
import Frontispiece.Proofs.Template.Simulation
import Frontispiece.Proofs.Template.Apart
import Frontispiece.Proofs.Scene.Alone
import Frontispiece.Proofs.Build.Isolation
import Frontispiece.Proofs.Artifact.Markdown
import Frontispiece.Proofs.Files.Kept
import Frontispiece.Proofs.Publish.Apart
import Frontispiece.Proofs.Report.Label
import Frontispiece.Proofs.Json.Compare
import Frontispiece.Proofs.Build.Reuse
import Frontispiece.Proofs.Deferred.Twin
import Frontispiece.Proofs.Drawing.Reader
import Frontispiece.Proofs.Scene.Range
import Frontispiece.Proofs.Template.Discreet
import Frontispiece.Proofs.Stats.Calls
import Frontispiece.Proofs.Project.Variant
import Frontispiece.Proofs.Artifact.Css
import Frontispiece.Proofs.Artifact.Drawing
import Frontispiece.Proofs.Artifact.Wording
import Frontispiece.Proofs.Artifact.Selector
import Frontispiece.Proofs.Drawing.Pretty
import Frontispiece.Proofs.Scene.Classes
import Frontispiece.Proofs.Scene.Style
import Frontispiece.Proofs.Scene.Definitions
import Frontispiece.Proofs.Artifact.Fence
import Frontispiece.Proofs.Artifact.Normal
import Frontispiece.Proofs.Artifact.Twice
import Frontispiece.Proofs.Deferred.Refusal
import Frontispiece.Proofs.Drawing.Copy
import Frontispiece.Proofs.Drawing.Traversal
import Frontispiece.Proofs.Scene.Graft
import Frontispiece.Proofs.Decimal.Text
import Frontispiece.Proofs.Report.Position
import Frontispiece.Proofs.Scene.Points
