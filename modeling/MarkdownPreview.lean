import MarkdownPreview.Main
import MarkdownPreview.Proofs.Markup.Concatenation
import MarkdownPreview.Proofs.Markup.ItemBoxes
import MarkdownPreview.Proofs.Markup.Rows
import MarkdownPreview.Proofs.Markup.Strikethrough
import MarkdownPreview.Proofs.Markup.WithoutBullets
import MarkdownPreview.Proofs.Markup.WithoutTasks
import MarkdownPreview.Proofs.Preview.FlagTruth
import MarkdownPreview.Proofs.Preview.Outcome
import MarkdownPreview.Template
import MarkdownPreview.Web.Route
import MarkdownPreview.Proofs.Preview.Failures
import MarkdownPreview.Proofs.Text.Angles
import MarkdownPreview.Proofs.Web.Checks
import MarkdownPreview.Proofs.Web.Refusals
import MarkdownPreview.Proofs.Json.Spelled
import MarkdownPreview.Proofs.Web.FormSpelled
import MarkdownPreview.Proofs.Web.Posts
import MarkdownPreview.Proofs.Command.AllOrNothing
import MarkdownPreview.Proofs.Page.Structure
import MarkdownPreview.Proofs.Surfaces
import MarkdownPreview.Proofs.Markup.ItemGap
import MarkdownPreview.Proofs.Markup.ClampedStack
import MarkdownPreview.Proofs.Markup.PassThrough
import MarkdownPreview.Proofs.Settings.Acceptance
import MarkdownPreview.Proofs.Markup.SeparateRecords
import MarkdownPreview.Proofs.Markup.Growth
import MarkdownPreview.Proofs.Page.StyledClasses
