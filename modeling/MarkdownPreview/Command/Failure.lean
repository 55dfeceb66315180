import MarkdownPreview.Command.Arguments
import MarkdownPreview.Files.Tree
import MarkdownPreview.Page.Stylesheet
import MarkdownPreview.Preview

/-!
# Failures of the command

A failure is either reported, as a line of its own, or raised. What the caller can mend by other
arguments or another document is reported; a site that is not set up, a document that is no text, a
page that cannot be made and HTML that cannot be written or printed are raised.
-/
namespace MarkdownPreview.Command

open Files (Path FileError)
open Text (Phrase EncodeFault)

inductive Failure where
  | usage (e : UsageError)
  /-- Colours are both refused and demanded. -/
  | colorClash
  /-- Both the HTML text and a page are wanted. -/
  | partClash
  | unread (path : Path) (e : FileError)
  /-- A path, or the place of the site's settings, holds a zero. -/
  | unusableName
  /-- No file has such a name. -/
  | unnamed (e : EncodeFault)
  /-- The document is not UTF-8. -/
  | undecoded (path : Path)
  | fault (f : Fault)
  | unrendered (path : Path) (reason : String)
  | unstyled (e : Page.StyleFault)
  /-- The output file cannot be opened. -/
  | unwritten (path : Path) (e : FileError)
  /-- The output file is open, but the HTML is not to be encoded. -/
  | unencoded (e : EncodeFault)
  /-- The output file cannot take all of the HTML. -/
  | noRoom
  | unprinted (e : EncodeFault)
  deriving DecidableEq, Repr

namespace Failure

def message : Failure → Phrase
  | usage e => "Error: " ++ e.message
  | colorClash => "The --no-color and --force-color options can't be used together."
  | partClash => "--raw and --document cannot be combined"
  | unread path e => "Could not read " ++ path.text ++ ": " ++ e.message path
  | unusableName => "embedded null byte"
  | unnamed e => e.message
  | undecoded path => path.text ++ " is not UTF-8"
  | fault f => f.message
  | unrendered path reason => "Failed to render " ++ path.text ++ ": " ++ reason
  | unstyled e => e.message
  | unwritten path e => e.message path
  | unencoded e => e.message
  | noRoom => "[Errno 28] No space left on device"
  | unprinted e => e.message

def isReported : Failure → Bool
  | usage _ | colorClash | partClash | unread _ _ | unrendered _ _ => true
  | _ => false

end Failure

end MarkdownPreview.Command
