/-!
# Log records

What the people who run the preview should know about is reported beside the answer. A record has a
level, the name of the part that reports, and a message.
-/
namespace MarkdownPreview

inductive LogLevel where
  | warning
  | error
  deriving DecidableEq, Repr

def LogLevel.name : LogLevel → String
  | .warning => "WARNING"
  | .error => "ERROR"

structure LogRecord where
  level : LogLevel
  source : String
  message : String
  deriving DecidableEq, Repr

end MarkdownPreview
