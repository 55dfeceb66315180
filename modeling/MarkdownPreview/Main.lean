import MarkdownPreview.Command.Run

/-!
# The program

`render_preview` shows a preview of the file that its arguments name. What the converter has made of
that file comes in on standard input, so the program stands behind the converter in a pipe. It looks
at the places that the run needs, runs the command on what it has found, and then prints and writes
what the run says.
-/
namespace MarkdownPreview.Program

open Command (Run Ending)
open Files (Place Tree FileError)

/-- Adds to a tree what is found at a place. -/
def look (t : Tree) (p : Place) : IO Tree := do
  try
    let content ← IO.FS.readBinFile p.text
    pure (t.put p content.toList)
  catch
    | .inappropriateType _ code _ =>
      if code.toNat = FileError.isDirectory.number then
        pure { t with directories := p :: t.directories }
      else pure t
    | .permissionDenied .. => pure { t with bars := ((p, .read), .denied) :: t.bars }
    | _ => pure t

/-- What is told about a run on the error stream. -/
def complaint (r : Run) : Text.Phrase :=
  match r.failure, r.ending with
  | some f, .exit _ "" => Text.endingLine f.message
  | _, .exit _ report => report
  | _, .raised f => Text.endingLine f.message

def status (r : Run) : UInt32 :=
  match r.ending with
  | .exit status _ => UInt32.ofNat status
  | .raised _ => 1

def start (args : List String) : IO UInt32 := do
  let converted ← (← IO.getStdin).readToEnd
  let before ← (Command.placesOf args).foldlM look {}
  let r := Command.runProgram none (.finished converted none 0) .stream before args
  for (place, content) in Tree.changed before r.files do
    IO.FS.writeBinFile place.text (ByteArray.mk content.toArray)
  IO.print r.output.shown
  IO.eprint (complaint r).shown
  pure (status r)

end MarkdownPreview.Program

def main (args : List String) : IO UInt32 :=
  MarkdownPreview.Program.start args
