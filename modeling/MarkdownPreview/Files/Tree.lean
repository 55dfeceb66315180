import MarkdownPreview.Files.Path
import MarkdownPreview.Text.PointText
import MarkdownPreview.Text.Utf8

/-!
# Files

A `Tree` holds the files below the working directory. A directory is there if a file is below it, if
it is listed, or if it is the working directory, one above it or the root. Following a path goes
from part to part, and every place before the last has to be a directory that is there. Names and
whole paths have a greatest length, the system may bar what is done at a place, and files can take
a limited number of octets.

A file is written in steps. Opening it makes it empty, or creates it; what is written afterwards may
not all find room. So what comes after the opening leaves the file without its old content.

* `file?_put_self`: what is put into a file is its content afterwards.
* `sameBut_put`: nothing else changes.
* `fitting_of_fits`: if there is room, all is written.
-/
namespace MarkdownPreview.Files

open Text (Phrase Point)

/-! ## Places -/

/-- The directory from which a place is reached by names alone. -/
inductive Origin where
  /-- Some levels above the working directory. -/
  | above (levels : Nat)
  /-- The root directory. -/
  | root
  deriving DecidableEq, Repr

/-- A file or a directory, whether it is there or not. -/
structure Place where
  origin : Origin
  names : List (List UInt8)
  deriving DecidableEq, Repr

namespace Place

def here : Place := ⟨.above 0, []⟩

def parent (p : Place) : Place :=
  match p.names, p.origin with
  | [], .above levels => ⟨.above (levels + 1), []⟩
  | [], .root => p
  | names, origin => ⟨origin, names.dropLast⟩

/-- The place that one part of a path leads to. -/
def step (p : Place) (part : Phrase) : Place :=
  if part = .plain ".." then p.parent else ⟨p.origin, p.names ++ [nameOctets part]⟩

/-- Whether one place lies somewhere below another one. -/
def isBelow (p q : Place) : Bool :=
  p.origin = q.origin && q.names.isPrefixOf p.names && p.names ≠ q.names

def start : Root → Place
  | .here => here
  | .top | .doubled => ⟨.root, []⟩

/-- The places that some parts pass, from a place on. -/
def passed : Place → List Phrase → List Place
  | p, [] => [p]
  | p, part :: r => p :: passed (p.step part) r

def originText : Origin → String
  | .above levels => String.join (List.replicate levels "../")
  | .root => "/"

/-- The path of a place from the working directory or from the root. -/
def text (p : Place) : String :=
  let names := p.names.map fun name => String.ofList (Text.Utf8.decodeLossy name)
  match originText p.origin ++ "/".intercalate names with
  | "" => "."
  | s => s

end Place

/-- Every place that a path passes, the one it leads to included. -/
def Path.places (p : Path) : List Place :=
  Place.passed (.start p.root) p.parts

/-! ## Faults -/

/-- Why a file cannot be read or opened. -/
inductive FileError where
  | missing
  | notDirectory
  | isDirectory
  | nameTooLong
  /-- The system bars it, with a number and a text of its own. -/
  | barred (number : Nat) (title : String)
  deriving DecidableEq, Repr

namespace FileError

/-- What is said where permission is denied. -/
def denied : FileError := barred 13 "Permission denied"

def number : FileError → Nat
  | missing => 2
  | notDirectory => 20
  | isDirectory => 21
  | nameTooLong => 36
  | barred number _ => number

def title : FileError → String
  | missing => "No such file or directory"
  | notDirectory => "Not a directory"
  | isDirectory => "Is a directory"
  | nameTooLong => "File name too long"
  | barred _ title => title

def message (e : FileError) (p : Path) : String :=
  "[Errno " ++ toString e.number ++ "] " ++ e.title ++ ": " ++
    String.ofList (Point.quoted p.text.points)

end FileError

/-! ## Trees -/

abbrev Content := List UInt8

/-- What can be done at a place. -/
inductive Access where
  /-- Passing a directory. -/
  | pass
  | read
  | write
  deriving DecidableEq, Repr

/-- The files and directories that are there. -/
structure Tree where
  files : List (Place × Content) := []
  directories : List Place := []
  /-- What the system bars. -/
  bars : List ((Place × Access) × FileError) := []
  /-- How many octets a file can take; any number of them if this is left open. -/
  room : Option Nat := none
  deriving DecidableEq, Repr

namespace Tree

def file? (t : Tree) (p : Place) : Option Content :=
  List.lookup p t.files

def isDirectory (t : Tree) (p : Place) : Bool :=
  p.names.isEmpty || t.directories.contains p || t.files.any fun f => f.1.isBelow p

def bar? (t : Tree) (p : Place) (a : Access) : Option FileError :=
  List.lookup (p, a) t.bars

/-- The most octets of a name. -/
def maxName : Nat := 255

/-- The most octets of a path. -/
def maxPath : Nat := 4095

/-- The place that some parts lead to from a place. -/
def follow (t : Tree) : Place → List Phrase → Except FileError Place
  | p, [] => .ok p
  | p, part :: r =>
    if t.isDirectory p then
      match t.bar? p .pass with
      | some e => .error e
      | none =>
        if maxName < (nameOctets part).length then .error .nameTooLong
        else t.follow (p.step part) r
    else if (t.file? p).isSome then .error .notDirectory
    else .error .missing

/-- The place that a path leads to, whatever is there. -/
def reach (t : Tree) (p : Path) : Except FileError Place :=
  if maxPath < (nameOctets p.text).length then .error .nameTooLong
  else t.follow (.start p.root) p.parts

def read (t : Tree) (p : Path) : Except FileError Content :=
  match t.reach p with
  | .error e => .error e
  | .ok place =>
    match t.bar? place .read with
    | some e => .error e
    | none =>
      if t.isDirectory place then .error .isDirectory
      else
        match t.file? place with
        | some content => .ok content
        | none => .error .missing

/-- The place of the file that a path leads to, if it can be opened to be written. -/
def target (t : Tree) (p : Path) : Except FileError Place :=
  match t.reach p with
  | .error e => .error e
  | .ok place =>
    if t.isDirectory place then .error .isDirectory
    else
      match t.bar? place .write with
      | some e => .error e
      | none => .ok place

/-- Files with one more, or with new content in the place of the old one. -/
def putFile : List (Place × Content) → Place → Content → List (Place × Content)
  | [], p, content => [(p, content)]
  | (q, old) :: r, p, content =>
    if q = p then (q, content) :: r else (q, old) :: putFile r p content

def put (t : Tree) (p : Place) (content : Content) : Tree :=
  { t with files := putFile t.files p content }

/-- Whether a file can take some content. -/
def fits (t : Tree) (content : Content) : Bool :=
  t.room.all fun most => content.length ≤ most

/-- As much of some content as a file can take. -/
def fitting (t : Tree) (content : Content) : Content :=
  match t.room with
  | none => content
  | some most => content.take most

/-- The files of a later tree that are new in it or have other content. -/
def changed (before after : Tree) : List (Place × Content) :=
  after.files.filter fun f => before.file? f.1 ≠ some f.2

theorem fitting_of_fits {t : Tree} {content : Content} (h : t.fits content = true) :
    t.fitting content = content := by
  unfold fits at h
  unfold fitting
  cases hr : t.room with
  | none => rfl
  | some most =>
    rw [hr] at h
    exact List.take_of_length_le (by simpa using h)

theorem file?_put_self (t : Tree) (p : Place) (content : Content) :
    (t.put p content).file? p = some content := by
  obtain ⟨files, _⟩ := t
  show List.lookup p (putFile files p content) = some content
  induction files with
  | nil => simp [putFile]
  | cons f r ih =>
    obtain ⟨q, old⟩ := f
    by_cases h : q = p
    · simp [putFile, h]
    · have : (p == q) = false := by simpa using fun e => h e.symm
      simpa [putFile, h, List.lookup_cons, this] using ih

theorem file?_put_of_ne (t : Tree) {p q : Place} (content : Content) (h : q ≠ p) :
    (t.put p content).file? q = t.file? q := by
  obtain ⟨files, _⟩ := t
  show List.lookup q (putFile files p content) = List.lookup q files
  have hq : (q == p) = false := by simpa using h
  induction files with
  | nil => simp [putFile, List.lookup_cons, hq]
  | cons f r ih =>
    obtain ⟨k, old⟩ := f
    by_cases hk : k = p
    · simp [putFile, hk, List.lookup_cons, hq]
    · cases hqk : q == k with
      | true => simp [putFile, hk, List.lookup_cons, hqk]
      | false => simpa [putFile, hk, List.lookup_cons, hqk] using ih

/-- What is put into a file last counts. -/
theorem put_put (t : Tree) (p : Place) (content content' : Content) :
    (t.put p content).put p content' = t.put p content' := by
  have hfiles : ∀ files : List (Place × Content),
      putFile (putFile files p content) p content' = putFile files p content' := by
    intro files
    induction files with
    | nil => simp [putFile]
    | cons f r ih =>
      obtain ⟨q, old⟩ := f
      by_cases h : q = p
      · simp [putFile, h]
      · simp [putFile, h, ih]
  simp only [put, hfiles]

/-- Two trees differ in one file at most. -/
structure SameBut (p : Place) (t t' : Tree) : Prop where
  files : ∀ q, q ≠ p → t'.file? q = t.file? q
  directories : t'.directories = t.directories
  bars : t'.bars = t.bars
  room : t'.room = t.room

theorem sameBut_put (t : Tree) (p : Place) (content : Content) : SameBut p t (t.put p content) where
  files _ hq := file?_put_of_ne t content hq
  directories := rfl
  bars := rfl
  room := rfl

end Tree

end MarkdownPreview.Files
