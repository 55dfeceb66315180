/-!
# Features of the preview

Two parts of the preview markup can be switched on and off: the check boxes of task lists and the
icon bullets of unordered lists. `Features` is the snapshot of both that a pass over a document
reads.
-/
namespace MarkdownPreview

/-- A part of the preview markup that can be switched on and off. -/
inductive Feature where
  | taskLists
  | iconBullets
  deriving DecidableEq, Repr

/-- The name under which settings and requests speak of a feature. -/
def Feature.name : Feature → String
  | .taskLists => "task_lists"
  | .iconBullets => "icon_bullets"

structure Features where
  taskLists : Bool := false
  iconBullets : Bool := false
  deriving DecidableEq, Repr

namespace Features

def has (f : Features) : Feature → Bool
  | .taskLists => f.taskLists
  | .iconBullets => f.iconBullets

/-- Whether what belongs to `need` is active: what belongs to no feature always is. -/
def allow (f : Features) (need : Option Feature) : Bool :=
  need.all f.has

@[simp] theorem allow_none (f : Features) : f.allow none = true := rfl

@[simp] theorem allow_some (f : Features) (x : Feature) : f.allow (some x) = f.has x := rfl

end Features

end MarkdownPreview
