/-!
# Open lists

Whether an item belongs to a numbered or to a bulleted list depends on the lists that are open
around it. `ListNesting` records them in a fixed number of slots: a list that opens while all slots
are taken replaces the innermost one, and a closing tag without an open list does nothing. Deep or
unbalanced markup is therefore classified as well as can be, and never an error.

The record is read through `openLists`, outermost list first; a slot beyond the open ones may hold
anything.

* `openLists_push`, `openLists_pop`: what the two operations do to the open lists.
* `innermost?_push`: a list that was just opened is the innermost one.
* `capacity_push`, `capacity_pop`: the number of slots never changes.
-/
namespace MarkdownPreview.Markup

inductive ListKind where
  | ordered
  | unordered
  deriving DecidableEq, Repr

def ListKind.tagName : ListKind → String
  | .ordered => "ol"
  | .unordered => "ul"

/-- The open lists, in a fixed number of slots of which the first `count` are in use. -/
structure ListNesting where
  slots : List ListKind
  count : Nat
  two_le : 2 ≤ slots.length
  count_le : count ≤ slots.length

/-- Why a record of open lists cannot be made. -/
inductive NestingError where
  | tooFewSlots
  deriving DecidableEq, Repr

def NestingError.message : NestingError → String
  | .tooFewSlots => "capacity must be at least 2"

namespace ListNesting

/-! ## Operations -/

/-- How many lists can be recorded. -/
def capacity (l : ListNesting) : Nat :=
  l.slots.length

def empty (n : Nat) (h : 2 ≤ n) : ListNesting :=
  ⟨List.replicate n .unordered, 0, by simpa using h, Nat.zero_le _⟩

/-- A record with the given number of slots, of which there must be two at least. -/
def create (slots : Int) : Except NestingError ListNesting :=
  if h : 2 ≤ slots.toNat then .ok (empty slots.toNat h) else .error .tooFewSlots

/-- How many lists a document may nest before the innermost ones share a slot. -/
def documentDepth : Nat := 20

def initial : ListNesting :=
  empty documentDepth (by decide)

/-- The slot that the next list goes to: the last one when all are taken. -/
def nextSlot (l : ListNesting) : Nat :=
  if l.count < l.capacity then l.count else l.capacity - 1

theorem nextSlot_lt (l : ListNesting) : l.nextSlot < l.slots.length := by
  have := l.two_le
  unfold nextSlot capacity
  split <;> omega

def push (l : ListNesting) (k : ListKind) : ListNesting where
  slots := l.slots.set l.nextSlot k
  count := l.nextSlot + 1
  two_le := by simpa using l.two_le
  count_le := by rw [List.length_set]; exact l.nextSlot_lt

def pop (l : ListNesting) : ListNesting where
  slots := l.slots
  count := l.count - 1
  two_le := l.two_le
  count_le := Nat.le_trans (Nat.sub_le ..) l.count_le

/-- The open lists, outermost first. -/
def openLists (l : ListNesting) : List ListKind :=
  l.slots.take l.count

def innermost? (l : ListNesting) : Option ListKind :=
  if l.count = 0 then none else l.slots[l.count - 1]?

/-- The place of the innermost open list, counted from zero; `-1` when none is open. -/
def depth (l : ListNesting) : Int :=
  l.count - 1

/-- Whether the innermost open list is a bulleted one. -/
def inUnordered (l : ListNesting) : Bool :=
  l.innermost? = some .unordered

/-- The record in words: the tag names of the open lists. -/
def describe (l : ListNesting) : String :=
  let names := l.openLists.map ListKind.tagName
  "ListNestingTracker(" ++ (if names.isEmpty then "empty" else ">".intercalate names) ++ ")"

/-! ## What the operations do to the open lists -/

theorem length_openLists (l : ListNesting) : l.openLists.length = l.count := by
  simp [openLists, Nat.min_eq_left l.count_le]

theorem dropLast_openLists (l : ListNesting) :
    l.openLists.dropLast = l.slots.take (l.count - 1) := by
  rw [List.dropLast_eq_take, length_openLists, openLists, List.take_take,
    Nat.min_eq_left (Nat.sub_le ..)]

@[simp] theorem capacity_push (l : ListNesting) (k : ListKind) :
    (l.push k).capacity = l.capacity := by
  simp [capacity, push]

@[simp] theorem capacity_pop (l : ListNesting) : l.pop.capacity = l.capacity := rfl

@[simp] theorem openLists_empty (n : Nat) (h : 2 ≤ n) : (empty n h).openLists = [] := rfl

theorem openLists_push (l : ListNesting) (k : ListKind) :
    (l.push k).openLists = l.slots.take l.nextSlot ++ [k] := by
  simp only [openLists, push]
  rw [List.take_add_one, List.take_set_of_le (Nat.le_refl _)]
  simp [l.nextSlot_lt]

theorem openLists_push_of_lt (l : ListNesting) (k : ListKind) (h : l.count < l.capacity) :
    (l.push k).openLists = l.openLists ++ [k] := by
  rw [openLists_push, nextSlot, if_pos h, openLists]

theorem openLists_push_of_eq (l : ListNesting) (k : ListKind) (h : l.count = l.capacity) :
    (l.push k).openLists = l.openLists.dropLast ++ [k] := by
  rw [openLists_push, nextSlot, if_neg (by omega), dropLast_openLists, h]

theorem openLists_pop (l : ListNesting) : l.pop.openLists = l.openLists.dropLast := by
  rw [dropLast_openLists]; rfl

theorem innermost?_eq (l : ListNesting) : l.innermost? = l.openLists.getLast? := by
  rw [List.getLast?_eq_getElem?, length_openLists, openLists, innermost?]
  split
  · rename_i h; simp [h]
  · rw [List.getElem?_take_of_lt (by omega)]

theorem innermost?_push (l : ListNesting) (k : ListKind) : (l.push k).innermost? = some k := by
  rw [innermost?_eq, openLists_push]; simp

end ListNesting

end MarkdownPreview.Markup
