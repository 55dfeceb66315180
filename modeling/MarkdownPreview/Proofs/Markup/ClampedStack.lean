import Mathlib.Data.List.Induction
import MarkdownPreview.Proofs.Markup.ListEvents

/-!
# The record of open lists as a clamped stack

`ListNesting` keeps the open lists in slots, and a slot keeps its value when its list closes. To
whoever looks at a record it is a stack of at most as many lists as it has slots (`clamp`), on which
a list that does not fit takes the place of the innermost one.

A *view* is all that can be seen of a record: the number of slots, the depth, the innermost list,
and the record in words.

* `openLists_after_clamp`, `openLists_afterAll`: an event does to the open lists what it does to the
  stack, and so do any events in turn.
* `view_eq_viewOf`: the view is one of the open lists alone, whatever the other slots hold.
* `openLists_eq_pile`: while no more lists are open than there are slots, the stack has no bound.
* `records_clamped_stack`: all of this for every number of slots and any events.
-/
namespace MarkdownPreview.Markup

/-! ## The stack -/

/-- The lists on a stack with `n` places after an event, outermost first. -/
def clamp (n : Nat) (stack : List ListKind) : ListEvent → List ListKind
  | .opens k => if stack.length < n then stack ++ [k] else stack.dropLast ++ [k]
  | .closes => stack.dropLast

/-- The lists on a stack with `n` places after some events in turn. -/
def clamped (n : Nat) (events : List ListEvent) : List ListKind :=
  events.foldl (clamp n) []

/-- The lists that are open after some events in turn, however many they are, innermost first. -/
def pile (events : List ListEvent) : List ListKind :=
  events.foldl (fun stack e => stackAfter stack (some e)) []

/-- A record after some events in turn. -/
def ListNesting.afterAll (l : ListNesting) (events : List ListEvent) : ListNesting :=
  events.foldl (fun l e => l.after (some e)) l

namespace ListNesting

theorem afterAll_concat (l : ListNesting) (events : List ListEvent) (e : ListEvent) :
    l.afterAll (events ++ [e]) = (l.afterAll events).after (some e) :=
  List.foldl_append

theorem capacity_afterAll (l : ListNesting) (events : List ListEvent) :
    (l.afterAll events).capacity = l.capacity := by
  induction events generalizing l with
  | nil => rfl
  | cons e events ih => exact (ih _).trans (capacity_after l (some e))

/-- What an event does to the open lists is what it does to a stack with as many places. -/
theorem openLists_after_clamp (l : ListNesting) (e : ListEvent) :
    (l.after (some e)).openLists = clamp l.capacity l.openLists e := by
  cases e with
  | opens k =>
    rw [clamp, length_openLists]
    split
    · rename_i hroom
      exact l.openLists_push_of_lt k hroom
    · rename_i hfull
      exact l.openLists_push_of_eq k (Nat.le_antisymm l.count_le (Nat.not_lt.1 hfull))
  | closes => exact l.openLists_pop

theorem openLists_afterAll (l : ListNesting) (events : List ListEvent) :
    (l.afterAll events).openLists = events.foldl (clamp l.capacity) l.openLists := by
  induction events generalizing l with
  | nil => rfl
  | cons e events ih =>
    rw [List.foldl_cons, ← openLists_after_clamp, ← capacity_after l (some e)]
    exact ih _

/-! ## What is to be seen -/

/-- All that can be seen of a record. -/
structure View where
  capacity : Nat
  depth : Int
  innermost? : Option ListKind
  inUnordered : Bool
  description : String
  deriving DecidableEq, Repr

def view (l : ListNesting) : View where
  capacity := l.capacity
  depth := l.depth
  innermost? := l.innermost?
  inUnordered := l.inUnordered
  description := l.describe

/-- The view of a stack with `n` places. -/
def viewOf (n : Nat) (stack : List ListKind) : View where
  capacity := n
  depth := stack.length - 1
  innermost? := stack.getLast?
  inUnordered := stack.getLast? = some .unordered
  description := "ListNestingTracker(" ++
    (if stack.isEmpty then "empty" else ">".intercalate (stack.map ListKind.tagName)) ++ ")"

/-- What a slot holds beyond the open lists cannot be seen. -/
theorem view_eq_viewOf (l : ListNesting) : l.view = viewOf l.capacity l.openLists := by
  have hdepth : l.depth = (l.openLists.length : Int) - 1 := by
    rw [length_openLists]
    rfl
  have hwords : l.describe = "ListNestingTracker(" ++ (if l.openLists.isEmpty then "empty"
      else ">".intercalate (l.openLists.map ListKind.tagName)) ++ ")" := by
    unfold describe
    simp only [List.isEmpty_map]
  rw [view, viewOf, hdepth, hwords, inUnordered, innermost?_eq]

/-- Records with as many slots and the same open lists cannot be told apart, now or later. -/
theorem view_afterAll_congr {l l' : ListNesting} (hcap : l.capacity = l'.capacity)
    (hopen : l.openLists = l'.openLists) (events : List ListEvent) :
    (l.afterAll events).view = (l'.afterAll events).view := by
  rw [view_eq_viewOf, view_eq_viewOf, openLists_afterAll, openLists_afterAll, capacity_afterAll,
    capacity_afterAll, hcap, hopen]

/-! ## A stack without bound -/

/-- Nowhere among the events are more than `n` lists open. -/
def Fits (n : Nat) (events : List ListEvent) : Prop :=
  ∀ i, i ≤ events.length → (pile (events.take i)).length ≤ n

instance (n : Nat) (events : List ListEvent) : Decidable (Fits n events) :=
  inferInstanceAs (Decidable (∀ i, i ≤ events.length → _))

theorem pile_concat (events : List ListEvent) (e : ListEvent) :
    pile (events ++ [e]) = stackAfter (pile events) (some e) :=
  List.foldl_append

theorem Fits.of_concat {n : Nat} {events : List ListEvent} {e : ListEvent}
    (h : Fits n (events ++ [e])) : Fits n events := by
  intro i hi
  have := h i (by rw [List.length_append]; omega)
  rwa [List.take_append_of_le_length hi] at this

/-- While the open lists fit, none of them is lost. -/
theorem openLists_eq_pile {l : ListNesting} (hl : l.openLists = []) {events : List ListEvent}
    (h : Fits l.capacity events) : (l.afterAll events).openLists.reverse = pile events := by
  induction events using List.reverseRecOn with
  | nil => exact congrArg List.reverse hl
  | append_singleton events e ih =>
    have hlen := h (events ++ [e]).length (Nat.le_refl _)
    rw [List.take_length, pile_concat] at hlen
    rw [afterAll_concat, pile_concat]
    refine openLists_after (ih h.of_concat) ?_
    rwa [capacity_afterAll]

end ListNesting

/-! ## Every record -/

open ListNesting (View viewOf Fits)

/-- What is to be seen of a record `l` with `n` slots behind some events: the clamped stack. -/
structure RecordsStack (n : Nat) (l : ListNesting) (events : List ListEvent) : Prop where
  seen : (l.afterAll events).view = viewOf n (clamped n events)
  depth : -1 ≤ (l.afterAll events).depth ∧ (l.afterAll events).depth ≤ n - 1
  opened : ∀ k, (l.afterAll (events ++ [.opens k])).innermost? = some k
  /-- Another record with as many slots and the same open lists looks the same, whatever happens to
  both of them. -/
  stale : ∀ l' : ListNesting, l'.capacity = n → l'.openLists = clamped n events →
    ∀ more, (l'.afterAll more).view = (l.afterAll (events ++ more)).view
  unbounded : Fits n events → clamped n events = (pile events).reverse

/-- A new record with two slots at least is a clamped stack, whatever opens and closes. -/
theorem records_clamped_stack {n : Nat} (h : 2 ≤ n) :
    ∃ l, ListNesting.create n = .ok l ∧ ∀ events, RecordsStack n l events := by
  have hcreate : ListNesting.create n = .ok (.empty n h) := by
    simp [ListNesting.create, h]
  have hcap : (ListNesting.empty n h).capacity = n := List.length_replicate ..
  refine ⟨_, hcreate, fun events => ?_⟩
  have hopen : ((ListNesting.empty n h).afterAll events).openLists = clamped n events := by
    rw [ListNesting.openLists_afterAll, hcap]
    rfl
  have hcap' : ((ListNesting.empty n h).afterAll events).capacity = n := by
    rw [ListNesting.capacity_afterAll, hcap]
  refine ⟨?_, ?_, fun k => ?_, fun l' hl' hopen' more => ?_, fun hfits => ?_⟩
  · rw [ListNesting.view_eq_viewOf, hcap', hopen]
  · have hle := ((ListNesting.empty n h).afterAll events).count_le
    rw [ListNesting.capacity] at hcap'
    rw [ListNesting.depth]
    omega
  · rw [ListNesting.afterAll_concat]
    exact ListNesting.innermost?_push ..
  · rw [ListNesting.afterAll, ListNesting.afterAll, List.foldl_append]
    exact ListNesting.view_afterAll_congr (hl'.trans hcap'.symm) (hopen'.trans hopen.symm) more
  · rw [← ListNesting.openLists_eq_pile (ListNesting.openLists_empty n h) (hcap.symm ▸ hfits),
      List.reverse_reverse, hopen]

/-- Two slots: a list that opens where another one has closed, a third list too many, and a list in
the slot of one that has closed. -/
theorem records_clamped_stack_refilled : ∃ l, ListNesting.create 2 = .ok l ∧
    Fits 2 [.closes, .opens .ordered, .closes, .opens .unordered] ∧
    clamped 2 [.closes, .opens .ordered, .closes, .opens .unordered] = [.unordered] ∧
    (l.afterAll [.opens .ordered, .opens .unordered, .opens .ordered, .closes]).view =
      ⟨2, 0, some .ordered, false, "ListNestingTracker(ol)"⟩ ∧
    (l.afterAll [.opens .ordered, .opens .ordered, .closes, .opens .unordered]).view =
      ⟨2, 1, some .unordered, true, "ListNestingTracker(ol>ul)"⟩ := by
  obtain ⟨l, hl, h⟩ := records_clamped_stack (Nat.le_refl 2)
  have hfits : Fits 2 [.closes, .opens .ordered, .closes, .opens .unordered] := by decide
  exact ⟨l, hl, hfits, ((h _).unbounded hfits).trans (by decide), (h _).seen.trans (by decide),
    (h _).seen.trans (by decide)⟩

end MarkdownPreview.Markup
