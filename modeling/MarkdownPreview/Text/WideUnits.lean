import MarkdownPreview.Text.Point

/-!
# Reading UTF-16 and UTF-32

A text may also come in units of two or four octets, in either order. Units of two form pairs for
the characters beyond the first plane, and a surrogate without a partner is a point of its own.
Octets that do not fill a unit, and units beyond the last code point, are refused.

* `length_of_pairs?`: the octets fill the units exactly.
-/
namespace MarkdownPreview.Text.WideUnits

/-- In which order the octets of a unit come. -/
inductive ByteOrder where
  | littleEnd
  | bigEnd
  deriving DecidableEq, Repr

def unitValue (order : ByteOrder) (bytes : List UInt8) : Nat :=
  let big := match order with
    | .bigEnd => bytes
    | .littleEnd => bytes.reverse
  big.foldl (fun n b => n * 256 + b.toNat) 0

/-- The units of two octets. -/
def pairs? (order : ByteOrder) : List UInt8 → Option (List Nat)
  | [] => some []
  | a :: b :: r => (pairs? order r).map (unitValue order [a, b] :: ·)
  | [_] => none

/-- The units of four octets. -/
def quads? (order : ByteOrder) : List UInt8 → Option (List Nat)
  | [] => some []
  | a :: b :: c :: d :: r => (quads? order r).map (unitValue order [a, b, c, d] :: ·)
  | _ => none

/-- Whether a unit opens a pair. -/
def isHigh (n : Nat) : Bool := 0xd800 ≤ n && n < 0xdc00

/-- Whether a unit closes a pair. -/
def isLow (n : Nat) : Bool := 0xdc00 ≤ n && n < 0xe000

def pairValue (high low : Nat) : Nat :=
  0x10000 + (high - 0xd800) * 0x400 + (low - 0xdc00)

/-- The points of units of two octets. -/
def joinPairs : List Nat → List Point
  | [] => []
  | [n] => [.ofNat n]
  | h :: l :: r =>
    if isHigh h && isLow l then .ofNat (pairValue h l) :: joinPairs r
    else .ofNat h :: joinPairs (l :: r)

def decode16? (order : ByteOrder) (bytes : List UInt8) : Option (List Point) :=
  (pairs? order bytes).map joinPairs

def decode32? (order : ByteOrder) (bytes : List UInt8) : Option (List Point) :=
  (quads? order bytes).bind fun units =>
    if units.all (· < 0x110000) then some (units.map .ofNat) else none

theorem length_of_pairs? {order : ByteOrder} {bytes : List UInt8} {units : List Nat}
    (h : pairs? order bytes = some units) : bytes.length = 2 * units.length := by
  fun_induction pairs? order bytes generalizing units with
  | case1 => cases h; rfl
  | case2 a b r ih =>
    obtain ⟨u, hu, rfl⟩ := Option.map_eq_some_iff.1 h
    simp [ih hu]; omega
  | case3 => cases h

end MarkdownPreview.Text.WideUnits
