import SymbolIndex.Diff.Script

/-!
# Shortest edit scripts

A shortest script is found by divide and conquer.  Lines shared at the front
and the back are kept.  What is left is divided at a point of a shortest way
through the grid of old and new lines: two searches, one from each corner, go
one edit further at a time until they meet.  A diagonal `k` of the grid holds
the points at which the old lines passed exceed the new ones by `k`.
-/

namespace SymbolIndex

namespace Diff

/-- How far a search has come on each diagonal.  The diagonal zero is stored at
`offset`. -/
structure Frontier where
  offset : Nat
  reached : Array Nat

namespace Frontier

def empty (size : Nat) : Frontier :=
  ⟨size, Array.replicate (2 * size + 1) 0⟩

def get (frontier : Frontier) (k : Int) : Nat :=
  frontier.reached.getD (k + frontier.offset).toNat 0

def set (frontier : Frontier) (k : Int) (reach : Nat) : Frontier :=
  { frontier with
    reached := frontier.reached.setIfInBounds (k + frontier.offset).toNat reach }

/-- Where a way of `d` edits comes onto a diagonal: from the farther of its
neighbours. -/
def entry (frontier : Frontier) (d k : Int) : Nat :=
  if k = -d || (k ≠ d && frontier.get (k - 1) < frontier.get (k + 1)) then
    frontier.get (k + 1)
  else frontier.get (k - 1) + 1

end Frontier

/-- The diagonals that a way of `d` edits can end on, highest first. -/
def diagonals (d : Nat) : List Int :=
  (List.range (d + 1)).map fun (i : Nat) => (d : Int) - 2 * (i : Int)

/-- Two searches through a part of the grid. -/
structure Searches where
  forward : Frontier
  backward : Frontier

structure Part where
  old : Stretch
  new : Stretch

namespace Part

def delta (part : Part) : Int := (part.old.length : Int) - part.new.length

/-- The most edits that each search has to make. -/
def maxEdits (part : Part) : Nat := (part.old.length + part.new.length + 1) / 2 + 1

/-- Takes the forward search onto the given diagonals with `d` edits.  Where it
meets the backward search the part is divided. -/
def stepForward (old new : Array String) (part : Part) (d : Nat) :
    List Int → Searches → Searches × Option (Nat × Nat)
  | [], searches => (searches, none)
  | k :: ks, searches =>
    let x₀ := searches.forward.entry d k
    let y₀ := ((x₀ : Int) - k).toNat
    let x :=
      if x₀ < part.old.length && y₀ < part.new.length then
        x₀ + sharedFront old new (part.old.drop x₀) (part.new.drop y₀)
      else x₀
    let searches := { searches with forward := searches.forward.set k x }
    let other := k - part.delta
    if part.delta % 2 = 1 && other.natAbs + 1 ≤ d &&
        x + searches.backward.get (-other) ≥ part.old.length then
      (searches, some (part.old.start + x₀, part.new.start + y₀))
    else stepForward old new part d ks searches

/-- Takes the backward search onto the given diagonals with `d` edits.  Where it
meets the forward search the part is divided. -/
def stepBackward (old new : Array String) (part : Part) (d : Nat) :
    List Int → Searches → Searches × Option (Nat × Nat)
  | [], searches => (searches, none)
  | k :: ks, searches =>
    let x₀ := searches.backward.entry d k
    let y₀ := ((x₀ : Int) - k).toNat
    let advance :=
      if x₀ < part.old.length && y₀ < part.new.length then
        sharedBack old new (part.old.take (part.old.length - x₀))
          (part.new.take (part.new.length - y₀))
      else 0
    let x := x₀ + advance
    let y := y₀ + advance
    let searches := { searches with backward := searches.backward.set k x }
    let other := k - part.delta
    if part.delta % 2 = 0 && other.natAbs ≤ d &&
        x + searches.forward.get (-other) ≥ part.old.length then
      (searches, some (part.old.start + (part.old.length - x),
        part.new.start + (part.new.length - y)))
    else stepBackward old new part d ks searches

/-- Takes both searches on from `d` edits, for so many more. -/
def meet (old new : Array String) (part : Part) : Nat → Nat → Searches → Option (Nat × Nat)
  | 0, _, _ => none
  | more + 1, d, searches =>
    match part.stepForward old new d (diagonals d) searches with
    | (_, some point) => some point
    | (searches, none) =>
      match part.stepBackward old new d (diagonals d) searches with
      | (_, some point) => some point
      | (searches, none) => meet old new part more (d + 1) searches

def middle? (old new : Array String) (part : Part) : Option (Nat × Nat) :=
  let size := part.maxEdits + 1
  part.meet old new part.maxEdits 0 ⟨.empty size, .empty size⟩

end Part

def replaceAll (part : Part) : Script :=
  [⟨.delete, part.old.length⟩, ⟨.insert, part.new.length⟩]

/-- A script for a part of the grid, divided at most so often in depth. -/
def scriptWithin (old new : Array String) : Nat → Part → Script
  | 0, part => replaceAll part
  | fuel + 1, part =>
    let front := sharedFront old new part.old part.new
    let a := part.old.drop front
    let b := part.new.drop front
    let back := sharedBack old new a b
    let inner : Part := ⟨a.take (a.length - back), b.take (b.length - back)⟩
    let between :=
      if inner.old.length = 0 && inner.new.length = 0 then []
      else if inner.new.length = 0 then [⟨.delete, inner.old.length⟩]
      else if inner.old.length = 0 then [⟨.insert, inner.new.length⟩]
      else
        match inner.middle? old new with
        | some (x, y) =>
          let u := x - inner.old.start
          let v := y - inner.new.start
          scriptWithin old new fuel ⟨inner.old.take u, inner.new.take v⟩ ++
            scriptWithin old new fuel ⟨inner.old.drop u, inner.new.drop v⟩
        | none => replaceAll inner
    [⟨.keep, front⟩] ++ between ++ [⟨.keep, back⟩]

/-- A shortest script from the old lines to the new ones. -/
def search (old new : Array String) : Script :=
  let found :=
    scriptWithin old new (old.size + new.size + 1) ⟨⟨0, old.size⟩, ⟨0, new.size⟩⟩
  found.filter (·.length > 0)

end Diff

end SymbolIndex
