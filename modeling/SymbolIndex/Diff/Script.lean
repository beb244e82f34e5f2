/-!
# Edit scripts

An edit script tells how one list of lines becomes another: it keeps, deletes
and inserts runs of lines.  `shared` counts the lines at which two stretches of
lines agree, from the front or from the back.
-/

namespace SymbolIndex

namespace Diff

inductive RunKind where
  | keep
  | delete
  | insert
  deriving DecidableEq, Repr

/-- A run of lines with one fate. -/
structure Run where
  kind : RunKind
  length : Nat
  deriving DecidableEq, Repr

namespace Run

def oldLength (run : Run) : Nat :=
  if run.kind = .insert then 0 else run.length

def newLength (run : Run) : Nat :=
  if run.kind = .delete then 0 else run.length

end Run

abbrev Script := List Run

/-- The stretch of an array from `start`, `length` lines long. -/
structure Stretch where
  start : Nat
  length : Nat
  deriving DecidableEq, Repr

namespace Stretch

def stop (stretch : Stretch) : Nat := stretch.start + stretch.length

def drop (stretch : Stretch) (count : Nat) : Stretch :=
  ⟨stretch.start + count, stretch.length - count⟩

def take (stretch : Stretch) (count : Nat) : Stretch :=
  ⟨stretch.start, min count stretch.length⟩

end Stretch

/-- How many lines two arrays share from the given places on, at most so many. -/
def sharedFrom (old new : Array String) (i j : Nat) : Nat → Nat
  | 0 => 0
  | most + 1 =>
    if old[i]? = new[j]? then sharedFrom old new (i + 1) (j + 1) most + 1 else 0

def sharedBefore (old new : Array String) (i j : Nat) : Nat → Nat
  | 0 => 0
  | most + 1 =>
    if old[i - 1]? = new[j - 1]? then sharedBefore old new (i - 1) (j - 1) most + 1 else 0

def sharedFront (old new : Array String) (a b : Stretch) : Nat :=
  sharedFrom old new a.start b.start (min a.length b.length)

def sharedBack (old new : Array String) (a b : Stretch) : Nat :=
  sharedBefore old new a.stop b.stop (min a.length b.length)

/-- The lines that a script makes of old lines, given the new lines that it
inserts; nothing if the script does not fit. -/
def replay? : Script → List String → List String → Option (List String)
  | [], [], [] => some []
  | [], _, _ => none
  | ⟨.keep, n⟩ :: rest, old, new =>
    if n ≤ old.length ∧ old.take n = new.take n then
      (replay? rest (old.drop n) (new.drop n)).map (old.take n ++ ·)
    else none
  | ⟨.delete, n⟩ :: rest, old, new =>
    if n ≤ old.length then replay? rest (old.drop n) new else none
  | ⟨.insert, n⟩ :: rest, old, new =>
    if n ≤ new.length then (replay? rest old (new.drop n)).map (new.take n ++ ·) else none

end Diff

end SymbolIndex
