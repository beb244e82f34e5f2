import SymbolIndex.Diff.Search

/-!
# Sliding edits

A run of inserted or deleted lines can often be moved along the kept lines
beside it without a change to what the script does.  Runs are first moved up,
to meet others that they can be joined with, and then down as far as they go.
-/

namespace SymbolIndex

namespace Diff

/-- A place in a script: a run, the runs before it with the nearest first, and
the runs after it. -/
structure Cursor where
  before : List Run
  run : Run
  after : List Run
  /-- Where the run starts in the old lines. -/
  old : Nat
  /-- Where the run starts in the new lines. -/
  new : Nat

namespace Cursor

def keepMore (count : Nat) : List Run → List Run
  | ⟨.keep, n⟩ :: rest => ⟨.keep, n + count⟩ :: rest
  | runs => ⟨.keep, count⟩ :: runs

/-- How far an insertion or deletion can move up over kept lines before it. -/
def slackAbove (old new : Array String) (cursor : Cursor) (kept : Nat) : Nat :=
  let above : Stretch := ⟨cursor.old - kept, kept⟩
  match cursor.run.kind with
  | .insert => sharedBack old new above ⟨cursor.new, cursor.run.length⟩
  | .delete => sharedBack old old above ⟨cursor.old, cursor.run.length⟩
  | .keep => 0

/-- How far an insertion or deletion can move down over kept lines after it. -/
def slackBelow (old new : Array String) (cursor : Cursor) (kept : Nat) : Nat :=
  match cursor.run.kind with
  | .insert => sharedFront old new ⟨cursor.old, kept⟩ ⟨cursor.new, cursor.run.length⟩
  | .delete =>
    let below : Stretch := ⟨cursor.old + cursor.run.length, kept⟩
    sharedFront old old below ⟨cursor.old, cursor.run.length⟩
  | .keep => 0

def swapUp (cursor : Cursor) (previous : Run) (before : List Run) : Cursor :=
  { cursor with
    before
    after := previous :: cursor.after
    old := cursor.old - previous.oldLength
    new := cursor.new - previous.newLength }

def swapDown (cursor : Cursor) (next : Run) (after : List Run) : Cursor :=
  { cursor with
    before := next :: cursor.before
    after
    old := cursor.old + next.oldLength
    new := cursor.new + next.newLength }

/-- Moves a run up until it can go no further, in at most so many steps.  It is
joined with runs of its kind that it meets. -/
def slideUp (old new : Array String) : Nat → Cursor → Cursor
  | 0, cursor => cursor
  | fuel + 1, cursor =>
    match cursor.before with
    | [] => cursor
    | previous :: before =>
      if previous.kind = cursor.run.kind then
        slideUp old new fuel
          { cursor with
            before
            run := { cursor.run with length := cursor.run.length + previous.length }
            old := cursor.old - previous.oldLength
            new := cursor.new - previous.newLength }
      else if previous.kind = .keep then
        let slack := cursor.slackAbove old new previous.length
        let left := previous.length - slack
        if slack = 0 && left > 0 then cursor
        else
          slideUp old new fuel
            { cursor with
              before := if left = 0 then before else ⟨.keep, left⟩ :: before
              after := if slack = 0 then cursor.after else keepMore slack cursor.after
              old := cursor.old - slack
              new := cursor.new - slack }
      else slideUp old new fuel (cursor.swapUp previous before)

/-- Moves a run down until it can go no further, in at most so many steps.  It is
joined with runs of its kind that it meets. -/
def slideDown (old new : Array String) : Nat → Cursor → Cursor
  | 0, cursor => cursor
  | fuel + 1, cursor =>
    match cursor.after with
    | [] => cursor
    | next :: after =>
      if next.kind = cursor.run.kind then
        slideDown old new fuel
          { cursor with
            after
            run := { cursor.run with length := cursor.run.length + next.length } }
      else if next.kind = .keep then
        let slack := cursor.slackBelow old new next.length
        let left := next.length - slack
        if slack = 0 && left > 0 then cursor
        else
          slideDown old new fuel
            { cursor with
              before := if slack = 0 then cursor.before else keepMore slack cursor.before
              after := if left = 0 then after else ⟨.keep, left⟩ :: after
              old := cursor.old + slack
              new := cursor.new + slack }
      else slideDown old new fuel (cursor.swapDown next after)

end Cursor

/-- Slides all runs of a kind, from the front of a script, in at most so many
steps.  `before` holds the runs already passed, the nearest first, which end at
`i` in the old lines and at `j` in the new ones. -/
def slideAll (old new : Array String) (kind : RunKind) :
    Nat → List Run → Nat → Nat → List Run → Script
  | 0, before, _, _, after => before.reverse ++ after
  | _ + 1, before, _, _, [] => before.reverse
  | fuel + 1, before, i, j, run :: after =>
    if run.kind = kind then
      let steps := old.size + new.size + before.length + after.length + 2
      let cursor := Cursor.slideUp old new steps ⟨before, run, after, i, j⟩
      let cursor := cursor.slideDown old new steps
      slideAll old new kind fuel (cursor.run :: cursor.before)
        (cursor.old + cursor.run.oldLength) (cursor.new + cursor.run.newLength) cursor.after
    else
      slideAll old new kind fuel (run :: before) (i + run.oldLength) (j + run.newLength) after

/-- A script with its deletions and then its insertions moved as far down as
they go. -/
def slide (old new : Array String) (script : Script) : Script :=
  let size := old.size + new.size + 2
  let fuel := size * size
  let script := slideAll old new .delete fuel [] 0 0 script
  slideAll old new .insert fuel [] 0 0 script

end Diff

end SymbolIndex
