import SymbolIndex.Diff.Slide
import SymbolIndex.Text.Lines

/-!
# Unified diffs

The shown form of an edit script: the changed lines with three lines of context
around them, in hunks that tell their place in both texts.
-/

namespace SymbolIndex

namespace Diff

/-- Lines that stay, or old lines with the new lines that take their place. -/
inductive Block where
  | keep (length : Nat)
  | change (deleted inserted : Nat)
  deriving DecidableEq, Repr

namespace Block

def oldLength : Block → Nat
  | keep n => n
  | change deleted _ => deleted

def newLength : Block → Nat
  | keep n => n
  | change _ inserted => inserted

end Block

/-- The blocks of a script: runs between kept lines make one change. -/
def blocks : Script → List Block
  | [] => []
  | ⟨.keep, n⟩ :: rest =>
    match blocks rest with
    | .keep m :: more => .keep (n + m) :: more
    | more => .keep n :: more
  | ⟨.delete, n⟩ :: rest =>
    match blocks rest with
    | .change deleted inserted :: more => .change (n + deleted) inserted :: more
    | more => .change n 0 :: more
  | ⟨.insert, n⟩ :: rest =>
    match blocks rest with
    | .change deleted inserted :: more => .change deleted (n + inserted) :: more
    | more => .change 0 n :: more

def context : Nat := 3

/-- Blocks that are shown together, with their place in both texts. -/
structure Hunk where
  old : Nat
  new : Nat
  blocks : List Block
  deriving DecidableEq, Repr

/-- The hunks of the blocks that come after the first `old` and `new` lines.
`current` is the hunk that is open there, with its blocks in reverse.  A long
run of kept lines ends a hunk. -/
def hunksFrom (old new : Nat) (current : Hunk) : List Block → List Hunk
  | [] => [{ current with blocks := current.blocks.reverse }]
  | .keep n :: rest =>
    if n > 2 * context then
      { current with blocks := (.keep context :: current.blocks).reverse } ::
        hunksFrom (old + n) (new + n)
          ⟨old + n - context, new + n - context, [.keep context]⟩ rest
    else
      hunksFrom (old + n) (new + n) { current with blocks := .keep n :: current.blocks } rest
  | .change deleted inserted :: rest =>
    hunksFrom (old + deleted) (new + inserted)
      { current with blocks := .change deleted inserted :: current.blocks } rest

def Hunk.hasChange (hunk : Hunk) : Bool :=
  hunk.blocks.any fun block =>
    match block with
    | .change _ _ => true
    | .keep _ => false

/-- Blocks with the last one cut to the context if it is kept. -/
def trimLast (blocks : List Block) : List Block :=
  match blocks.getLast? with
  | some (.keep n) => blocks.dropLast ++ [.keep (min n context)]
  | _ => blocks

def hunks (blocks : List Block) : List Hunk :=
  let found :=
    match blocks with
    | .keep n :: rest =>
      let skipped := n - context
      hunksFrom skipped skipped ⟨skipped, skipped, []⟩ (trimLast (.keep (n - skipped) :: rest))
    | blocks => hunksFrom 0 0 ⟨0, 0, []⟩ (trimLast blocks)
  found.filter Hunk.hasChange

/-- The place of some lines of a text: the number of the first and how many
there are.  Without lines it is the number of the line before. -/
def showPlace (start length : Nat) : String :=
  if length = 1 then s!"{start + 1}"
  else if length = 0 then s!"{start},0"
  else s!"{start + 1},{length}"

/-- A line with the mark of its fate.  A line without an end of its own is told
to have none. -/
def showLine (mark : Char) (line : String) : String :=
  let ended := if Text.hasLineEnd line then line else line ++ "\n\\ No newline at end of file\n"
  String.singleton mark ++ ended

def showLines (mark : Char) (lines : Array String) (start length : Nat) : String :=
  String.join ((lines.extract start (start + length)).toList.map (showLine mark))

/-- The shown form of blocks that start after the first `i` old and `j` new
lines. -/
def showBlocks (old new : Array String) (i j : Nat) : List Block → String
  | [] => ""
  | .keep n :: rest => showLines ' ' old i n ++ showBlocks old new (i + n) (j + n) rest
  | .change deleted inserted :: rest =>
    showLines '-' old i deleted ++ showLines '+' new j inserted ++
      showBlocks old new (i + deleted) (j + inserted) rest

def Hunk.show (old new : Array String) (hunk : Hunk) : String :=
  let oldLength := hunk.blocks.foldl (fun count block => count + block.oldLength) 0
  let newLength := hunk.blocks.foldl (fun count block => count + block.newLength) 0
  s!"@@ -{showPlace hunk.old oldLength} +{showPlace hunk.new newLength} @@\n" ++
    showBlocks old new hunk.old hunk.new hunk.blocks

/-- The unified diff of two texts under the given names; nothing if their lines
are the same. -/
def unified (oldName newName oldText newText : String) : String :=
  let old := (Text.endedLines oldText).toArray
  let new := (Text.endedLines newText).toArray
  let shown := (hunks (blocks (slide old new (search old new)))).map (Hunk.show old new)
  if shown.isEmpty then ""
  else s!"--- {oldName}\n+++ {newName}\n" ++ String.join shown

end Diff

end SymbolIndex
