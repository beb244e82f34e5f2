import SymbolIndex.Symbol.Descriptor

/-!
# Symbols

A symbol is empty, local to one file with a number, or global.  A global symbol
starts with the root of a package and goes on with the written descriptors from
the outermost scope inwards, so the symbol of a scope is a beginning of the
symbol of everything in it.
-/

namespace SymbolIndex

/-- The text of a global symbol and the number of its descriptors. -/
structure GlobalSymbol where
  text : String
  depth : Nat
  deriving DecidableEq, Repr

namespace GlobalSymbol

def isRoot (symbol : GlobalSymbol) : Bool :=
  symbol.depth == 0

/-- A global symbol with one more descriptor.  The number of descriptors is
checked before the descriptor is written. -/
def extend (owner : GlobalSymbol) (descriptor : Descriptor) :
    Except SymbolFault GlobalSymbol :=
  if owner.depth + 1 > maxDepth then .error (.grammar descriptor.name .deepChain)
  else
    match descriptor.fragment with
    | .error error => .error error
    | .ok written => .ok ⟨owner.text ++ written, owner.depth + 1⟩

end GlobalSymbol

/-- What names an entity. -/
inductive Symbol where
  /-- No name at all. -/
  | empty
  /-- A name that means something in one file only. -/
  | inFile (number : Nat)
  /-- A name that means the same everywhere. -/
  | global (symbol : GlobalSymbol)
  deriving DecidableEq, Repr, Inhabited

namespace Symbol

def text : Symbol → String
  | empty => ""
  | inFile number => s!"local {number}"
  | global symbol => symbol.text

def isGlobal : Symbol → Bool
  | global _ => true
  | _ => false

/-- The symbol of what a descriptor names inside `owner`, which has to be
global. -/
def compose (owner : Symbol) (descriptor : Descriptor) : Except SymbolFault Symbol :=
  match owner with
  | empty => .error (.emptyOwner descriptor)
  | inFile number => .error (.localOwner number descriptor)
  | global symbol => (symbol.extend descriptor).map .global

/-- The symbol reached from `owner` through descriptors, outermost first. -/
def path (owner : Symbol) : List Descriptor → Except SymbolFault Symbol
  | [] => .ok owner
  | descriptor :: inner =>
    match owner.compose descriptor with
    | .error error => .error error
    | .ok symbol => symbol.path inner

end Symbol

structure LocalNumbers where
  issued : Nat := 0
  deriving DecidableEq, Repr, Inhabited

namespace LocalNumbers

def issue (numbers : LocalNumbers) : Symbol × LocalNumbers :=
  (.inFile numbers.issued, ⟨numbers.issued + 1⟩)

end LocalNumbers

end SymbolIndex
