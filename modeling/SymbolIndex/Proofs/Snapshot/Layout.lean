import SymbolIndex.Proofs.Naming.Roles
import SymbolIndex.Proofs.Naming.Step
import SymbolIndex.Snapshot.Callout
import Mathlib.Data.Prod.Lex
import Mathlib.Data.String.Basic

/-!
# Where the blocks of a snapshot stand

Callouts are sorted by their lines first, and the lines of a source are gone
through once.  So the callouts that start on a line are at the front of those
that are left when the line is written, and nothing is left behind but the
callouts past the end of the source.  What is told here of the order and of the
place of every block does not mention the list that is used up on the way.
-/

namespace SymbolIndex

namespace Occurrence

/-- Whether the range of an occurrence has three or four numbers, none of them
negative. -/
def IsPlaced (occurrence : Occurrence) : Prop :=
  (occurrence.range.length = 3 ∨ occurrence.range.length = 4) ∧
    ∀ number ∈ occurrence.range, 0 ≤ number

-- The numbers are gone through one by one, never all those that there are.
instance (occurrence : Occurrence) : Decidable occurrence.IsPlaced :=
  @instDecidableAnd _ _ inferInstance (List.decidableBAll (0 ≤ ·) occurrence.range)

/-- A number of a range, by its place. -/
def rangeNumber (occurrence : Occurrence) (place : Nat) : Nat :=
  (occurrence.range.getD place 0).toInt.toNat

def startLine (occurrence : Occurrence) : Nat :=
  occurrence.rangeNumber 0

def startColumn (occurrence : Occurrence) : Nat :=
  occurrence.rangeNumber 1

/-- The line on which an occurrence ends.  A range of three numbers is on one
line. -/
def endLine (occurrence : Occurrence) : Nat :=
  if occurrence.range.length = 4 then occurrence.rangeNumber 2 else occurrence.startLine

/-- The column in which an occurrence ends, on its last line. -/
def endColumn (occurrence : Occurrence) : Nat :=
  occurrence.rangeNumber (occurrence.range.length - 1)

/-- How many bytes of its first line an occurrence takes up.  If it goes on past
that line it takes up the rest of it; a line that is not there has no rest. -/
def widthIn (lines : List String) (occurrence : Occurrence) : Nat :=
  if occurrence.endLine = occurrence.startLine then
    occurrence.endColumn - occurrence.startColumn
  else (lines[occurrence.startLine]?.getD "").utf8ByteSize - occurrence.startColumn

/-- How an occurrence with a proper range is shown. -/
def callout (lines : List String) (occurrence : Occurrence) : Snapshot.Callout where
  line := occurrence.startLine
  start := occurrence.startColumn
  width := occurrence.widthIn lines
  symbol := occurrence.symbol
  roles := occurrence.symbolRoles

end Occurrence

namespace Snapshot

namespace Callout

theorem rangeParts?_parts {line start endLine finish : Int32} :
    rangeParts?.parts line start endLine finish =
      if 0 ≤ line ∧ 0 ≤ start ∧ 0 ≤ endLine ∧ 0 ≤ finish then
        some (line.toInt.toNat, start.toInt.toNat, endLine.toInt.toNat, finish.toInt.toNat)
      else none := by
  simp only [rangeParts?.parts, Bool.or_eq_true, decide_eq_true_eq, ← Int32.not_le]
  split <;> split <;> first | rfl | grind

theorem rangeParts?_eq (occurrence : Occurrence) :
    rangeParts? occurrence.range =
      if occurrence.IsPlaced then
        some (occurrence.startLine, occurrence.startColumn, occurrence.endLine,
          occurrence.endColumn)
      else none := by
  obtain ⟨range, symbol, roles⟩ := occurrence
  unfold rangeParts?
  split
  · rename_i line start finish three
    cases three
    have twice : (0 ≤ line ∧ 0 ≤ start ∧ 0 ≤ line ∧ 0 ≤ finish) ↔
        0 ≤ line ∧ 0 ≤ start ∧ 0 ≤ finish := by
      tauto
    simp [rangeParts?_parts, twice, Occurrence.IsPlaced, Occurrence.startLine,
      Occurrence.startColumn, Occurrence.endLine, Occurrence.endColumn,
      Occurrence.rangeNumber]
  · rename_i line start endLine finish four
    cases four
    simp [rangeParts?_parts, Occurrence.IsPlaced, Occurrence.startLine,
      Occurrence.startColumn, Occurrence.endLine, Occurrence.endColumn,
      Occurrence.rangeNumber]
  · rename_i notThree notFour
    have notPlaced : ¬ Occurrence.IsPlaced ⟨range, symbol, roles⟩ := by
      rintro ⟨three | four, -⟩
      · obtain ⟨line, start, finish, rfl⟩ := List.length_eq_three.mp three
        exact notThree line start finish rfl
      · match range, four with
        | [line, start, endLine, finish], _ => exact notFour line start endLine finish rfl
    rw [if_neg notPlaced]

/-- The occurrences that are shown are those with a proper range. -/
theorem ofOccurrence?_eq (lines : List String) (occurrence : Occurrence) :
    ofOccurrence? lines occurrence =
      if occurrence.IsPlaced then some (occurrence.callout lines) else none := by
  unfold ofOccurrence?
  rw [rangeParts?_eq]
  by_cases placed : occurrence.IsPlaced
  · simp only [placed, if_true, Option.bind_eq_bind, Option.bind_some, Option.pure_def,
      Occurrence.callout, Occurrence.widthIn]
    by_cases oneLine : occurrence.endLine = occurrence.startLine
    · simp [oneLine]
    · cases lines[occurrence.startLine]? with
      | none => simp [oneLine]
      | some text => simp [oneLine]
  · simp [placed]

/-- What decides between callouts on one line: the column they start at, the
symbol, the column at which they end, and the roles. -/
def columnKey (callout : Callout) : Nat ×ₗ String ×ₗ Nat ×ₗ Int :=
  toLex (callout.start, toLex (callout.symbol,
    toLex (callout.start + callout.width, callout.roles.toInt)))

/-- What decides between callouts: the line, and then what decides on one line. -/
def key (callout : Callout) : Nat ×ₗ Nat ×ₗ String ×ₗ Nat ×ₗ Int :=
  toLex (callout.line, callout.columnKey)

theorem le_iff_key {a b : Callout} : a.le b ↔ a.key ≤ b.key := by
  simp only [key, columnKey, Prod.Lex.toLex_le_toLex]
  unfold le
  grind [Int32.le_iff_toInt_le, Int32.lt_iff_toInt_lt]

theorem key_injective : Function.Injective key := by
  rintro ⟨line, start, width, symbol, roles⟩ ⟨line', start', width', symbol', roles'⟩ same
  simp only [key, columnKey, EmbeddingLike.apply_eq_iff_eq, Prod.mk.injEq] at same
  obtain ⟨rfl, rfl, rfl, sameEnd, sameRoles⟩ := same
  obtain rfl : width = width' := by omega
  obtain rfl := Int32.toInt_inj.mp sameRoles
  rfl

theorem le_total (a b : Callout) : a.le b || b.le a := by
  rw [Bool.or_eq_true, le_iff_key, le_iff_key]
  exact LinearOrder.le_total a.key b.key

theorem le_trans (a b c : Callout) (ab : a.le b) (bc : b.le c) : a.le c := by
  rw [le_iff_key] at *
  exact ab.trans bc

theorem line_le_of_le {a b : Callout} (before : a.le b) : a.line ≤ b.line := by
  rw [le_iff_key, key, key, Prod.Lex.toLex_le_toLex] at before
  omega

theorem columnKey_le_of_le {a b : Callout} (before : a.le b) (sameLine : a.line = b.line) :
    a.columnKey ≤ b.columnKey := by
  rw [le_iff_key, key, key, Prod.Lex.toLex_le_toLex] at before
  simpa [sameLine] using before

end Callout

theorem callouts_perm (document : Document) (lines : List String) :
    (callouts document lines).Perm
      ((document.occurrences.filter (·.IsPlaced)).map (·.callout lines)) := by
  have shown : document.occurrences.filterMap (Callout.ofOccurrence? lines) =
      (document.occurrences.filter (·.IsPlaced)).map (·.callout lines) := by
    rw [← List.filterMap_eq_map, List.filterMap_filter]
    simp [Callout.ofOccurrence?_eq]
  rw [← shown]
  exact List.mergeSort_perm _ _

/-- The callouts on chosen lines are those of the occurrences that start there. -/
theorem filter_callouts_perm (document : Document) (lines : List String)
    (chosen : Nat → Bool) :
    ((callouts document lines).filter (chosen ·.line)).Perm
      (((document.occurrences.filter (·.IsPlaced)).filter (chosen ·.startLine)).map
        (·.callout lines)) := by
  have given := (callouts_perm document lines).filter (chosen ·.line)
  rw [List.filter_map] at given
  exact given

theorem pairwise_callouts (document : Document) (lines : List String) :
    (callouts document lines).Pairwise fun a b => a.le b :=
  List.pairwise_mergeSort Callout.le_trans Callout.le_total _

end Snapshot

/-- What is at the front of a list and satisfies a condition is all that does,
if the condition is never satisfied again once it fails. -/
theorem takeWhile_eq_filter {α : Type} {condition : α → Bool} {items : List α}
    (closed : items.Pairwise fun a b => condition b → condition a) :
    items.takeWhile condition = items.filter condition ∧
      items.dropWhile condition = items.filter (!condition ·) := by
  induction items with
  | nil => simp
  | cons item items ih =>
      obtain ⟨itemClosed, restClosed⟩ := List.pairwise_cons.mp closed
      obtain ⟨taken, dropped⟩ := ih restClosed
      by_cases holds : condition item
      · simp [holds, taken, dropped]
      · have none : ∀ other ∈ items, condition other = false := by
          intro other member
          by_contra otherHolds
          exact holds (itemClosed other member (by simpa using otherHolds))
        have all : items.filter (!condition ·) = items :=
          List.filter_eq_self.mpr fun other member => by simp [none other member]
        simpa [holds, all] using none

namespace Snapshot

section Groups

variable {document : Document} {all : List Callout}

theorem filter_here (all : List Callout) (number : Nat) :
    (all.filter (number ≤ ·.line)).filter (·.line = number) =
      all.filter (·.line = number) := by
  rw [List.filter_filter]
  refine List.filter_congr fun callout _ => ?_
  rw [← Bool.decide_and, decide_eq_decide]
  omega

theorem filter_later (all : List Callout) (number : Nat) :
    (all.filter (number ≤ ·.line)).filter (fun callout => !decide (callout.line = number)) =
      all.filter (number + 1 ≤ ·.line) := by
  rw [List.filter_filter]
  refine List.filter_congr fun callout _ => ?_
  rw [← decide_not, ← Bool.decide_and, decide_eq_decide]
  omega

/-- Of the callouts that start on a line or after it, those that start on it come
first. -/
theorem takeWhile_from (ordered : all.Pairwise fun a b => a.le b) (number : Nat) :
    (all.filter (number ≤ ·.line)).takeWhile (·.line = number) =
        all.filter (·.line = number) ∧
      (all.filter (number ≤ ·.line)).dropWhile (·.line = number) =
        all.filter (number + 1 ≤ ·.line) := by
  have closed : (all.filter (number ≤ ·.line)).Pairwise fun a b =>
      decide (b.line = number) → decide (a.line = number) := by
    refine (ordered.filter _).imp_of_mem fun {a b} member _ before onLine => ?_
    have ahead := (List.mem_filter.mp member).2
    have inOrder := Callout.line_le_of_le before
    simp only [decide_eq_true_eq] at ahead onLine ⊢
    omega
  obtain ⟨taken, dropped⟩ := takeWhile_eq_filter closed
  exact ⟨taken.trans (filter_here all number), dropped.trans (filter_later all number)⟩

/-- Lines from `number` on, each with the blocks of the callouts that start on
it, and then the blocks of the callouts that start after all of them. -/
theorem calloutLines_eq (ordered : all.Pairwise fun a b => a.le b) (number : Nat)
    (lines : List String) :
    calloutLines document number (all.filter (number ≤ ·.line)) lines =
      (lines.zipIdx number).flatMap (fun (line, place) =>
        (line ++ "\n") :: (all.filter (·.line = place)).map (block document)) ++
      (all.filter (number + lines.length ≤ ·.line)).map (block document) := by
  induction lines generalizing number with
  | nil => simp [calloutLines]
  | cons line lines ih =>
      obtain ⟨here, later⟩ := takeWhile_from ordered number
      rw [calloutLines, here, later, ih, List.zipIdx_cons, List.flatMap_cons,
        List.length_cons, Nat.add_assoc, Nat.add_comm 1]
      simp

/-- The groups by lines, and what starts past the lines, hold each callout once. -/
theorem groups_perm (all : List Callout) (count : Nat) :
    ((List.range count).flatMap (fun place => all.filter (·.line = place)) ++
      all.filter (count ≤ ·.line)).Perm all := by
  induction count with
  | zero => simp
  | succ count ih =>
      have split : (all.filter (·.line = count) ++ all.filter (count + 1 ≤ ·.line)).Perm
          (all.filter (count ≤ ·.line)) := by
        rw [← filter_here all count, ← filter_later all count]
        exact List.filter_append_perm _ _
      rw [List.range_succ, List.flatMap_append, List.append_assoc, List.flatMap_singleton]
      exact (split.append_left _).trans ih

end Groups

theorem join_flatMap {α : Type} (items : List α) (pieces : α → List String) :
    String.join (items.flatMap pieces) =
      String.join (items.map fun item => String.join (pieces item)) := by
  induction items with
  | nil => rfl
  | cons item items ih => simp [ih]

/-- The blocks of some callouts, one after the other. -/
def blocks (document : Document) (group : List Callout) : String :=
  String.join (group.map (block document))

theorem render_eq (source : String) (document : Document) :
    render source document =
      String.join ((Text.lines source).zipIdx.map fun (line, place) =>
        line ++ "\n" ++ blocks document
          ((callouts document (Text.lines source)).filter (·.line = place))) ++
      blocks document
        ((callouts document (Text.lines source)).filter
          ((Text.lines source).length ≤ ·.line)) := by
  have placed := @calloutLines_eq document _
    (pairwise_callouts document (Text.lines source)) 0 (Text.lines source)
  have all : (callouts document (Text.lines source)).filter (0 ≤ ·.line) =
      callouts document (Text.lines source) :=
    List.filter_eq_self.mpr (by simp)
  rw [all, Nat.zero_add] at placed
  rw [render, placed, String.join_append, join_flatMap]
  simp [blocks, String.append_assoc]

section Header

theorem utf8ByteSize_repeated_space (count : Nat) :
    (repeated ' ' count).utf8ByteSize = count := by
  induction count with
  | zero => rfl
  | succ count ih =>
      have one : (' ' : Char).utf8Size = 1 := by decide
      rw [repeated] at ih ⊢
      rw [List.replicate_succ, String.ofList_cons, String.utf8ByteSize_append,
        String.utf8ByteSize_singleton, one, ih, Nat.add_comm]

/-- What is told of each bit of a place but the lowest one when it is set, from bit 1 on. -/
def bitNames : List String :=
  ["import", "write", "read", "generated", "test", "forward_definition"]

/-- What is told of the bits of a place: one of two words for the lowest bit, and a word
for each other that is set. -/
def bitsText (roles : Int32) : String :=
  String.intercalate " " ((if roles.toBitVec.getLsbD 0 then "definition" else "reference") ::
    ((bitNames.zipIdx 1).filter fun (_, place) => roles.toBitVec.getLsbD place).map Prod.fst)

theorem roleText_eq_bitsText (roles : Int32) : roleText roles = bitsText roles := by
  have named : bitNames.zipIdx 1 = modifiers.map fun pair => (pair.2, pair.1.position) := rfl
  simp only [roleText, bitsText, hasRole_eq_getLsbD, named, List.filter_map, List.map_map]
  rfl

/-- Whether a line points at a callout: behind the comment mark and spaces, the carets
stand under the bytes of the callout, and they are followed by what the callout is.  A
callout that starts below the comment mark is pointed at from behind the mark. -/
def PointsAt (mark : String) (callout : Callout) (header : String) : Prop :=
  ∃ before carets,
    header = before ++ carets ++ " " ++ bitsText callout.roles ++ " " ++ callout.symbol ++
      "\n" ∧
    '^' ∉ before.toList ∧
    (mark.utf8ByteSize ≤ callout.start → before.utf8ByteSize = callout.start ∧
      before = mark ++ repeated ' ' (callout.start - mark.utf8ByteSize) ∧
      carets = repeated '^' (max callout.width 1)) ∧
    (callout.start < mark.utf8ByteSize → before = mark ++ " <" ∧
      carets = repeated '^' callout.width)

theorem commentMark_eq (language : String) :
    commentMark language = if language.toLower = "python" then "#" else "//" := by
  have same : sameIgnoringCase language "python" = true ↔ language.toLower = "python" := by
    have lower : "python".toList.map Char.toLower = "python".toList := by decide
    have lowered : language.toLower = language.map Char.toLower := rfl
    rw [sameIgnoringCase, lower, beq_iff_eq, ← String.toList_inj, lowered, String.toList_map]
  simp only [commentMark, same]

theorem caret_not_mem_commentMark (language : String) :
    '^' ∉ (commentMark language).toList := by
  unfold commentMark
  split <;> decide

theorem pointsAt_headerLine {mark : String} (markPlain : '^' ∉ mark.toList)
    (callout : Callout) : PointsAt mark callout (headerLine mark callout) := by
  by_cases aligned : mark.utf8ByteSize ≤ callout.start
  · refine ⟨indent mark callout, repeated '^' (max callout.width 1), ?_, ?_,
      fun _ => ⟨?_, rfl, rfl⟩, fun below => absurd aligned (by omega)⟩
    · simp [headerLine, carets, aligned, roleText_eq_bitsText]
    · simpa [indent, repeated] using markPlain
    · rw [indent, String.utf8ByteSize_append, utf8ByteSize_repeated_space]
      omega
  · have noSpaces : callout.start - mark.utf8ByteSize = 0 := by omega
    refine ⟨mark ++ " <", repeated '^' callout.width, ?_, ?_,
      fun reaches => absurd reaches aligned, fun _ => ⟨rfl, rfl⟩⟩
    · simp [headerLine, carets, indent, aligned, noSpaces, repeated, String.append_assoc,
        roleText_eq_bitsText]
    · simpa using markPlain

end Header

section Documentation

/-- The lines of a documentation, each behind the same text: the first one is announced,
and the others are set in below it. -/
def documentationText (before : String) (shown : List String) : String :=
  String.join (shown.mapIdx fun place line =>
    before ++ (if place = 0 then "documentation " else "            > ") ++ line ++ "\n")

/-- Whether a text is all that a document lets a callout tell besides its header. -/
inductive Documents (mark : String) (document : Document) (callout : Callout) : String → Prop where
  /-- Only the lowest bit of a place makes it a definition. -/
  | reference (notDefined : callout.roles.toBitVec.getLsbD 0 = false) :
    Documents mark document callout ""
  | unrecorded (unrecorded : ∀ record ∈ document.symbols, record.symbol ≠ callout.symbol) :
    Documents mark document callout ""
  /-- The last record of the symbol counts. -/
  | recorded {earlier later : List SymbolInformation} {record : SymbolInformation}
    (defined : callout.roles.toBitVec.getLsbD 0 = true)
    (records : document.symbols = earlier ++ record :: later)
    (ofSymbol : record.symbol = callout.symbol)
    (last : ∀ other ∈ later, other.symbol ≠ callout.symbol) :
    Documents mark document callout
      (documentationText (mark ++ repeated ' ' (callout.start - mark.utf8ByteSize))
        (record.documentation.flatMap Text.lines))

theorem information?_eq_none {document : Document} {symbol : String} :
    information? document symbol = none ↔
      ∀ record ∈ document.symbols, record.symbol ≠ symbol := by
  simp [information?]

theorem information?_eq_some {document : Document} {symbol : String}
    {record : SymbolInformation} (found : information? document symbol = some record) :
    record.symbol = symbol ∧ ∃ earlier later, document.symbols = earlier ++ record :: later ∧
      ∀ other ∈ later, other.symbol ≠ symbol := by
  obtain ⟨ofSymbol, after, before, reversed, others⟩ :=
    List.find?_eq_some_iff_append.mp found
  refine ⟨by simpa using ofSymbol, before.reverse, after.reverse, ?_, fun other member => ?_⟩
  · simpa using congrArg List.reverse reversed
  · simpa using others other (List.mem_reverse.mp member)

theorem join_documentationLines (before : String) (record : SymbolInformation) :
    String.join (documentationLines before record) =
      documentationText before (record.documentation.flatMap Text.lines) := by
  unfold documentationLines documentationText
  cases record.documentation.flatMap Text.lines with
  | nil => rfl
  | cons first rest =>
      have setIn : repeated ' ' continuationIndent ++ "> " = "            > " := by decide
      have others : rest.mapIdx (fun _ line => before ++ "            > " ++ line ++ "\n") =
          rest.map fun line =>
            before ++ repeated ' ' continuationIndent ++ "> " ++ line ++ "\n" :=
        List.ext_getElem (by simp) (by simp [← setIn, String.append_assoc])
      simp [List.mapIdx_cons, ← others]

/-- A block is a line that points at its callout, and behind it the documentation of the
symbol if it is defined there. -/
theorem exists_block_eq (document : Document) (callout : Callout) :
    ∃ header documentation, block document callout = header ++ documentation ∧
      PointsAt (commentMark document.language) callout header ∧
      Documents (commentMark document.language) document callout documentation := by
  refine ⟨_, _, rfl,
    pointsAt_headerLine (caret_not_mem_commentMark document.language) callout, ?_⟩
  have byBit : hasRole callout.roles .definition = callout.roles.toBitVec.getLsbD 0 :=
    hasRole_eq_getLsbD callout.roles .definition
  rw [byBit]
  cases defined : callout.roles.toBitVec.getLsbD 0 with
  | false => exact .reference defined
  | true =>
      cases found : information? document callout.symbol with
      | none => exact .unrecorded (information?_eq_none.mp found)
      | some record =>
          obtain ⟨ofSymbol, earlier, later, records, last⟩ := information?_eq_some found
          simp only [if_true, join_documentationLines]
          exact .recorded defined records ofSymbol last

end Documentation

theorem isPlaced_of_hasProperRange {mention : Mention} {symbol : String} {roles : Int32}
    (proper : mention.hasProperRange) :
    Occurrence.IsPlaced ⟨mention.range, symbol, roles⟩ := by
  unfold Mention.hasProperRange at proper
  obtain ⟨ordered, nonnegative⟩ := (Bool.and_eq_true _ _).mp proper
  refine ⟨?_, by simpa using nonnegative⟩
  split at ordered
  · rename_i three
    simp [three]
  · rename_i four
    simp [four]
  · cases ordered

/-- A document that naming gives has an occurrence with a proper range for each
that was analyzed. -/
theorem isPlaced_of_nameFile {context : ProjectNaming} {analysis : AnalyzedFile}
    {named : NamedFile} (success : context.nameFile analysis = .ok named) :
    named.document.occurrences.length = analysis.occurrences.length ∧
      ∀ occurrence ∈ named.document.occurrences, occurrence.IsPlaced := by
  obtain ⟨-, last, occurrences, -, mapped, rfl⟩ := ProjectNaming.nameFile_eq_ok success
  have given := Fallible.forall₂_of_mapM mapped
  have placed : List.Forall₂ (fun occurrence (_ : Mention) => occurrence.IsPlaced ∧ True)
      occurrences analysis.occurrences := by
    refine (given.imp fun mention occurrence found => ?_).flip
    obtain ⟨symbol, -, proper, rfl⟩ := Mention.toOccurrence_eq_ok found
    exact ⟨isPlaced_of_hasProperRange proper, trivial⟩
  exact ⟨given.length_eq.symm, ((List.forall₂_and_left _ _).mp placed).1⟩

/-- A rendered source has below each of its lines the blocks of the occurrences
that start on it, in the order of their start columns, symbols, end columns and
roles, and behind the last line those of the occurrences that start further down,
these by their lines first.  Every occurrence with a proper range has one block,
which points at it and has nothing else in it than the documentation of a symbol that
is defined there, and no other occurrence has any; a document that naming gives
has one block for each analyzed occurrence. -/
theorem render_layout (source : String) (document : Document) :
    let lines := Text.lines source
    let mark := if document.language.toLower = "python" then "#" else "//"
    let shown := document.occurrences.filter (·.IsPlaced)
    ∃ (below : Nat → List Callout) (past : List Callout),
      render source document =
        String.join (lines.zipIdx.map fun (line, place) =>
          line ++ "\n" ++ blocks document (below place)) ++ blocks document past ∧
      (∀ place < lines.length,
        (below place).Perm
          ((shown.filter (·.startLine = place)).map (·.callout lines)) ∧
        (below place).Pairwise (·.columnKey ≤ ·.columnKey)) ∧
      past.Perm ((shown.filter (lines.length ≤ ·.startLine)).map (·.callout lines)) ∧
      past.Pairwise (·.key ≤ ·.key) ∧
      ((List.range lines.length).flatMap below ++ past).Perm
        (shown.map (·.callout lines)) ∧
      (∀ callout, ∃ header documentation, block document callout = header ++ documentation ∧
        PointsAt mark callout header ∧ Documents mark document callout documentation) ∧
      ∀ (context : ProjectNaming) analysis named,
        context.nameFile analysis = .ok named → named.document = document →
          shown = document.occurrences ∧
            ((List.range lines.length).flatMap below ++ past).length =
              analysis.occurrences.length := by
  intro lines mark shown
  have ordered := pairwise_callouts document lines
  have given := callouts_perm document lines
  refine ⟨fun place => (callouts document lines).filter (·.line = place),
    (callouts document lines).filter (lines.length ≤ ·.line), render_eq source document,
    fun place _ => ⟨?_, ?_⟩, ?_, ?_, ?_, ?_, ?_⟩
  · exact filter_callouts_perm document lines (· = place)
  · refine (ordered.filter _).imp_of_mem fun {a b} aHere bHere before => ?_
    have aLine := (List.mem_filter.mp aHere).2
    have bLine := (List.mem_filter.mp bHere).2
    simp only [decide_eq_true_eq] at aLine bLine
    exact Callout.columnKey_le_of_le before (aLine.trans bLine.symm)
  · exact filter_callouts_perm document lines (lines.length ≤ ·)
  · exact (ordered.filter _).imp Callout.le_iff_key.mp
  · exact (groups_perm _ _).trans given
  · have isMark : commentMark document.language = mark := commentMark_eq document.language
    rw [← isMark]
    exact exists_block_eq document
  · intro context analysis named success isDocument
    subst isDocument
    obtain ⟨sameLength, placed⟩ := isPlaced_of_nameFile success
    have all : shown = named.document.occurrences :=
      List.filter_eq_self.mpr fun occurrence member => by simpa using placed occurrence member
    refine ⟨all, ?_⟩
    rw [((groups_perm _ _).trans given).length_eq, List.length_map, ← sameLength]
    exact congrArg List.length all

/-- Callouts of one line in their order are known when it is known which they are. -/
theorem eq_of_perm_on_line (place : Nat) {first second : List Callout}
    (perm : first.Perm second) (onLine : ∀ callout ∈ second, callout.line = place)
    (ordered : first.Pairwise (·.columnKey ≤ ·.columnKey))
    (orderedToo : second.Pairwise (·.columnKey ≤ ·.columnKey)) : first = second := by
  refine perm.eq_of_pairwise (fun a b aMember bMember ab ba => ?_) ordered orderedToo
  have sameLine : a.line = b.line :=
    (onLine a (perm.mem_iff.mp aMember)).trans (onLine b bMember).symm
  refine Callout.key_injective ?_
  rw [Callout.key, Callout.key, sameLine, ab.antisymm ba]

/-- A document with three occurrences on one line, of which one starts below the comment
mark and one goes on past the line, one past the end and one without a proper range.  One
of the symbols defined has two records, the other has none. -/
def annotatedDocument : Document where
  language := "Python"
  occurrences := [⟨[7, 1, 3], "p#", 2⟩, ⟨[0, 3, 1, 1], "m#", 8⟩, ⟨[0, 3], "x#", 0⟩,
    ⟨[0, 3, 5], "d#", 1⟩, ⟨[0, 0, 2], "s#", 5⟩]
  symbols := [⟨"d#", ["before"], "d"⟩, ⟨"m#", ["other"], "m"⟩,
    ⟨"d#", ["after\nmore", "last"], "d"⟩]

theorem render_layout_of_annotated : render "ab cd\nef" annotatedDocument =
    "ab cd\n" ++
    "# <^^ definition write s#\n" ++
    "#  ^^ definition d#\n" ++
    "#  documentation after\n" ++
    "#              > more\n" ++
    "#              > last\n" ++
    "#  ^^ reference read m#\n" ++
    "ef\n" ++
    "#^^ reference import p#\n" := by
  obtain ⟨below, past, rendered, onLines, pastEnd, -⟩ :=
    render_layout "ab cd\nef" annotatedDocument
  have cut : Text.lines "ab cd\nef" = ["ab cd", "ef"] := by decide +kernel
  rw [cut] at rendered onLines pastEnd
  obtain ⟨firstPerm, firstOrdered⟩ := onLines 0 (by decide)
  obtain ⟨secondPerm, -⟩ := onLines 1 (by decide)
  have first : below 0 =
      [⟨0, 0, 2, "s#", 5⟩, ⟨0, 3, 2, "d#", 1⟩, ⟨0, 3, 2, "m#", 8⟩] := by
    refine eq_of_perm_on_line 0 (firstPerm.trans ?_) ?_ firstOrdered ?_
    · decide +kernel
    · decide
    · decide +kernel
  have second : below 1 = [] := secondPerm.eq_nil
  have past : past = [⟨7, 1, 2, "p#", 2⟩] := List.perm_singleton.mp pastEnd
  have numbered : ["ab cd", "ef"].zipIdx = [("ab cd", 0), ("ef", 1)] := rfl
  simp only [rendered, numbered, past, List.map_cons, List.map_nil, first, second]
  decide +kernel

end Snapshot

end SymbolIndex
