import SymbolIndex.Proofs.FilePath.Sets
import SymbolIndex.Proofs.Package.Blocks

/-!
# Listed packages

How installed packages are listed: a block of lines for each, with headers in any order
and then the files, and a line of three dashes between any two blocks.  Reading such a
listing gives the packages back, as long as no header starts with three dashes.  A header
that does, such as a rule in a licence, is taken for the end of its block.
-/

namespace SymbolIndex

namespace Listing

open Text (trimChars)

/-- Whether a text is on one line, without blank characters around it. -/
def IsValue (text : String) : Prop :=
  '\n' ∉ text.toList ∧ Text.trim text = text

instance (text : String) : Decidable (IsValue text) :=
  inferInstanceAs (Decidable (_ ∧ _))

/-- The headers that tell something of a package. -/
def knownKeys : List String := ["Name", "Version", "Location", "Files"]

/-- The line of a header. -/
def headerLine (key value : String) : String :=
  key ++ ": " ++ value

/-- Whether a line is a header that tells nothing of a package, such as a line of a
licence.  It is not indented and not a line of three dashes. -/
structure IsOtherHeader (line : String) : Prop where
  single : '\n' ∉ line.toList
  notIndented : isIndented line.toList = false
  notDashes : line ≠ "---"
  unknown : ∀ key value : String, line = key ++ ":" ++ value → ':' ∉ key.toList →
    Text.trim key ∉ knownKeys

/-- An installed package as a listing tells it. -/
structure ListedPackage where
  name : String
  version : String
  location : String
  /-- The lines of the block that come before its files. -/
  headers : List String
  /-- The paths of the package's files, from the location. -/
  files : List String

namespace ListedPackage

/-- The lines of a package in a listing. -/
def lines (listed : ListedPackage) : List String :=
  listed.headers ++ "Files:" :: listed.files.map ("  " ++ ·)

/-- The text of a package in a listing. -/
def block (listed : ListedPackage) : String :=
  String.intercalate "\n" listed.lines

/-- The headers that tell the package itself. -/
def ownHeaders (listed : ListedPackage) : List String :=
  [headerLine "Name" listed.name, headerLine "Version" listed.version,
    headerLine "Location" listed.location]

/-- Whether the texts of a package can be listed, each on a line of its own. -/
structure IsListed (listed : ListedPackage) : Prop where
  name : IsValue listed.name
  version : IsValue listed.version
  location : IsValue listed.location
  headers : ∃ others, listed.headers.Perm (listed.ownHeaders ++ others) ∧
    ∀ line ∈ others, IsOtherHeader line
  files : ∀ file ∈ listed.files, IsValue file ∧ file ≠ ""

/-- Whether a package is the one that is listed. -/
structure Describes (listed : ListedPackage) (package : Package) : Prop where
  name : package.name = listed.name
  version : package.version = listed.version
  files : ∀ path, path ∈ package.files.paths ↔
    ∃ file ∈ listed.files, path = ((FilePath.mk listed.location).join ⟨file⟩).clean

end ListedPackage

/-- A listing of packages, with a line of three dashes between any two. -/
def print (list : List ListedPackage) : String :=
  String.intercalate "\n---\n" (list.map ListedPackage.block)

/-- Whether a header is known can be told from where its first colon is. -/
theorem IsOtherHeader.of_splitAtColon {line : String} (single : '\n' ∉ line.toList)
    (notIndented : isIndented line.toList = false) (notDashes : line ≠ "---")
    (unknown : ∀ parts ∈ splitAtColon line.toList,
      Text.trim (.ofList parts.1) ∉ knownKeys) : IsOtherHeader line where
  single := single
  notIndented := notIndented
  notDashes := notDashes
  unknown key value text noColon := by
    have cut : splitAtColon line.toList = some (key.toList, value.toList) := by
      rw [text]
      simpa using splitAtColon_append noColon value.toList
    simpa using unknown _ cut

theorem readLine_of_isOtherHeader {line : String} (isOther : IsOtherHeader line) (draft : Draft) :
    readLine draft line.toList = { draft with inFiles := false } := by
  rw [readLine_of_not_indented isOther.notIndented, readHeader]
  by_cases colon : ':' ∈ line.toList
  · obtain ⟨key, value, text, noColon⟩ := List.eq_append_cons_of_mem colon
    have unknown := isOther.unknown (.ofList key) (.ofList value) (by
      rw [← String.toList_inj, text]
      simp) (by simpa using noColon)
    rw [text, splitAtColon_append noColon]
    simp only [Text.trim, String.toList_ofList, knownKeys, List.mem_cons, List.not_mem_nil,
      or_false, not_or] at unknown
    obtain ⟨notName, notVersion, notLocation, notFiles⟩ := unknown
    simp_all
  · rw [splitAtColon_eq_none colon]

theorem splitAtColon_headerLine {key : String} (noColon : ':' ∉ key.toList) (value : String) :
    splitAtColon (headerLine key value).toList = some (key.toList, ' ' :: value.toList) := by
  have text : (headerLine key value).toList = key.toList ++ ':' :: ' ' :: value.toList := by
    simp [headerLine]
  rw [text, splitAtColon_append noColon]

theorem isIndented_headerLine {key : String} (notIndented : isIndented key.toList = false)
    (spelled : key ≠ "") (value : String) :
    isIndented (headerLine key value).toList = false := by
  obtain ⟨c, cs, text⟩ : ∃ c cs, key.toList = c :: cs :=
    List.exists_cons_of_ne_nil fun empty => spelled (String.toList_eq_nil_iff.mp empty)
  rw [text] at notIndented
  simpa [headerLine, text, isIndented] using notIndented

theorem IsValue.ofList_trimChars {value : String} (isValue : IsValue value) :
    String.ofList (trimChars (' ' :: value.toList)) = value := by
  rw [Text.trimChars_cons_blank (by decide)]
  exact isValue.2

section Headers

variable {value : String} (isValue : IsValue value) (draft : Draft)
include isValue

theorem readLine_name : readLine draft (headerLine "Name" value).toList =
    { draft with name := some value, inFiles := false } := by
  rw [readLine_of_not_indented (isIndented_headerLine (by decide) (by decide) value),
    readHeader, splitAtColon_headerLine (by decide)]
  simp only [isValue.ofList_trimChars]
  rfl

theorem readLine_version : readLine draft (headerLine "Version" value).toList =
    { draft with version := some value, inFiles := false } := by
  rw [readLine_of_not_indented (isIndented_headerLine (by decide) (by decide) value),
    readHeader, splitAtColon_headerLine (by decide)]
  simp only [isValue.ofList_trimChars]
  rfl

theorem readLine_location : readLine draft (headerLine "Location" value).toList =
    { draft with location := some ⟨value⟩, inFiles := false } := by
  rw [readLine_of_not_indented (isIndented_headerLine (by decide) (by decide) value),
    readHeader, splitAtColon_headerLine (by decide)]
  simp only [isValue.ofList_trimChars]
  rfl

end Headers

theorem readLine_files (draft : Draft) :
    readLine draft "Files:".toList = { draft with inFiles := true } := by
  rw [readLine_of_not_indented (by decide)]
  rfl

theorem readLine_file {file : String} (isValue : IsValue file) (spelled : file ≠ "")
    {draft : Draft} (inFiles : draft.inFiles = true) :
    readLine draft ("  " ++ file).toList = { draft with files := ⟨file⟩ :: draft.files } := by
  have blank : Text.isBlank ' ' = true := by decide
  have trimmed : trimChars ("  " ++ file).toList = file.toList := by
    have text : ("  " ++ file).toList = ' ' :: ' ' :: file.toList := by simp
    rw [text, Text.trimChars_cons_blank blank, Text.trimChars_cons_blank blank,
      ← String.toList_ofList (l := trimChars _)]
    exact congrArg String.toList isValue.2
  have indented : isIndented ("  " ++ file).toList = true := by
    simp [isIndented, blank]
  obtain ⟨c, cs, text⟩ : ∃ c cs, file.toList = c :: cs :=
    List.exists_cons_of_ne_nil fun empty => spelled (String.toList_eq_nil_iff.mp empty)
  have whole : String.ofList (c :: cs) = file := by rw [← text, String.ofList_toList]
  rw [readLine, inFiles, indented, Bool.and_self, if_pos rfl, trimmed, text]
  simp only [whole]

theorem foldl_readLine_files {files : List String}
    (areValues : ∀ file ∈ files, IsValue file ∧ file ≠ "") {draft : Draft}
    (inFiles : draft.inFiles = true) :
    files.foldl (fun draft file => readLine draft ("  " ++ file).toList) draft =
      { draft with files := (files.map FilePath.mk).reverse ++ draft.files } := by
  induction files generalizing draft with
  | nil => rfl
  | cons file files ih =>
      obtain ⟨isValue, spelled⟩ := areValues file (by simp)
      rw [List.foldl_cons, readLine_file isValue spelled inFiles,
        ih (fun other member => areValues other (by simp [member])) (by exact inFiles)]
      simp

namespace ListedPackage

variable {listed : ListedPackage}

theorem IsListed.isHeader (isListed : listed.IsListed) {line : String}
    (member : line ∈ listed.headers) :
    line ∈ listed.ownHeaders ∨ IsOtherHeader line := by
  obtain ⟨others, sameLines, areOther⟩ := isListed.headers
  rcases List.mem_append.mp (sameLines.mem_iff.mp member) with own | other
  · exact .inl own
  · exact .inr (areOther line other)

/-- Headers that tell nothing of a package leave what is known of it. -/
theorem foldl_readLine_others {others : List String}
    (areOther : ∀ line ∈ others, IsOtherHeader line) {draft : Draft}
    (outside : draft.inFiles = false) :
    others.foldl (fun draft line => readLine draft line.toList) draft = draft := by
  induction others with
  | nil => rfl
  | cons line others ih =>
      rw [List.foldl_cons, readLine_of_isOtherHeader (areOther line (by simp)), ← outside]
      exact ih fun other member => areOther other (by simp [member])

/-- The headers of a package tell it in any order. -/
theorem IsListed.foldl_readLine_headers (isListed : listed.IsListed) :
    listed.headers.foldl (fun draft line => readLine draft line.toList) {} =
      { name := some listed.name, version := some listed.version,
        location := some ⟨listed.location⟩ } := by
  obtain ⟨others, sameLines, areOther⟩ := isListed.headers
  have name := readLine_name isListed.name
  have version := readLine_version isListed.version
  have location := readLine_location isListed.location
  -- each line sets a field of its own or none at all
  have effect : ∀ line ∈ listed.headers, line = headerLine "Name" listed.name ∨
      line = headerLine "Version" listed.version ∨
      line = headerLine "Location" listed.location ∨
      ∀ draft, readLine draft line.toList = { draft with inFiles := false } := by
    intro line member
    rcases isListed.isHeader member with own | isOther
    · simp only [ownHeaders, List.mem_cons, List.not_mem_nil, or_false] at own
      rcases own with rfl | rfl | rfl
      · exact .inl rfl
      · exact .inr (.inl rfl)
      · exact .inr (.inr (.inl rfl))
    · exact .inr (.inr (.inr (readLine_of_isOtherHeader isOther)))
  have commute : ∀ first ∈ listed.headers, ∀ second ∈ listed.headers, ∀ draft : Draft,
      readLine (readLine draft first.toList) second.toList =
        readLine (readLine draft second.toList) first.toList := by
    intro first isFirst second isSecond draft
    rcases effect first isFirst with rfl | rfl | rfl | firstIdle <;>
      rcases effect second isSecond with rfl | rfl | rfl | secondIdle <;>
      simp only [*]
  rw [sameLines.foldl_eq' commute, List.foldl_append]
  simp only [ownHeaders, List.foldl_cons, List.foldl_nil, name, version, location]
  exact foldl_readLine_others areOther rfl

/-- The package that is listed. -/
def package (listed : ListedPackage) : Package :=
  .make listed.name listed.version
    (listed.files.map fun file => (FilePath.mk listed.location).join ⟨file⟩)

theorem IsListed.package?_eq (isListed : listed.IsListed) :
    ((listed.lines.map String.toList).foldl readLine {}).package? = some listed.package := by
  rw [lines, List.foldl_map, List.foldl_append, isListed.foldl_readLine_headers,
    List.foldl_cons, readLine_files, List.foldl_map, foldl_readLine_files isListed.files rfl]
  simp [Draft.package?, package, Function.comp_def]

theorem package_describes (listed : ListedPackage) : listed.Describes listed.package where
  name := rfl
  version := rfl
  files path := by
    rw [package, Package.make, PathSet.mem_cleaned, List.map_map, List.mem_map]
    simp only [Function.comp_apply, eq_comm]

theorem IsListed.headers_ne_nil (isListed : listed.IsListed) : listed.headers ≠ [] := by
  obtain ⟨others, sameLines, -⟩ := isListed.headers
  intro empty
  rw [empty] at sameLines
  exact absurd sameLines.symm.eq_nil (by simp [ownHeaders])

/-- A line of a block has no line feed and is not a carriage return alone, and if it is
not a header it does not start with dashes. -/
theorem IsListed.line (isListed : listed.IsListed) {line : String}
    (member : line ∈ listed.lines) :
    '\n' ∉ line.toList ∧ line.toList ≠ ['\r'] ∧
      (dashes <+: line.toList → line ∈ listed.headers) := by
  have ofHeaderLine {key value : String} (noFeed : '\n' ∉ key.toList) (isValue : IsValue value) :
      '\n' ∉ (headerLine key value).toList ∧ (headerLine key value).toList ≠ ['\r'] := by
    have colon : ':' ∈ (headerLine key value).toList := by simp [headerLine]
    refine ⟨by simp [headerLine, noFeed, isValue.1], fun isReturn => ?_⟩
    rw [isReturn] at colon
    exact absurd colon (by decide)
  rcases List.mem_append.mp member with header | member
  · have plain : '\n' ∉ line.toList ∧ line.toList ≠ ['\r'] := by
      rcases isListed.isHeader header with own | isOther
      · simp only [ownHeaders, List.mem_cons, List.not_mem_nil, or_false] at own
        rcases own with rfl | rfl | rfl
        · exact ofHeaderLine (by decide) isListed.name
        · exact ofHeaderLine (by decide) isListed.version
        · exact ofHeaderLine (by decide) isListed.location
      · refine ⟨isOther.single, fun isReturn => ?_⟩
        have notIndented := isOther.notIndented
        rw [isReturn] at notIndented
        exact absurd notIndented (by decide)
    exact ⟨plain.1, plain.2, fun _ => header⟩
  · rcases List.mem_cons.mp member with rfl | member
    · exact ⟨by decide, by decide, fun starts => absurd starts (by decide)⟩
    · obtain ⟨file, isFile, rfl⟩ := List.mem_map.mp member
      have single := (isListed.files file isFile).1.1
      have text : ("  " ++ file).toList = ' ' :: ' ' :: file.toList := by simp
      rw [text]
      refine ⟨by simp [single], by simp, fun starts => ?_⟩
      exact absurd (List.cons_prefix_cons.mp starts).1 (by decide)

theorem IsListed.packagesIn_block (isListed : listed.IsListed)
    (noDashes : ∀ line ∈ listed.headers, ¬ dashes <+: line.toList) :
    packagesIn listed.block.toList = [listed.package] := by
  have chars : listed.block.toList = ['\n'].intercalate (listed.lines.map String.toList) := by
    rw [block, String.toList_intercalate]
    rfl
  have nonempty : listed.lines.map String.toList ≠ [] := by simp [lines]
  have plain : ∀ line ∈ listed.lines.map String.toList, '\n' ∉ line := by
    intro line member
    obtain ⟨text, isLine, rfl⟩ := List.mem_map.mp member
    exact (isListed.line isLine).1
  have goesOn : ∀ line ∈ (listed.lines.map String.toList).tail, ¬ dashes <+: line := by
    intro line member starts
    obtain ⟨text, isLine, rfl⟩ := List.mem_map.mp (List.mem_of_mem_tail member)
    exact noDashes text ((isListed.line isLine).2.2 starts) starts
  have noReturn : ['\r'] ∉ listed.lines.map String.toList := by
    intro member
    obtain ⟨text, isLine, isReturn⟩ := List.mem_map.mp member
    exact (isListed.line isLine).2.1 isReturn
  rw [chars, packagesIn_lines nonempty plain goesOn noReturn, isListed.package?_eq]
  rfl

/-- A block starts with a whole header. -/
theorem IsListed.exists_header (isListed : listed.IsListed) :
    ∃ header ∈ listed.headers, ∃ rest,
      listed.block.toList = header.toList ++ '\n' :: rest := by
  obtain ⟨header, others, headers⟩ := List.exists_cons_of_ne_nil isListed.headers_ne_nil
  refine ⟨header, by simp [headers], ?_⟩
  have several : others ++ "Files:" :: listed.files.map ("  " ++ ·) ≠ [] := by simp
  rw [block, lines, headers, List.cons_append, String.intercalate_cons_of_ne_nil several]
  simp

end ListedPackage

theorem block_prefix_print (listed : ListedPackage) (list : List ListedPackage) :
    listed.block.toList <+: (print (listed :: list)).toList := by
  cases list with
  | nil => simp [print]
  | cons next list => simp [print, String.intercalate_cons_cons]

theorem packagesIn_print {list : List ListedPackage} (areListed : ∀ listed ∈ list, listed.IsListed)
    (noDashes : ∀ listed ∈ list, ∀ line ∈ listed.headers, ¬ dashes <+: line.toList) :
    packagesIn (print list).toList = list.map ListedPackage.package := by
  induction list with
  | nil => rfl
  | cons listed list ih =>
      have isListed := areListed listed (by simp)
      have first := isListed.packagesIn_block (noDashes listed (by simp))
      have others := ih (fun other member => areListed other (by simp [member]))
        fun other member => noDashes other (by simp [member])
      cases list with
      | nil => simpa [print] using first
      | cons next list =>
          have text : (print (listed :: next :: list)).toList =
              listed.block.toList ++ (separator ++ '\n' :: (print (next :: list)).toList) := by
            simp [print, String.intercalate_cons_cons, separator, dashes]
          obtain ⟨header, isHeader, rest, start⟩ := (areListed next (by simp)).exists_header
          have goesOn : ¬ dashes <+: (print (next :: list)).toList := by
            intro starts
            obtain ⟨others, whole⟩ := block_prefix_print next list
            rw [← whole, start, List.append_assoc, List.cons_append] at starts
            exact noDashes next (by simp) header isHeader (dashes_prefix_of_append_feed starts)
          rw [text, packagesIn_append_line _ goesOn, first, others]
          rfl

/-- A listing tells its packages: one for each block, in their order, with the files that
are listed, when no header starts with three dashes.  A line feed at the end makes no
difference. -/
theorem packages_print {list : List ListedPackage} {ending : String}
    (areListed : ∀ listed ∈ list, listed.IsListed)
    (noDashes : ∀ listed ∈ list, ∀ line ∈ listed.headers, ¬ dashes <+: line.toList)
    (ended : ending = "" ∨ ending = "\n") :
    List.Forall₂ ListedPackage.Describes list (packages (print list ++ ending)) := by
  have told : packages (print list ++ ending) = list.map ListedPackage.package := by
    rw [← packagesIn_print areListed noDashes]
    rcases ended with rfl | rfl
    · simp [packages, packagesIn]
    · rw [← packagesIn_append_feed]
      simp [packages, packagesIn]
  rw [told, List.forall₂_map_right_iff, List.forall₂_same]
  exact fun listed _ => listed.package_describes

/-- Two packages.  The second one has a licence of several lines and a file outside of its
location. -/
def requestsAndSix : List ListedPackage := [
  { name := "requests", version := "2.31.0", location := "/site"
    headers := [headerLine "Name" "requests", headerLine "Version" "2.31.0",
      headerLine "Location" "/site", "Requires: idna"]
    files := ["requests/api.py"] },
  { name := "six", version := "1.16.0", location := "/site"
    headers := [headerLine "Name" "six", headerLine "Version" "1.16.0", "License: MIT",
      "", "-- as it is: no warranty", headerLine "Location" "/site"]
    files := ["../bin/six", "six.py"] }]

theorem isListed_of_mem_requestsAndSix : ∀ listed ∈ requestsAndSix, listed.IsListed := by
  have isOther {line : String} := @IsOtherHeader.of_splitAtColon line
  simp only [requestsAndSix, List.forall_mem_cons, List.not_mem_nil, false_imp_iff,
    implies_true, and_true]
  refine ⟨⟨by decide, by decide, by decide, ⟨["Requires: idna"], .refl _, ?_⟩, by decide⟩,
    ⟨by decide, by decide, by decide,
      ⟨["License: MIT", "", "-- as it is: no warranty"], by decide, ?_⟩, by decide⟩⟩
  · simp only [List.forall_mem_singleton]
    exact isOther (by decide) (by decide) (by decide) (by decide)
  · simp only [List.forall_mem_cons, List.not_mem_nil, false_imp_iff, implies_true, and_true]
    exact ⟨isOther (by decide) (by decide) (by decide) (by decide),
      isOther (by decide) (by decide) (by decide) (by decide),
      isOther (by decide) (by decide) (by decide) (by decide)⟩

theorem packages_print_of_requestsAndSix :
    List.Forall₂ ListedPackage.Describes requestsAndSix
      (packages (print requestsAndSix ++ "\n")) :=
  packages_print isListed_of_mem_requestsAndSix (by decide) (.inr rfl)

/-- A package with a line of four dashes in its licence. -/
def ruled : ListedPackage where
  name := "ruled"
  version := "1.0"
  location := "/site"
  headers := [headerLine "Name" "ruled", headerLine "Version" "1.0",
    headerLine "Location" "/site", "License: MIT", "----"]
  files := ["ruled.py"]

theorem isListed_ruled : ruled.IsListed where
  name := by decide
  version := by decide
  location := by decide
  headers := by
    refine ⟨["License: MIT", "----"], .refl _, ?_⟩
    simp only [List.forall_mem_cons, List.not_mem_nil, false_imp_iff, implies_true, and_true]
    exact ⟨.of_splitAtColon (by decide) (by decide) (by decide) (by decide),
      .of_splitAtColon (by decide) (by decide) (by decide) (by decide)⟩
  files := by decide

theorem packages_print_ruled : packages (print [ruled]) = [.make "ruled" "1.0" []] := by
  have text : print [ruled] =
      "Name: ruled\nVersion: 1.0\nLocation: /site\nLicense: MIT\n----\nFiles:\n  ruled.py" := by
    simp [print, ruled, ListedPackage.block, ListedPackage.lines, headerLine,
      String.intercalate_cons_cons]
  rw [text]
  rfl

/-- A line that only starts with three dashes ends a block as well, and the files after it
are lost. -/
theorem not_describes_of_ruled :
    ruled.IsListed ∧ ¬ List.Forall₂ ListedPackage.Describes [ruled] (packages (print [ruled])) := by
  refine ⟨isListed_ruled, fun described => ?_⟩
  rw [packages_print_ruled] at described
  obtain ⟨isDescribed, -⟩ := List.forall₂_cons.mp described
  have lost := (isDescribed.files (((FilePath.mk "/site").join ⟨"ruled.py"⟩).clean)).mpr
    ⟨"ruled.py", by simp [ruled], rfl⟩
  rw [Package.make, PathSet.mem_cleaned] at lost
  simp at lost

end Listing

end SymbolIndex
