import SymbolIndex.Proofs.Analysis.Loading
import SymbolIndex.Proofs.Json.Records
import SymbolIndex.Proofs.Json.RoundTrip

/-!
# The presentations of an analysis

An analysis may be written in many ways.  Fields come in any order and among fields of
other names, those that hold their usual value may be left out, and the JSON text may be
spelled in any way.  However it is written, the same analysis is loaded.
-/

namespace SymbolIndex

open Json (Field IsReadBy Presents WritesInteger WritesList WritesOptional WritesText)

theorem Descriptor.Kind.isReadBy_ofJson? :
    IsReadBy ofJson? fun kind => WritesText kind.text := by
  rintro kind json rfl
  cases kind <;> rfl

theorem Visibility.isReadBy_ofJson? :
    IsReadBy ofJson? fun visibility => WritesText visibility.text := by
  rintro visibility json rfl
  cases visibility <;> rfl

theorem Role.isReadBy_ofJson? : IsReadBy ofJson? fun role => WritesText role.text := by
  rintro role json rfl
  cases role <;> rfl

namespace Entity

/-- The fields of an entity. -/
def fields (entity : Entity) : List Field :=
  [.mandatory "id" (fun id => WritesInteger id.toNat) entity.id,
    .mandatory "name" WritesText entity.name,
    .mandatory "kind" (fun kind => WritesText kind.text) entity.kind,
    .withDefault "disambiguator" WritesText entity.disambiguator "",
    .withDefault "visibility" (fun visibility => WritesText visibility.text) entity.visibility
      .exported,
    .withDefault "scope" (WritesOptional fun id => WritesInteger id.toNat) entity.scope none,
    .withDefault "defined_in" (WritesOptional WritesText) (entity.definedIn.map (·.text)) none,
    .withDefault "documentation" (WritesList WritesText) entity.documentation []]

/-- Whether a value is a presentation of an entity. -/
def IsPresentedBy (entity : Entity) : Json → Prop :=
  Presents entity.fields

theorem names_fields (entity : Entity) : entity.fields.map Field.name = fieldNames := rfl

/-- An entity is read from every presentation of it. -/
theorem isReadBy_ofJson? : IsReadBy ofJson? IsPresentedBy := by
  intro entity json presents
  have distinct : (entity.fields.map Field.name).Nodup := by
    rw [names_fields]
    decide
  obtain ⟨values, record, fits⟩ := Json.record?_of_presents distinct presents
  obtain _ | ⟨id, _ | ⟨name, _ | ⟨kind, _ | ⟨disambiguator, _ | ⟨visibility, _ | ⟨scope,
    _ | ⟨definedIn, _ | ⟨documentation, _ | _⟩⟩⟩⟩⟩⟩⟩⟩ := fits
  have readScope := Json.defaulting_of_fits
    (Json.isReadBy_nullable Json.isReadBy_uint32? rfl) scope
  have readDefinedIn := Json.defaulting_of_fits
    (Json.isReadBy_nullable Json.isReadBy_string? rfl) definedIn
  have spelled : (entity.definedIn.map (·.text)).map FilePath.mk = entity.definedIn := by
    cases entity.definedIn <;> rfl
  rw [names_fields] at record
  rw [ofJson?, record]
  simp only [Option.bind_eq_bind, Option.bind_some,
    Json.required_of_fits Json.isReadBy_uint32? id,
    Json.required_of_fits Json.isReadBy_string? name,
    Json.required_of_fits Descriptor.Kind.isReadBy_ofJson? kind,
    Json.defaulting_of_fits Json.isReadBy_string? disambiguator,
    Json.defaulting_of_fits Visibility.isReadBy_ofJson? visibility, readScope, readDefinedIn,
    Json.defaulting_of_fits (Json.isReadBy_list? Json.isReadBy_string?) documentation, spelled,
    Option.pure_def]

end Entity

namespace Mention

/-- The fields of an occurrence. -/
def fields (occurrence : Mention) : List Field :=
  [.mandatory "entity" (fun id => WritesInteger id.toNat) occurrence.entity,
    .mandatory "range" (WritesList fun n => WritesInteger n.toInt) occurrence.range,
    .withDefault "roles" (WritesList fun role => WritesText role.text) occurrence.roles []]

/-- Whether a value is a presentation of an occurrence. -/
def IsPresentedBy (occurrence : Mention) : Json → Prop :=
  Presents occurrence.fields

theorem names_fields (occurrence : Mention) :
    occurrence.fields.map Field.name = fieldNames := rfl

/-- An occurrence is read from every presentation of it. -/
theorem isReadBy_ofJson? : IsReadBy ofJson? IsPresentedBy := by
  intro occurrence json presents
  have distinct : (occurrence.fields.map Field.name).Nodup := by
    rw [names_fields]
    decide
  obtain ⟨values, record, fits⟩ := Json.record?_of_presents distinct presents
  obtain _ | ⟨entity, _ | ⟨range, _ | ⟨roles, _ | _⟩⟩⟩ := fits
  rw [names_fields] at record
  rw [ofJson?, record]
  simp only [Option.bind_eq_bind, Option.bind_some,
    Json.required_of_fits Json.isReadBy_uint32? entity,
    Json.required_of_fits (Json.isReadBy_list? Json.isReadBy_int32?) range,
    Json.defaulting_of_fits (Json.isReadBy_list? Role.isReadBy_ofJson?) roles, Option.pure_def]

end Mention

namespace AnalyzedFile

/-- The fields of an analysis. -/
def fields (file : AnalyzedFile) : List Field :=
  [.mandatory "relative_path" WritesText file.relativePath,
    .withDefault "language" WritesText file.language "python",
    .withDefault "entities" (WritesList Entity.IsPresentedBy) file.entities [],
    .withDefault "occurrences" (WritesList Mention.IsPresentedBy) file.occurrences []]

/-- Whether a value is a presentation of an analysis. -/
def IsPresentedBy (file : AnalyzedFile) : Json → Prop :=
  Presents file.fields

theorem names_fields (file : AnalyzedFile) : file.fields.map Field.name = fieldNames := rfl

/-- An analysis is read from every presentation of it. -/
theorem isReadBy_ofJson? : IsReadBy ofJson? IsPresentedBy := by
  intro file json presents
  have distinct : (file.fields.map Field.name).Nodup := by
    rw [names_fields]
    decide
  obtain ⟨values, record, fits⟩ := Json.record?_of_presents distinct presents
  obtain _ | ⟨path, _ | ⟨language, _ | ⟨entities, _ | ⟨occurrences, _ | _⟩⟩⟩⟩ := fits
  rw [names_fields] at record
  rw [ofJson?, record]
  simp only [Option.bind_eq_bind, Option.bind_some,
    Json.required_of_fits Json.isReadBy_string? path,
    Json.defaulting_of_fits Json.isReadBy_string? language,
    Json.defaulting_of_fits (Json.isReadBy_list? Entity.isReadBy_ofJson?) entities,
    Json.defaulting_of_fits (Json.isReadBy_list? Mention.isReadBy_ofJson?) occurrences,
    Option.pure_def]

/-- An analysis is loaded from every file that holds a spelling of a presentation of it,
and nothing changes on the machine. -/
theorem load_of_presentation {file : AnalyzedFile} {value : Json} {text : String}
    {path : FilePath} {machine : Machine} (presents : file.IsPresentedBy value)
    (spelling : Json.IsSpelling text value)
    (holds : machine.files.read path = .ok text.toUTF8) :
    (load path).runOn machine = (.ok file, machine) := by
  have read : read? text = some file := by
    rw [read?, Json.read?_of_isSpelling spelling, Option.bind_some,
      isReadBy_ofJson? file value presents]
  rw [runOn_load, FileTree.analysis, FileTree.readText_of_read holds]
  dsimp only
  rw [read]

/-- An analysis with one entity that has no scope. -/
def smileAnalysis : AnalyzedFile :=
  ⟨"a/b", "python", [⟨7, "😀", .term, "", .exported, none, none, []⟩], []⟩

/-- A presentation of the entity with all fields in the opposite order, with `null` for its
scope and without its other usual values. -/
def smileEntity : Json :=
  .ofFields [("scope", .null), ("kind", .ofString "term"), ("name", .ofString "😀"),
    ("id", .integer 7)]

/-- A presentation of the analysis with a field that is passed over. -/
def smileValue : Json :=
  .ofFields [("extra", .array [.real, .text none]), ("entities", .array [smileEntity]),
    ("relative_path", .ofString "a/b")]

/-- A spelling of the presentation with white space, a negative zero, half of a pair, a
whole pair and an escaped slash. -/
def smileText : String :=
  "\t\x7b\"extra\":[-0,\"\\ud800\"] ,\n\"entities\":[\x7b\"scope\":null,\"kind\":\"term\"," ++
    "\"name\":\"\\ud83D\\uDE00\",\"id\":7 \x7d],\"relative_path\":\"a\\/b\"\x7d"

theorem isPresentedBy_smileValue : smileAnalysis.IsPresentedBy smileValue := by
  have entity : Entity.IsPresentedBy
      ⟨7, "😀", .term, "", .exported, none, none, []⟩ smileEntity := by
    refine ⟨[("id", .integer 7), ("name", .ofString "😀"), ("kind", .ofString "term"),
      ("scope", .null)], [], _, ?_, nofun, List.reverse_perm _, rfl⟩
    exact .given rfl (.given rfl (.given rfl (.omitted rfl (.omitted rfl (.given rfl
      (.omitted rfl (.omitted rfl .nil)))))))
  refine ⟨[("relative_path", .ofString "a/b"), ("entities", .array [smileEntity])],
    [("extra", .array [.real, .text none])], _, ?_, by decide, List.reverse_perm _, rfl⟩
  exact .given rfl (.omitted rfl (.given ⟨_, rfl, .cons entity .nil⟩ (.omitted rfl .nil)))

theorem isSpelling_smileText : Json.IsSpelling smileText smileValue := by
  have zero : Json.IsHex 0 '0' := ⟨by decide, .inl rfl⟩
  have three : Json.IsHex 3 '3' := ⟨by decide, .inl rfl⟩
  have eight : Json.IsHex 8 '8' := ⟨by decide, .inl rfl⟩
  have small : Json.IsHex 13 'd' := ⟨by decide, .inl rfl⟩
  have capital : Json.IsHex 13 'D' := ⟨by decide, .inr rfl⟩
  have fourteen : Json.IsHex 14 'E' := ⟨by decide, .inr rfl⟩
  have half : Json.SpellsToken (.scalar (.text none)) "\"\\ud800\"".toList := by
    refine .noText (.cons (.unit small eight zero zero) .nil) fun cs stand => ?_
    cases Json.charsOfPieces?_of_standFor stand
  have whole : Json.SpellsToken (.scalar (.ofString "😀")) "\"\\ud83D\\uDE00\"".toList := by
    refine .text (.cons (.unit small eight three capital)
      (.cons (.unit capital fourteen zero zero) .nil)) ?_
    exact .pair (c := '😀') (by decide) .nil
  have slash : Json.SpellsToken (.scalar (.ofString "a/b")) "\"a\\/b\"".toList := by
    refine .text (.cons (.plain ?_ ?_ ?_) (.cons (.short (by decide))
      (.cons (.plain ?_ ?_ ?_) .nil))) (.char (.char (.char .nil)))
    all_goals decide
  have chars : smileText.toList = '\t' :: '\x7b' :: (Json.literal "extra" ++ ':' :: '[' ::
      (['-', '0'] ++ ',' :: ("\"\\ud800\"".toList ++ ']' :: ' ' :: ',' :: '\n' ::
      (Json.literal "entities" ++ ':' :: '[' :: '\x7b' :: (Json.literal "scope" ++ ':' ::
      ("null".toList ++ ',' :: (Json.literal "kind" ++ ':' :: (Json.literal "term" ++ ',' ::
      (Json.literal "name" ++ ':' :: ("\"\\ud83D\\uDE00\"".toList ++ ',' ::
      (Json.literal "id" ++ ':' :: ((toString (7 : Int)).toList ++ ' ' :: '\x7d' :: ']' :: ',' ::
      (Json.literal "relative_path" ++ ':' :: ("\"a\\/b\"".toList ++ ['\x7d'])))))))))))))) := by
    decide +kernel
  have text := Json.spellsToken_literal
  rw [Json.IsSpelling, chars]
  refine .space (by decide) (.sign .openBrace (.token (text "extra") (.sign .colon ?_)))
  refine .sign .openBracket (.token (.real .negativeZero) (.sign .comma (.token half ?_)))
  refine .sign .closeBracket (.space (by decide) (.sign .comma (.space (by decide) ?_)))
  refine .token (text "entities") (.sign .colon (.sign .openBracket (.sign .openBrace ?_)))
  refine .token (text "scope") (.sign .colon (.token .null (.sign .comma ?_)))
  refine .token (text "kind") (.sign .colon (.token (text "term") (.sign .comma ?_)))
  refine .token (text "name") (.sign .colon (.token whole (.sign .comma ?_)))
  refine .token (text "id") (.sign .colon (.token (.integer 7) (.space (by decide) ?_)))
  refine .sign .closeBrace (.sign .closeBracket (.sign .comma ?_))
  exact .token (text "relative_path") (.sign .colon (.token slash (.sign .closeBrace .done)))

theorem load_of_presentation_smile :
    let machine : Machine := { files := ⟨.directory [("a.json", .file smileText.toUTF8)], []⟩ }
    smileAnalysis.IsPresentedBy smileValue ∧ Json.IsSpelling smileText smileValue ∧
      machine.files.read ⟨"a.json"⟩ = .ok smileText.toUTF8 ∧
      (load ⟨"a.json"⟩).runOn machine = (.ok smileAnalysis, machine) := by
  intro machine
  have holds : machine.files.read ⟨"a.json"⟩ = .ok smileText.toUTF8 := by rfl
  exact ⟨isPresentedBy_smileValue, isSpelling_smileText, holds,
    load_of_presentation isPresentedBy_smileValue isSpelling_smileText holds⟩

end AnalyzedFile

end SymbolIndex
