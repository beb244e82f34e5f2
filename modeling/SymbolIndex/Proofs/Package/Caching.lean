import SymbolIndex.Package.Origin
import SymbolIndex.Proofs.Json.RoundTrip
import SymbolIndex.Proofs.Machine.Replacing
import SymbolIndex.Proofs.Machine.Reports

/-!
# Packages from a cache

The packages in a cache are those that were written into it, in their order and with
their paths as they were spelled.  A registry of the cached packages attributes every
path as a registry of the packages themselves does.
-/

namespace SymbolIndex

/-- Values that are each read from what they are written as are read together. -/
theorem mapM_map_of_read {α β : Type} {write : α → β} {read : β → Option α} {values : List α}
    (reads : ∀ value ∈ values, read (write value) = some value) :
    (values.map write).mapM read = some values := by
  induction values with
  | nil => rfl
  | cons value values ih =>
      obtain ⟨first, others⟩ := List.forall_mem_cons.mp reads
      simp [first, ih others]

namespace Package

theorem plain_toJson (package : Package) : package.toJson.plain = package.toJson := by
  have files : Json.plain (.array (package.files.paths.map fun file => .ofString file.text)) =
      .array (package.files.paths.map fun file => .ofString file.text) :=
    Json.plain_array_map fun _ _ => rfl
  simp only [toJson, Json.ofFields, List.map_cons, List.map_nil, Json.plain, Json.plainFields,
    Json.ofString, Option.getD_some] at files ⊢
  rw [files]

/-- A package is read from the value that it is written as. -/
theorem ofJson?_toJson (package : Package) : ofJson? package.toJson = some package := by
  have texts : Json.list? Json.string?
      (.array (package.files.paths.map fun file => .ofString file.text)) =
        some (package.files.paths.map FilePath.text) := by
    have read := @mapM_map_of_read _ _ Json.ofString Json.string?
      (package.files.paths.map FilePath.text) fun _ _ => rfl
    rwa [List.map_map] at read
  have fields : package.toJson.record? fieldNames =
      some [some (.ofString package.name), some (.ofString package.version),
        some (.array (package.files.paths.map fun file => .ofString file.text))] := by
    rfl
  have spelled : (package.files.paths.map FilePath.text).map FilePath.mk = package.files.paths := by
    rw [List.map_map]
    exact List.map_id _
  simp [ofJson?, fields, Json.required, texts, spelled]

end Package

namespace PackageCache

theorem read?_print (packages : List Package) : read? (print packages) = some packages := by
  have kept := Json.plain_array_map fun package (_ : package ∈ packages) => package.plain_toJson
  rw [read?, print, Json.read?_print, kept]
  exact mapM_map_of_read fun package _ => package.ofJson?_toJson

/-- A cache that was written holds the printed packages. -/
theorem readText_write {path : FilePath} {packages : List Package} {machine after : Machine}
    (written : (write path packages).runOn machine = (.ok (), after)) :
    after.files.readText path = .ok (print packages) := by
  obtain ⟨done, middle, replaced, reported⟩ := Attempt.runOn_bind_eq_ok.mp written
  have read := @Session.readText_run_replaceFile path (print packages) machine
  rw [Attempt.runOn_ofSession_eq_ok.mp replaced] at read
  -- reporting that the cache was written changes no file
  rw [Attempt.runOn_lift, Session.run_log, Prod.mk.injEq] at reported
  obtain ⟨-, rfl⟩ := reported
  exact read rfl

/-- Packages that were written into a cache are loaded from it, whatever was in the
place of the cache before. -/
theorem load_write {path : FilePath} {packages : List Package} {machine after : Machine}
    (written : (write path packages).runOn machine = (.ok (), after)) :
    (load path).runOn after = (.ok packages, after) := by
  rw [load, Attempt.runOn_bind, Attempt.runOn_ofSession, Session.run_readText,
    readText_write written]
  simp only [Fallible.mapError_ok, read?_print]
  rfl

end PackageCache

namespace Registry

/-- After packages were written into a cache, the same packages are loaded from it in
the same order.  A registry of the cache holds what a registry of the packages holds and
attributes every path to the same owner or to the same conflict. -/
theorem load_cache_of_write {path : FilePath} {packages : List Package} {machine : Machine}
    (written : ((PackageCache.write path packages).runOn machine).1 = .ok ()) :
    let after := ((PackageCache.write path packages).runOn machine).2
    ((PackageCache.load path).runOn after).1 = .ok packages ∧
      ∃ cached, ((load (.cache path)).runOn after).1 = .ok cached ∧
        cached.packages = (ofPackages packages).packages ∧
        ∀ projectFiles file, (cached.addProjectFiles projectFiles).resolve file =
          ((ofPackages packages).addProjectFiles projectFiles).resolve file := by
  intro after
  have loaded := PackageCache.load_write (Attempt.runOn_eq_mk written)
  refine ⟨by rw [loaded], ofPackages packages, ?_, rfl, fun _ _ => rfl⟩
  rw [load, PackageOrigin.load, Attempt.runOn_bind, Attempt.runOn_mapError, loaded]
  rfl

/-- Two packages whose names, versions and paths need escapes, the second one without
paths.  The paths of the first one are in the order of their steps, which is not that of
their characters. -/
def quotedPackages : List Package :=
  [⟨"a\"b\\c\x01", "1.0\n", { paths := [⟨"./lib//x"⟩, ⟨"./lib-\"y\""⟩], ordered := by decide }⟩,
    ⟨"é\t", "", .empty⟩]

theorem load_cache_of_write_quotedPackages :
    let machine : Machine := {
      files := ⟨.directory [("env", .directory [("cache.json", .file "old".toUTF8)])], []⟩ }
    let written := (PackageCache.write ⟨"env/cache.json"⟩ quotedPackages).runOn machine
    written.1 = .ok () ∧
      ((PackageCache.load ⟨"env/cache.json"⟩).runOn written.2).1 = .ok quotedPackages ∧
      ∃ cached, ((load (.cache ⟨"env/cache.json"⟩)).runOn written.2).1 = .ok cached ∧
        cached.packages = (ofPackages quotedPackages).packages ∧
        ∀ projectFiles file, (cached.addProjectFiles projectFiles).resolve file =
          ((ofPackages quotedPackages).addProjectFiles projectFiles).resolve file := by
  intro machine written
  have succeeded : ((PackageCache.write ⟨"env/cache.json"⟩ quotedPackages).runOn machine).1 =
      .ok () := by
    decide +kernel
  exact ⟨succeeded, load_cache_of_write succeeded⟩

end Registry

end SymbolIndex
