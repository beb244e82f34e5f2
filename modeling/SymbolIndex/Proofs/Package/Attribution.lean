import SymbolIndex.Package.Registry
import SymbolIndex.Proofs.FilePath.Sets

/-!
# Attribution of paths to packages

A path belongs to the project or to the one package whose root is deepest among the
packages that claim it.  Several deepest packages are in conflict.  The steps of the
cleaned claims tell all of this, so the order of the packages and of their claims makes
no difference to who owns a path.
-/

namespace SymbolIndex

open FilePath (Component sharedSteps)

/-! ## Roots -/

namespace FilePath

theorem sharedSteps_of_prefix {first second : List Component} (areFirst : first <+: second) :
    sharedSteps first second = first.length := by
  obtain ⟨rest, rfl⟩ := areFirst
  induction first with
  | nil => cases rest <;> rfl
  | cons step first ih => simp [sharedSteps, ih]

/-- The steps that two lists share are their longest common start. -/
theorem prefix_take_sharedSteps_iff {steps first second : List Component} :
    steps <+: first.take (sharedSteps first second) ↔ steps <+: first ∧ steps <+: second := by
  induction first generalizing steps second with
  | nil =>
      simp only [sharedSteps, List.take_nil, List.prefix_nil]
      exact ⟨fun none => ⟨none, none ▸ List.nil_prefix⟩, And.left⟩
  | cons step first ih =>
      cases second with
      | nil =>
          simp only [sharedSteps, List.take_zero, List.prefix_nil]
          exact ⟨fun none => ⟨none ▸ List.nil_prefix, none⟩, And.right⟩
      | cons other second =>
          cases steps with
          | nil => simp
          | cons start steps =>
              by_cases same : step = other
              · subst same
                simp only [sharedSteps, if_true, List.take_succ_cons, List.cons_prefix_cons, ih]
                tauto
              · simp only [sharedSteps, if_neg same, List.take_zero, List.prefix_nil,
                  List.cons_prefix_cons, reduceCtorEq, false_iff]
                rintro ⟨⟨rfl, -⟩, rfl, -⟩
                exact same rfl

end FilePath

namespace Package

/-- The steps of the paths of a package when they are cleaned. -/
def claimSteps (package : Package) : List (List Component) :=
  package.files.paths.map (·.clean.components)

/-- Whether a claim of a package is the given path or lies above it, when both are
cleaned. -/
def Claims (package : Package) (path : FilePath) : Prop :=
  ∃ steps ∈ package.claimSteps, steps <+: path.clean.components

/-- Whether some steps are the longest that all claims of a package start with. -/
structure HasRoot (package : Package) (root : List Component) : Prop where
  shared : ∀ steps ∈ package.claimSteps, root <+: steps
  longest : ∀ start, (∀ steps ∈ package.claimSteps, start <+: steps) → start <+: root

/-- How many steps the root of a package has. -/
def depth (package : Package) : Nat :=
  package.clean.root.length

variable {package : Package} {path : FilePath}

theorem mem_map_components_clean {steps : List Component} :
    steps ∈ package.clean.files.paths.map FilePath.components ↔ steps ∈ package.claimSteps :=
  PathSet.mem_map_components_cleaned

/-- Going up from a path finds the claims of a package that are the path or lie above
it. -/
theorem claims_clean_iff : package.clean.claims path.clean = true ↔ package.Claims path := by
  have notEmpty : ∀ steps ∈ package.claimSteps, steps ≠ [] := by
    intro steps member
    obtain ⟨file, -, rfl⟩ := List.mem_map.mp member
    exact file.components_clean_ne_nil
  simp only [claims, FilePath.sameSteps, List.any_eq_true, decide_eq_true_eq]
  constructor
  · rintro ⟨above, isAbove, file, isFile, same⟩
    have isClaim := mem_map_components_clean.mp (List.mem_map_of_mem isFile)
    exact ⟨file.components, isClaim, (FilePath.exists_mem_ancestors_iff (notEmpty _ isClaim)).mp
      ⟨above, isAbove, same.symm⟩⟩
  · rintro ⟨steps, isClaim, areFirst⟩
    obtain ⟨above, isAbove, same⟩ :=
      (FilePath.exists_mem_ancestors_iff (notEmpty steps isClaim)).mpr areFirst
    obtain ⟨file, isFile, rfl⟩ := List.mem_map.mp (mem_map_components_clean.mpr isClaim)
    exact ⟨above, isAbove, file, isFile, same.symm⟩

theorem prefix_sharedRoot_iff {start : List Component} {file : FilePath} {files : List FilePath} :
    start <+: sharedRoot (file :: files) ↔ ∀ other ∈ file :: files, start <+: other.components := by
  have folded (root : List Component) :
      start <+: files.foldl (fun root file => root.take (sharedSteps root file.components)) root ↔
        start <+: root ∧ ∀ other ∈ files, start <+: other.components := by
    induction files generalizing root with
    | nil => simp
    | cons other files ih =>
        rw [List.foldl_cons, ih, FilePath.prefix_take_sharedSteps_iff, List.forall_mem_cons,
          and_assoc]
  rw [sharedRoot, folded, List.forall_mem_cons]

/-- The root of a package with claims is the longest start of all of them. -/
theorem hasRoot_root_clean (claims : package.claimSteps ≠ []) :
    package.HasRoot package.clean.root := by
  have starts (start : List Component) :
      start <+: package.clean.root ↔ ∀ steps ∈ package.claimSteps, start <+: steps := by
    have notEmpty : package.clean.files.paths ≠ [] := by
      intro empty
      obtain ⟨steps, others, split⟩ := List.exists_cons_of_ne_nil claims
      have member : steps ∈ package.clean.files.paths.map FilePath.components :=
        mem_map_components_clean.mpr (by rw [split]; exact List.mem_cons_self)
      rw [empty] at member
      cases member
    obtain ⟨file, files, split⟩ := List.exists_cons_of_ne_nil notEmpty
    rw [root, split, prefix_sharedRoot_iff, ← split]
    constructor
    · intro all steps member
      obtain ⟨file, isFile, rfl⟩ := List.mem_map.mp (mem_map_components_clean.mpr member)
      exact all file isFile
    · intro all file isFile
      exact all _ (mem_map_components_clean.mp (List.mem_map_of_mem isFile))
  exact ⟨(starts _).mp List.prefix_rfl, fun start => (starts start).mpr⟩

/-- A package that claims a path scores the depth of its root. -/
theorem score_clean (claims : package.Claims path) :
    package.HasRoot package.clean.root ∧ package.clean.score path.clean = package.depth := by
  obtain ⟨steps, isClaim, areFirst⟩ := claims
  have hasRoot := hasRoot_root_clean (List.ne_nil_of_mem isClaim)
  exact ⟨hasRoot, FilePath.sharedSteps_of_prefix ((hasRoot.shared steps isClaim).trans areFirst)⟩

/-- Whether two packages are the same but for the order and the spelling of their
claims. -/
structure Alike (first second : Package) : Prop where
  name : first.name = second.name
  version : first.version = second.version
  claims : ∀ steps, steps ∈ first.claimSteps ↔ steps ∈ second.claimSteps

theorem clean_eq_of_alike {first second : Package} (alike : first.Alike second) :
    first.clean = second.clean := by
  have files : PathSet.cleaned first.files.paths = PathSet.cleaned second.files.paths :=
    PathSet.cleaned_eq_of_steps alike.claims
  simp only [clean, make, alike.name, alike.version, files]

theorem map_clean_eq_of_alike {packages others : List Package}
    (alike : List.Forall₂ Alike packages others) :
    packages.map clean = others.map clean := by
  induction alike with
  | nil => rfl
  | cons first rest ih => rw [List.map_cons, List.map_cons, clean_eq_of_alike first, ih]

/-- A package is the same in whatever order its files are listed. -/
theorem alike_of_perm (name version : String) {files others : List FilePath}
    (permuted : files.Perm others) :
    Alike ⟨name, version, .ofList files⟩ ⟨name, version, .ofList others⟩ := by
  refine ⟨rfl, rfl, fun steps => ?_⟩
  simp only [claimSteps, PathSet.mem_map_clean_ofList]
  exact (permuted.map _).mem_iff

end Package

/-! ## The best candidate -/

namespace Registry

variable {path : FilePath} {candidate : Package} {before after rest : List Package}
  {ranking : Ranking}

/-- Whether a ranking tells the first of the best candidates, with worse ones before it
and no better ones after it, and whether another one is as good. -/
structure Ranks (path : FilePath) (before : List Package) (ranking : Ranking)
    (after : List Package) : Prop where
  score : ranking.score = ranking.best.score path
  earlier : ∀ other ∈ before, other.score path < ranking.score
  later : ∀ other ∈ after, other.score path ≤ ranking.score
  tied : ∀ other, ranking.tied = some other →
    other ∈ after ∧ other.score path = ranking.score
  alone : ranking.tied = none → ∀ other ∈ after, other.score path < ranking.score

theorem Ranks.worse (ranks : Ranks path before ranking after)
    (worse : candidate.score path < ranking.score) :
    Ranks path before ranking (after ++ [candidate]) where
  score := ranks.score
  earlier := ranks.earlier
  later := List.forall_mem_append.mpr ⟨ranks.later, by simpa using Nat.le_of_lt worse⟩
  tied := fun other isTied =>
    ⟨List.mem_append_left _ (ranks.tied other isTied).1, (ranks.tied other isTied).2⟩
  alone := fun notTied =>
    List.forall_mem_append.mpr ⟨ranks.alone notTied, by simpa using worse⟩

theorem Ranks.same (ranks : Ranks path before ranking after)
    (same : candidate.score path = ranking.score) :
    Ranks path before { ranking with tied := some candidate } (after ++ [candidate]) where
  score := ranks.score
  earlier := ranks.earlier
  later := List.forall_mem_append.mpr ⟨ranks.later, by simpa using Nat.le_of_eq same⟩
  tied := by
    rintro other ⟨⟩
    exact ⟨List.mem_append_right _ (List.mem_singleton_self _), same⟩
  alone := nofun

theorem Ranks.better (ranks : Ranks path before ranking after)
    (better : ranking.score < candidate.score path) :
    Ranks path (before ++ ranking.best :: after) ⟨candidate, candidate.score path, none⟩ [] where
  score := rfl
  earlier := by
    refine List.forall_mem_append.mpr ⟨fun other member => ?_, List.forall_mem_cons.mpr
      ⟨ranks.score ▸ better, fun other member => ?_⟩⟩
    · exact (ranks.earlier other member).trans better
    · exact (ranks.later other member).trans_lt better
  later := by simp
  tied := nofun
  alone := by simp

/-- A candidate more keeps the ranking, ties with it or takes its place. -/
theorem exists_rank_eq (ranks : Ranks path before ranking after) (candidate : Package) :
    ∃ earlier next later, rank path (some ranking) candidate = some next ∧
      before ++ ranking.best :: after ++ [candidate] = earlier ++ next.best :: later ∧
      Ranks path earlier next later := by
  rcases Nat.lt_trichotomy (candidate.score path) ranking.score with worse | same | better
  · refine ⟨before, ranking, after ++ [candidate], ?_, by simp, ranks.worse worse⟩
    simp [rank, worse]
  · refine ⟨before, { ranking with tied := some candidate }, after ++ [candidate], ?_, by simp,
      ranks.same same⟩
    simp [rank, same]
  · refine ⟨before ++ ranking.best :: after, ⟨candidate, candidate.score path, none⟩, [], ?_,
      by simp, ranks.better better⟩
    simp [rank, Nat.not_lt_of_gt better, Nat.ne_of_gt better]

theorem exists_foldl_rank_eq (ranks : Ranks path before ranking after) (rest : List Package) :
    ∃ earlier last later, rest.foldl (rank path) (some ranking) = some last ∧
      before ++ ranking.best :: after ++ rest = earlier ++ last.best :: later ∧
      Ranks path earlier last later := by
  induction rest generalizing before ranking after with
  | nil => exact ⟨before, ranking, after, rfl, by simp, ranks⟩
  | cons candidate rest ih =>
      obtain ⟨earlier, next, later, ranked, split, ranksNext⟩ := exists_rank_eq ranks candidate
      obtain ⟨first, last, others, folded, splitLast, ranksLast⟩ := ih ranksNext
      refine ⟨first, last, others, ?_, ?_, ranksLast⟩
      · rw [List.foldl_cons, ranked, folded]
      · rw [← splitLast, ← split]
        simp

/-- Some candidates are ranked by the first of the best ones. -/
theorem exists_ranks {candidates : List Package} (notEmpty : candidates ≠ []) :
    ∃ before ranking after, candidates.foldl (rank path) none = some ranking ∧
      candidates = before ++ ranking.best :: after ∧ Ranks path before ranking after := by
  obtain ⟨first, rest, rfl⟩ := List.exists_cons_of_ne_nil notEmpty
  have start : Ranks path [] ⟨first, first.score path, none⟩ [] :=
    ⟨rfl, by simp, by simp, nofun, by simp⟩
  exact exists_foldl_rank_eq start rest

/-! ## Who owns a path -/

/-- Whom a path is to be attributed to.  A file of the project belongs to it, whoever
claims it, and so does a path that nobody claims.  Else it belongs to the package whose
root is the only deepest one.  If there are several, the first of them is in conflict
with another one. -/
inductive Attributed (packages : List Package) (projectFiles : List FilePath)
    (path : FilePath) : Except AttributionConflict Owner → Prop
  | own {file : FilePath} (isFile : file ∈ projectFiles) (same : file.clean = path.clean) :
      Attributed packages projectFiles path (.ok .project)
  | unclaimed (foreign : ∀ file ∈ projectFiles, file.clean ≠ path.clean)
      (noClaim : ∀ package ∈ packages, ¬ package.Claims path) :
      Attributed packages projectFiles path (.ok .project)
  | deepest {before after : List Package} {owner : Package}
      (foreign : ∀ file ∈ projectFiles, file.clean ≠ path.clean)
      (split : packages = before ++ owner :: after) (claims : owner.Claims path)
      (others : ∀ other ∈ before ++ after, other.Claims path → other.depth < owner.depth) :
      Attributed packages projectFiles path (.ok (.package owner.clean))
  | conflict {before after : List Package} {first second : Package}
      (foreign : ∀ file ∈ projectFiles, file.clean ≠ path.clean)
      (split : packages = before ++ first :: after) (claims : first.Claims path)
      (earlier : ∀ other ∈ before, other.Claims path → other.depth < first.depth)
      (later : ∀ other ∈ after, other.Claims path → other.depth ≤ first.depth)
      (isLater : second ∈ after) (claimsToo : second.Claims path)
      (same : second.depth = first.depth) :
      Attributed packages projectFiles path (.error ⟨path.clean, first.clean, second.clean⟩)

/-- The registry of some packages and of the files of a project. -/
def ofProject (packages : List Package) (projectFiles : List FilePath) : Registry :=
  (ofPackages packages).addProjectFiles projectFiles

/-- The packages of a registry that claim a path. -/
def candidates (registry : Registry) (path : FilePath) : List Package :=
  registry.packages.filter (·.claims path)

variable {packages : List Package} {projectFiles : List FilePath}

theorem isOwn_iff :
    ((ofProject packages projectFiles).projectFiles.any (·.sameSteps path.clean)) = true ↔
      ∃ file ∈ projectFiles, file.clean = path.clean := by
  simp only [ofProject, addProjectFiles, ofPackages, List.nil_append, List.any_map,
    List.any_eq_true, FilePath.sameSteps, Function.comp_apply, decide_eq_true_eq]
  constructor
  · rintro ⟨file, isFile, same⟩
    exact ⟨file, isFile, FilePath.clean_eq_of_components same⟩
  · rintro ⟨file, isFile, same⟩
    exact ⟨file, isFile, by rw [same]⟩

/-- A candidate is the cleaned form of a package that claims the path, with the cleaned
claimants before and after it on its two sides. -/
theorem exists_claimant {best : Package}
    (split : (ofProject packages projectFiles).candidates path.clean = before ++ best :: after) :
    ∃ early claimant late, packages = early ++ claimant :: late ∧ claimant.clean = best ∧
      claimant.Claims path ∧
      (∀ other ∈ early, other.Claims path → other.clean ∈ before) ∧
      (∀ other ∈ late, other.Claims path → other.clean ∈ after) ∧
      ∀ other ∈ after, ∃ original ∈ late, original.Claims path ∧ original.clean = other := by
  obtain ⟨start, ending, parts, rfl, endingSplit⟩ := List.filter_eq_append_iff.mp split
  obtain ⟨between, others, rfl, noClaim, bestClaims, rfl⟩ := List.filter_eq_cons_iff.mp endingSplit
  rw [← List.append_assoc] at parts
  obtain ⟨early, rest, rfl, cleanEarly, cleanRest⟩ := List.map_eq_append_iff.mp parts
  obtain ⟨claimant, late, rfl, rfl, rfl⟩ := List.map_eq_cons_iff.mp cleanRest
  refine ⟨early, claimant, late, rfl, rfl, Package.claims_clean_iff.mp bestClaims, ?_, ?_, ?_⟩
  · intro other isEarly claims
    have cleaned : other.clean ∈ start ++ between := by
      rw [← cleanEarly]
      exact List.mem_map_of_mem isEarly
    have claimsClean := Package.claims_clean_iff.mpr claims
    rcases List.mem_append.mp cleaned with inStart | inBetween
    · exact List.mem_filter.mpr ⟨inStart, claimsClean⟩
    · exact absurd claimsClean (noClaim _ inBetween)
  · intro other isLate claims
    exact List.mem_filter.mpr ⟨List.mem_map_of_mem isLate, Package.claims_clean_iff.mpr claims⟩
  · intro other member
    obtain ⟨isOther, claims⟩ := List.mem_filter.mp member
    obtain ⟨original, isOriginal, rfl⟩ := List.mem_map.mp isOther
    exact ⟨original, isOriginal, Package.claims_clean_iff.mp claims, rfl⟩

theorem candidates_eq_nil_iff :
    (ofProject packages projectFiles).candidates path.clean = [] ↔
      ∀ package ∈ packages, ¬ package.Claims path := by
  simp only [candidates, ofProject, ofPackages, addProjectFiles, List.filter_eq_nil_iff,
    List.forall_mem_map, Package.claims_clean_iff]

/-- What a registry resolves to, told from its candidates. -/
theorem resolve_eq (registry : Registry) (path : FilePath) :
    registry.resolve path =
      if registry.projectFiles.any (·.sameSteps path.clean) then .ok .project
      else
        match (registry.candidates path.clean).foldl (rank path.clean) none with
        | none => .ok .project
        | some ⟨best, _, none⟩ => .ok (.package best)
        | some ⟨best, _, some other⟩ => .error ⟨path.clean, best, other⟩ := rfl

theorem attributed_resolve (packages : List Package) (projectFiles : List FilePath)
    (path : FilePath) :
    Attributed packages projectFiles path ((ofProject packages projectFiles).resolve path) := by
  rw [resolve_eq]
  by_cases own : (ofProject packages projectFiles).projectFiles.any (·.sameSteps path.clean) = true
  · rw [if_pos own]
    obtain ⟨file, isFile, same⟩ := isOwn_iff.mp own
    exact .own isFile same
  · rw [if_neg own]
    have foreign : ∀ file ∈ projectFiles, file.clean ≠ path.clean := fun file isFile same =>
      own (isOwn_iff.mpr ⟨file, isFile, same⟩)
    by_cases empty : (ofProject packages projectFiles).candidates path.clean = []
    · rw [empty]
      exact .unclaimed foreign (candidates_eq_nil_iff.mp empty)
    · obtain ⟨before, ranking, after, folded, split, ranks⟩ := @exists_ranks path.clean _ empty
      obtain ⟨early, claimant, late, rfl, isBest, claims, beforeOf, afterOf, lateOf⟩ :=
        exists_claimant split
      obtain ⟨best, score, tied⟩ := ranking
      obtain rfl : claimant.clean = best := isBest
      have depths {other : Package} (otherClaims : other.Claims path) :
          other.clean.score path.clean = other.depth := (Package.score_clean otherClaims).2
      have isScore : score = claimant.depth := ranks.score.trans (depths claims)
      subst isScore
      have earlier : ∀ other ∈ early, other.Claims path → other.depth < claimant.depth := by
        intro other isEarly otherClaims
        rw [← depths otherClaims]
        exact ranks.earlier _ (beforeOf other isEarly otherClaims)
      rw [folded]
      cases tied with
      | none =>
          refine .deepest foreign rfl claims fun other member otherClaims => ?_
          rcases List.mem_append.mp member with isEarly | isLate
          · exact earlier other isEarly otherClaims
          · rw [← depths otherClaims]
            exact ranks.alone rfl _ (afterOf other isLate otherClaims)
      | some second =>
          obtain ⟨isAfter, same⟩ := ranks.tied second rfl
          obtain ⟨other, isLate, otherClaims, rfl⟩ := lateOf second isAfter
          refine .conflict foreign rfl claims earlier ?_ isLate otherClaims ?_
          · intro later isLater laterClaims
            rw [← depths laterClaims]
            exact ranks.later _ (afterOf later isLater laterClaims)
          · rw [← depths otherClaims]
            exact same

/-! ## The order of packages -/

/-- Candidates with only one best have the same best one in any order. -/
theorem best_eq_of_perm {first second : Ranking} {others later : List Package}
    (ranks : Ranks path before first after) (alone : first.tied = none)
    (ranksOther : Ranks path others second later)
    (permuted : (before ++ first.best :: after).Perm (others ++ second.best :: later)) :
    second.best = first.best ∧ second.tied = none := by
  have worse : ∀ other ∈ before ++ after, other.score path < first.score :=
    List.forall_mem_append.mpr ⟨ranks.earlier, ranks.alone alone⟩
  have notBetter : first.score ≤ second.score := by
    have member : first.best ∈ others ++ second.best :: later :=
      permuted.subset (by simp)
    rw [ranks.score]
    rcases List.mem_append.mp member with early | rest
    · exact Nat.le_of_lt (ranksOther.earlier _ early)
    · rcases List.mem_cons.mp rest with same | late
      · rw [same, ranksOther.score]
      · exact ranksOther.later _ late
  have front : (first.best :: (before ++ after)).Perm (second.best :: (others ++ later)) :=
    (List.perm_middle.symm.trans permuted).trans List.perm_middle
  have best : second.best = first.best := by
    rcases List.mem_cons.mp (front.symm.subset List.mem_cons_self) with same | isWorse
    · exact same
    · have less := worse _ isWorse
      rw [← ranksOther.score] at less
      exact absurd less (Nat.not_lt.mpr notBetter)
  refine ⟨best, ?_⟩
  cases tied : second.tied with
  | none => rfl
  | some other =>
      rw [best] at front
      obtain ⟨isLater, same⟩ := ranksOther.tied other tied
      have isWorse := worse other (front.cons_inv.symm.subset (List.mem_append_right _ isLater))
      rw [same] at isWorse
      exact absurd isWorse (Nat.not_lt.mpr notBetter)

theorem resolve_of_perm {first second : Registry}
    (projectFiles : first.projectFiles = second.projectFiles)
    (packages : first.packages.Perm second.packages) {owner : Owner}
    (resolved : first.resolve path = .ok owner) : second.resolve path = .ok owner := by
  rw [resolve_eq] at resolved ⊢
  rw [← projectFiles]
  split at resolved
  case isTrue own => rwa [if_pos own]
  case isFalse foreign =>
    rw [if_neg foreign]
    have permuted : (first.candidates path.clean).Perm (second.candidates path.clean) :=
      packages.filter _
    by_cases empty : first.candidates path.clean = []
    · rw [empty] at permuted resolved
      rw [permuted.nil_eq.symm]
      exact resolved
    · have notEmptyOther : second.candidates path.clean ≠ [] := by
        intro emptyOther
        rw [emptyOther] at permuted
        exact empty permuted.eq_nil
      obtain ⟨before, ranking, after, folded, split, ranks⟩ := @exists_ranks path.clean _ empty
      obtain ⟨others, other, later, foldedOther, splitOther, ranksOther⟩ :=
        @exists_ranks path.clean _ notEmptyOther
      rw [split, splitOther] at permuted
      rw [folded] at resolved
      rw [foldedOther]
      obtain ⟨best, score, tied⟩ := ranking
      obtain ⟨bestOther, scoreOther, tiedOther⟩ := other
      cases tied with
      | some second => cases resolved
      | none =>
          obtain ⟨rfl, rfl⟩ := best_eq_of_perm ranks rfl ranksOther permuted
          exact resolved

/-- A path is attributed to its owner, or found in conflict, as the cleaned claims tell:
whoever claims it scores the depth of the longest start of all its own claims.  Who owns
a path does not depend on the order of the packages or of their files. -/
theorem resolve_specification (packages : List Package) (projectFiles : List FilePath)
    (path : FilePath) :
    Attributed packages projectFiles path ((ofProject packages projectFiles).resolve path) ∧
      (∀ package ∈ packages, package.Claims path →
        package.HasRoot package.clean.root ∧
          package.clean.score path.clean = package.depth) ∧
      ∀ reordered others : List Package, packages.Perm reordered →
        List.Forall₂ Package.Alike reordered others →
          ∀ owner, (ofProject packages projectFiles).resolve path = .ok owner ↔
            (ofProject others projectFiles).resolve path = .ok owner := by
  refine ⟨attributed_resolve packages projectFiles path,
    fun package _ claims => Package.score_clean claims,
    fun reordered others permuted alike owner => ?_⟩
  have same : (packages.map Package.clean).Perm (others.map Package.clean) := by
    rw [← Package.map_clean_eq_of_alike alike]
    exact permuted.map _
  have projects : (ofProject packages projectFiles).projectFiles =
      (ofProject others projectFiles).projectFiles := rfl
  exact ⟨resolve_of_perm projects same, resolve_of_perm projects.symm same.symm⟩

/-- A package in a directory of another one owns the paths there, whichever of them
comes first and in whatever order the files are listed. -/
theorem resolve_specification_nested :
    let outer (files : List FilePath) : Package := ⟨"outer", "1", .ofList files⟩
    let inner : Package := ⟨"inner", "2", .ofList [⟨"lib/./sub"⟩]⟩
    let path : FilePath := ⟨"lib/sub/../sub/x.py"⟩
    (ofProject [outer [⟨"bin"⟩, ⟨"lib"⟩], inner] []).resolve path = .ok (.package inner.clean) ∧
      (ofProject [inner, outer [⟨"lib"⟩, ⟨"bin"⟩]] []).resolve path =
        .ok (.package inner.clean) := by
  intro outer inner path
  let files : PathSet := ⟨[⟨"bin"⟩, ⟨"lib"⟩], by decide +kernel⟩
  have listed : outer [⟨"bin"⟩, ⟨"lib"⟩] = ⟨"outer", "1", files⟩ :=
    congrArg (Package.mk "outer" "1") (PathSet.ofList_paths files)
  have cleaned : (outer [⟨"bin"⟩, ⟨"lib"⟩]).clean = ⟨"outer", "1", files⟩ := by
    have same : files.paths.map FilePath.clean = files.paths := by decide +kernel
    rw [listed, Package.clean, Package.make, PathSet.cleaned, same, PathSet.ofList_paths]
  have first : (ofProject [outer [⟨"bin"⟩, ⟨"lib"⟩], inner] []).resolve path =
      .ok (.package inner.clean) := by
    rw [ofProject, ofPackages, List.map_cons, cleaned]
    decide +kernel
  have alike : List.Forall₂ Package.Alike [inner, outer [⟨"bin"⟩, ⟨"lib"⟩]]
      [inner, outer [⟨"lib"⟩, ⟨"bin"⟩]] :=
    .cons ⟨rfl, rfl, fun _ => .rfl⟩ (.cons (Package.alike_of_perm _ _ (.swap ..)) .nil)
  have others := (resolve_specification [outer [⟨"bin"⟩, ⟨"lib"⟩], inner] [] path).2.2
    [inner, outer [⟨"bin"⟩, ⟨"lib"⟩]] [inner, outer [⟨"lib"⟩, ⟨"bin"⟩]] (.swap ..) alike
  exact ⟨first, (others _).mp first⟩

end Registry

end SymbolIndex
