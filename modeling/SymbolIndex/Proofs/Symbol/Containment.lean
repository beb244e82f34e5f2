import SymbolIndex.Proofs.Symbol.Spelling
import SymbolIndex.Symbol.Ecosystem

/-!
# Containment of symbols

Descriptors extend the text of a symbol at its end.  Since written descriptors
can be read back, the text of a symbol is a beginning of the text of another
with the same owner exactly when it encloses the other.
-/

namespace SymbolIndex

namespace Descriptor

theorem fragment_toList {descriptor : Descriptor} {written : String}
    (fits : descriptor.fragment = .ok written) :
    written.toList = descriptor.spelling := by
  simp only [fragment] at fits
  split at fits
  · cases fits
  · cases fits
    exact String.toList_ofList

end Descriptor

namespace GlobalSymbol

theorem extend_eq_ok {owner symbol : GlobalSymbol} {descriptor : Descriptor}
    (extended : owner.extend descriptor = .ok symbol) :
    ∃ written, descriptor.fragment = .ok written ∧
      symbol = ⟨owner.text ++ written, owner.depth + 1⟩ := by
  unfold extend at extended
  split at extended
  · cases extended
  · split at extended
    · cases extended
    · rename_i written fits
      cases extended
      exact ⟨written, fits, rfl⟩

end GlobalSymbol

namespace Symbol

theorem compose_eq_ok {owner symbol : Symbol} {descriptor : Descriptor}
    (composed : owner.compose descriptor = .ok symbol) :
    ∃ outer inner, owner = .global outer ∧ symbol = .global inner ∧
      outer.extend descriptor = .ok inner := by
  cases owner with
  | empty => cases composed
  | inFile number => cases composed
  | global outer =>
      cases extended : outer.extend descriptor with
      | error fault => simp [compose, extended, Except.map] at composed
      | ok inner =>
          simp only [compose, extended, Except.map, Except.ok.injEq] at composed
          exact ⟨outer, inner, rfl, composed.symm, extended⟩

theorem compose_text {owner symbol : Symbol} {descriptor : Descriptor}
    (composed : owner.compose descriptor = .ok symbol) :
    symbol.text.toList = owner.text.toList ++ descriptor.spelling := by
  obtain ⟨outer, inner, rfl, rfl, extended⟩ := compose_eq_ok composed
  obtain ⟨written, fits, rfl⟩ := GlobalSymbol.extend_eq_ok extended
  simp only [text, String.toList_append, Descriptor.fragment_toList fits]

/-- A path of descriptors extends the text of its owner by the written
descriptors. -/
theorem path_text {owner symbol : Symbol} {descriptors : List Descriptor}
    (reached : owner.path descriptors = .ok symbol) :
    symbol.text.toList = owner.text.toList ++ Descriptor.spellings descriptors := by
  induction descriptors generalizing owner with
  | nil =>
      cases reached
      simp
  | cons descriptor inner ih =>
      cases composed : owner.compose descriptor with
      | error fault => simp [path, composed] at reached
      | ok middle =>
          simp only [path, composed] at reached
          rw [ih reached, compose_text composed, Descriptor.spellings_cons,
            List.append_assoc]

/-- Symbols below one owner, a package root or any other symbol: the text of one
is a beginning of the text of another exactly when its descriptors are the first
of the other's, so equal texts have equal descriptors, and a text that is a
proper beginning belongs to a symbol around the other. -/
theorem text_prefix_iff_of_path {owner outer inner : Symbol}
    {toOuter toInner : List Descriptor}
    (reachesOuter : owner.path toOuter = .ok outer)
    (reachesInner : owner.path toInner = .ok inner) :
    (outer.text.toList <+: inner.text.toList ↔ toOuter <+: toInner) ∧
      (outer.text.toList <+: inner.text.toList ∧ outer.text ≠ inner.text ↔
        toOuter <+: toInner ∧ toOuter ≠ toInner) ∧
      (outer.text = inner.text ↔ toOuter = toInner) := by
  have prefixes : outer.text.toList <+: inner.text.toList ↔ toOuter <+: toInner := by
    rw [path_text reachesOuter, path_text reachesInner, List.prefix_append_right_inj]
    exact Descriptor.spellings_prefix_iff
  have equals : outer.text = inner.text ↔ toOuter = toInner := by
    rw [← String.toList_inj, path_text reachesOuter, path_text reachesInner,
      List.append_cancel_left_eq]
    exact ⟨Descriptor.spellings_injective, congrArg Descriptor.spellings⟩
  exact ⟨prefixes, by rw [prefixes, ne_eq, equals], equals⟩

/-- A type whose name contains a grave accent and ends like a method encloses a
method with a disambiguator of the same kind. -/
theorem text_prefix_iff_of_quoted :
    let owner := Symbol.global (Ecosystem.python.packageRoot "pypi" "a b" "")
    let outer := Symbol.global ⟨"scip-python pypi a  b . \x60f\x60\x60().\x60#", 1⟩
    let inner := Symbol.global
      ⟨"scip-python pypi a  b . \x60f\x60\x60().\x60#f(\x60).\x60).", 2⟩
    owner.path [.plain "f\x60()." .type] = .ok outer ∧
      owner.path [.plain "f\x60()." .type, .method "f" ")."] = .ok inner ∧
      outer.text.toList <+: inner.text.toList ∧ outer.text ≠ inner.text := by
  intro owner outer inner
  have reachesOuter : owner.path [.plain "f\x60()." .type] = .ok outer := by rfl
  have reachesInner :
      owner.path [.plain "f\x60()." .type, .method "f" ")."] = .ok inner := by
    rfl
  exact ⟨reachesOuter, reachesInner,
    (text_prefix_iff_of_path reachesOuter reachesInner).2.1.mpr ⟨by simp, by simp⟩⟩

end Symbol

end SymbolIndex
