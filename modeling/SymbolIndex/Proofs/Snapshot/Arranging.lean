import SymbolIndex.Proofs.Snapshot.Layout

/-!
# Snapshots and the order of a document

What decides between callouts tells all there is to a callout, so callouts that
the order does not tell apart are equal, and sorting leaves nothing of the order
in which the occurrences of a document come.  Of its records only the last one of
a symbol is looked up.
-/

namespace SymbolIndex

/-- Whether two documents of a language have the same occurrences and records, in
any order but that the records of one symbol come in the same order. -/
structure Rearranged (first second : Document) : Prop where
  language : second.language = first.language
  occurrences : second.occurrences.Perm first.occurrences
  symbols : ∀ symbol : String,
    second.symbols.filter (·.symbol = symbol) = first.symbols.filter (·.symbol = symbol)

namespace Snapshot

namespace Callout

theorem le_antisymm {a b : Callout} (ab : a.le b) (ba : b.le a) : a = b := by
  rw [le_iff_key] at ab ba
  exact key_injective (ab.antisymm ba)

end Callout

section Rearranged

variable {first second : Document}

theorem callouts_of_perm (perm : second.occurrences.Perm first.occurrences)
    (lines : List String) : callouts second lines = callouts first lines := by
  refine List.Perm.eq_of_pairwise (fun a b _ _ => Callout.le_antisymm)
    (pairwise_callouts second lines) (pairwise_callouts first lines) ?_
  have sameShown := (perm.filter (·.IsPlaced)).map (·.callout lines)
  exact (callouts_perm second lines).trans (sameShown.trans (callouts_perm first lines).symm)

theorem information?_eq_getLast? (document : Document) (symbol : String) :
    information? document symbol =
      (document.symbols.filter (·.symbol = symbol)).getLast? := by
  rw [information?, ← List.head?_filter, List.filter_reverse, List.head?_reverse]

theorem block_of_rearranged (rearranged : Rearranged first second) (callout : Callout) :
    block second callout = block first callout := by
  simp only [block, information?_eq_getLast?, rearranged.language, rearranged.symbols]

/-- A snapshot does not depend on the order in which a document has its
occurrences, nor on that of its records as long as the records of one symbol keep
their order. -/
theorem render_of_rearranged (rearranged : Rearranged first second) (source : String) :
    render source second = render source first := by
  have sameBlocks : blocks second = blocks first := by
    funext group
    exact congrArg String.join
      (List.map_congr_left fun callout _ => block_of_rearranged rearranged callout)
  rw [render_eq, render_eq, sameBlocks, callouts_of_perm rearranged.occurrences]

end Rearranged

/-- A document with two occurrences that start in one place, one that goes on
past its line and one past the end, and with two records of one symbol. -/
def crowdedDocument : Document where
  language := "python"
  occurrences := [⟨[0, 0, 2], "s#", 1⟩, ⟨[0, 0, 1], "s#", 1⟩, ⟨[0, 0, 1, 0], "t#", 8⟩,
    ⟨[7, 0, 0], "s#", 0⟩]
  symbols := [⟨"s#", ["before"], "s"⟩, ⟨"t#", ["other"], "t"⟩, ⟨"s#", ["after"], "s"⟩]

theorem render_of_rearranged_crowded :
    let other : Document :=
      { crowdedDocument with
        occurrences := crowdedDocument.occurrences.reverse
        symbols := [⟨"s#", ["before"], "s"⟩, ⟨"s#", ["after"], "s"⟩, ⟨"t#", ["other"], "t"⟩] }
    Rearranged crowdedDocument other ∧
      render "ab\n" other = render "ab\n" crowdedDocument := by
  intro other
  have rearranged : Rearranged crowdedDocument other := by
    refine ⟨rfl, List.reverse_perm _, fun symbol => ?_⟩
    by_cases isFirst : "s#" = symbol
    · subst isFirst
      rfl
    · by_cases isOther : "t#" = symbol
      · subst isOther
        rfl
      · simp [other, crowdedDocument, isFirst, isOther]
  exact ⟨rearranged, render_of_rearranged rearranged "ab\n"⟩

end Snapshot

end SymbolIndex
