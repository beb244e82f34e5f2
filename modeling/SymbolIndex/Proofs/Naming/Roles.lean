import SymbolIndex.Snapshot.Callout

/-!
# Roles as bits

The roles of a place are a list in the analysis and bits in the document and in its
rendering.  Each role has a bit of its own, so both tell the same.
-/

namespace SymbolIndex

namespace Role

/-- Which bit of an occurrence stands for a role, where the lowest one is bit 0. -/
def position : Role → Nat
  | definition => 0
  | importing => 1
  | write => 2
  | read => 3
  | generated => 4
  | test => 5
  | forwardDefinition => 6

theorem position_injective : Function.Injective position := by
  intro role other same
  cases role <;> cases other <;> first | rfl | cases same

theorem position_lt (role : Role) : role.position < 32 := by
  cases role <;> decide

theorem toBitVec_bit (role : Role) : role.bit.toBitVec = .twoPow 32 role.position := by
  cases role <;> rfl

/-- A bit is set exactly when the role that it stands for is in the list. -/
theorem getLsbD_bits (roles : List Role) (place : Nat) :
    (bits roles).toBitVec.getLsbD place = decide (∃ role ∈ roles, role.position = place) := by
  have before : ∀ bits : Int32,
      (roles.foldl (fun bits role => bits ||| role.bit) bits).toBitVec.getLsbD place =
        (bits.toBitVec.getLsbD place || decide (∃ role ∈ roles, role.position = place)) := by
    induction roles with
    | nil => simp
    | cons first roles ih =>
        intro bits
        rw [List.foldl_cons, ih, Int32.toBitVec_or, toBitVec_bit, BitVec.getLsbD_or,
          BitVec.getLsbD_twoPow]
        simp [first.position_lt, Bool.or_assoc]
  have none : (0 : Int32).toBitVec.getLsbD place = false := BitVec.getLsbD_zero
  rw [bits, before, none, Bool.false_or]

end Role

namespace Snapshot

/-- A role is found by its bit. -/
theorem hasRole_eq_getLsbD (roles : Int32) (role : Role) :
    hasRole roles role = roles.toBitVec.getLsbD role.position := by
  have masked : hasRole roles role =
      (roles.toBitVec &&& BitVec.twoPow 32 role.position != 0#32) := by
    rw [hasRole, ← role.toBitVec_bit, ← Int32.toBitVec_and, Bool.eq_iff_iff, bne_iff_ne,
      bne_iff_ne, ne_eq, ← Int32.toBitVec_inj]
    rfl
  rw [masked, BitVec.and_twoPow]
  cases roles.toBitVec.getLsbD role.position with
  | false => rfl
  | true => cases role <;> rfl

/-- A role is among the bits of a list of roles if it is in the list, however often and
wherever it is there. -/
theorem hasRole_bits (roles : List Role) (role : Role) :
    hasRole (Role.bits roles) role = decide (role ∈ roles) := by
  rw [hasRole_eq_getLsbD, Role.getLsbD_bits, decide_eq_decide]
  constructor
  · rintro ⟨other, member, same⟩
    rwa [← Role.position_injective same]
  · exact fun member => ⟨role, member, rfl⟩

/-- The words for the roles of a place are those of the roles in its list. -/
theorem roleText_bits (roles : List Role) : roleText (Role.bits roles) =
    String.intercalate " " ((if .definition ∈ roles then "definition" else "reference") ::
      (modifiers.filter fun (role, _) => role ∈ roles).map Prod.snd) := by
  simp only [roleText, hasRole_bits, decide_eq_true_eq]

end Snapshot

end SymbolIndex
