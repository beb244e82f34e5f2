import SymbolIndex.Index.Wire
import SymbolIndex.Text.Lossy
import Mathlib.Algebra.GroupWithZero.Nat
import Mathlib.Data.List.Basic

/-!
# Reading back what was written

Everything that is written in the wire format says where it ends, so each reader
takes just what the writer has put there and leaves what comes after it.  Bytes
that hold fields can be put one after the other, and a message is read back when
each piece of its written form turns the message read so far into the next one.
-/

namespace SymbolIndex

namespace Wire

section Numbers

variable {n : Nat} {rest : Bytes}

theorem length_varint_pos (n : Nat) : 0 < (varint n).length := by
  unfold varint
  split <;> simp

/-- A number is read back from its groups if there may be enough of them. -/
theorem varintWithin_varint {most : Nat} (fits : n < 128 ^ (most + 1)) (rest : Bytes) :
    varintWithin (most + 1) (varint n ++ rest) = some (n, rest) := by
  induction most generalizing n with
  | zero =>
      have small : n < 128 := by simpa using fits
      have value : (UInt8.ofNat n).toNat = n := by
        simp only [UInt8.toNat_ofNat']
        omega
      simp [varint, varintWithin, value, small]
  | succ most ih =>
      unfold varint
      split
      case isTrue small =>
        have value : (UInt8.ofNat n).toNat = n := by
          simp only [UInt8.toNat_ofNat']
          omega
        simp [varintWithin, value, small]
      case isFalse large =>
        have value : (UInt8.ofNat (n % 128 + 128)).toNat = n % 128 + 128 := by
          simp only [UInt8.toNat_ofNat']
          omega
        have highFits : n / 128 < 128 ^ (most + 1) := by
          rw [Nat.div_lt_iff_lt_mul (by omega)]
          rwa [← Nat.pow_succ]
        have more : ¬ n % 128 + 128 < 128 := by omega
        rw [List.cons_append, varintWithin, value, if_neg more, ih highFits]
        simp only [Option.some.injEq, Prod.mk.injEq, and_true]
        omega

theorem varint64?_varint (fits : n < UInt64.size) (rest : Bytes) :
    varint64? (varint n ++ rest) = some (n, rest) := by
  have groups : n < 128 ^ (9 + 1) := by
    simp only [UInt64.size] at fits
    omega
  simp [varint64?, varintWithin_varint groups, fits]

theorem varint32?_varint (fits : n < UInt32.size) (rest : Bytes) :
    varint32? (varint n ++ rest) = some (UInt32.ofNat n, rest) := by
  have fits64 : n < UInt64.size := by
    simp only [UInt32.size] at fits
    simp only [UInt64.size]
    omega
  simp [varint32?, varint64?_varint fits64, narrow?, fits]

theorem signExtend_lt (n : Int32) : signExtend n < UInt64.size := by
  simp only [signExtend, UInt64.size]
  omega

/-- A signed number is read back from its 64 bits, those of a negative one as
well. -/
@[simp]
theorem int32?_signExtend (n : Int32) : int32? (signExtend n) = some n := by
  have low : -2147483648 ≤ n.toInt := n.le_toInt
  have high : n.toInt < 2147483648 := n.toInt_lt
  have kept : signExtend n < UInt32.size ∨ UInt64.size - UInt32.size / 2 ≤ signExtend n := by
    simp only [signExtend, UInt32.size, UInt64.size]
    omega
  have value : (UInt32.ofNat (signExtend n)).toInt32 = n := by
    apply Int32.toInt_inj.mp
    rw [UInt32.toInt32_ofNat', Int32.toInt_ofNat']
    simp only [signExtend, UInt64.size, Int.bmod, Int32.size]
    omega
  have narrowed : narrow? (signExtend n) = some (UInt32.ofNat (signExtend n)) :=
    if_pos (by simpa only [Bool.or_eq_true, decide_eq_true_eq] using kept)
  rw [int32?, narrowed, Option.map_some, value]

end Numbers

section Contents

@[simp]
theorem text?_textBytes (text : String) : text? (textBytes text) = some text := by
  have same : text.toUTF8.data.toList.toByteArray = text.toUTF8 := by
    ext1
    exact List.data_toByteArray ..
  rw [text?, textBytes, same]
  exact Text.decode?_toUTF8 text

theorem take?_append (content rest : Bytes) :
    take? content.length (content ++ rest) = some (content, rest) := by
  simp [take?]

theorem packedWithin_flatMap (numbers : List Int32) {fuel : Nat}
    (enough : (numbers.flatMap fun n => varint (signExtend n)).length ≤ fuel) :
    packedWithin fuel (numbers.flatMap fun n => varint (signExtend n)) = some numbers := by
  induction numbers generalizing fuel with
  | nil => simp [packedWithin]
  | cons n numbers ih =>
      rw [List.flatMap_cons, List.length_append] at enough
      have written := length_varint_pos (signExtend n)
      obtain ⟨fuel, rfl⟩ : ∃ less, fuel = less + 1 := ⟨fuel - 1, by omega⟩
      rw [List.flatMap_cons]
      have read := varint64?_varint (signExtend_lt n)
        (numbers.flatMap fun n => varint (signExtend n))
      cases shape : varint (signExtend n) ++ numbers.flatMap fun n => varint (signExtend n) with
      | nil => simp_all
      | cons first others =>
          rw [shape] at read
          simp [packedWithin, read, int32?_signExtend, ih (by omega : _ ≤ fuel)]

@[simp]
theorem packed?_flatMap (numbers : List Int32) :
    packed? (numbers.flatMap fun n => varint (signExtend n)) = some numbers :=
  packedWithin_flatMap numbers (Nat.le_refl _)

end Contents

section Fields

variable {number shape : Nat} {bytes content : Bytes} {fields : List Field}

theorem tag?_tag (known : 0 < number ∧ number < 2 ^ 28) (shapeFits : shape < 8)
    (rest : Bytes) : tag? (tag number shape ++ rest) = some (number, shape, rest) := by
  have fits : number * 8 + shape < UInt32.size := by
    simp only [UInt32.size]
    omega
  have value : (UInt32.ofNat (number * 8 + shape)).toNat = number * 8 + shape :=
    UInt32.toNat_ofNat_of_lt' fits
  have numberPart : (number * 8 + shape) / 8 = number := by omega
  have shapePart : (number * 8 + shape) % 8 = shape := by omega
  simp only [tag, tag?, varint32?_varint fits, value, numberPart, shapePart,
    if_neg (Nat.ne_of_gt known.1)]

/-- Fields read in some steps are read in more as well. -/
theorem fieldsWithin_of_le {fuel more : Nat} (read : fieldsWithin fuel bytes = some fields)
    (enough : fuel ≤ more) : fieldsWithin more bytes = some fields := by
  induction fuel generalizing more bytes fields with
  | zero =>
      cases bytes with
      | nil => cases more <;> simpa [fieldsWithin] using read
      | cons first rest => simp [fieldsWithin] at read
  | succ fuel ih =>
      obtain ⟨more, rfl⟩ : ∃ less, more = less + 1 := ⟨more - 1, by omega⟩
      cases bytes with
      | nil => simpa [fieldsWithin] using read
      | cons first rest =>
          simp only [fieldsWithin] at read ⊢
          split at read
          · exact absurd read (by simp)
          · split at read
            · exact absurd read (by simp)
            · obtain ⟨others, readOthers, rfl⟩ := Option.map_eq_some_iff.mp read
              simp [ih readOthers (Nat.le_of_succ_le_succ enough)]

/-- Some bytes hold fields: a reader finds the fields there, whatever comes
after. -/
def Holds (bytes : Bytes) (fields : List Field) : Prop :=
  ∀ (fuel : Nat) (rest : Bytes) (others : List Field), fieldsWithin fuel rest = some others →
    fieldsWithin (fuel + bytes.length) (bytes ++ rest) = some (fields ++ others)

theorem Holds.nil : Holds [] [] :=
  fun _ _ _ read => read

theorem Holds.append {first second : Bytes} {firstFields secondFields : List Field}
    (holdsFirst : Holds first firstFields) (holdsSecond : Holds second secondFields) :
    Holds (first ++ second) (firstFields ++ secondFields) := by
  intro fuel rest others read
  have both := holdsFirst _ _ _ (holdsSecond _ _ _ read)
  rw [List.length_append, List.append_assoc, List.append_assoc, Nat.add_comm first.length,
    ← Nat.add_assoc]
  exact both

theorem Holds.field {payload : Payload} (known : 0 < number ∧ number < 2 ^ 28)
    (plain : shape = 0 ∨ shape = 2)
    (reads : ∀ rest, payload? shape (content ++ rest) = some (payload, rest)) :
    Holds (tag number shape ++ content) [⟨number, payload⟩] := by
  intro fuel rest others read
  have notGroup : shape ≠ 3 := by omega
  have tagged := tag?_tag known (by omega : shape < 8) (content ++ rest)
  have written : 0 < (tag number shape).length := length_varint_pos _
  obtain ⟨spare, size⟩ : ∃ spare,
      fuel + (tag number shape ++ content).length = fuel + spare + 1 :=
    ⟨(tag number shape ++ content).length - 1, by rw [List.length_append]; omega⟩
  rw [size, List.append_assoc]
  have onwards := fieldsWithin_of_le read (Nat.le_add_right fuel spare)
  cases start : tag number shape ++ (content ++ rest) with
  | nil => simp_all
  | cons byte following =>
      rw [start] at tagged
      simp [fieldsWithin, tagged, notGroup, reads, onwards]

theorem fields?_of_holds (holds : Holds bytes fields) : fields? bytes = some fields := by
  have whole := holds 0 [] [] (by simp [fieldsWithin])
  simpa [fields?] using whole

end Fields

section Messages

variable {α β : Type} {read : α → Field → Option α} {number : Nat} {content bytes : Bytes}
  {before after : α}

/-- Some bytes turn one message into another when their fields are read, unless
they are more than lengths can count. -/
def Turns (read : α → Field → Option α) (bytes : Bytes) (before after : α) : Prop :=
  bytes.length < UInt32.size →
    ∃ fields, Holds bytes fields ∧ fields.foldlM read before = some after

theorem Turns.nil : Turns read [] before before :=
  fun _ => ⟨[], .nil, rfl⟩

theorem Turns.append {first second : Bytes} {middle : α} (firstTurns : Turns read first before middle)
    (secondTurns : Turns read second middle after) :
    Turns read (first ++ second) before after := by
  intro size
  rw [List.length_append] at size
  obtain ⟨firstFields, holdsFirst, readFirst⟩ := firstTurns (by omega)
  obtain ⟨secondFields, holdsSecond, readSecond⟩ := secondTurns (by omega)
  refine ⟨firstFields ++ secondFields, holdsFirst.append holdsSecond, ?_⟩
  rw [List.foldlM_append, readFirst]
  exact readSecond

/-- Items written one after the other turn a message that holds some of them
into the one that holds them all. -/
theorem Turns.flatMap (write : β → Bytes) (holding : List β → α) {items : List β}
    (turns : ∀ item ∈ items, ∀ done,
      Turns read (write item) (holding done) (holding (done ++ [item]))) (done : List β) :
    Turns read (items.flatMap write) (holding done) (holding (done ++ items)) := by
  induction items generalizing done with
  | nil =>
      rw [List.append_nil]
      exact .nil
  | cons item items ih =>
      have others := ih (fun other member => turns other (by simp [member])) (done ++ [item])
      rw [List.append_assoc, List.singleton_append] at others
      rw [List.flatMap_cons]
      exact (turns item (by simp) done).append others

/-- A field with a content of its own turns a message into what is read of the
content.  The content is short enough if the field is. -/
theorem Turns.bytesField (known : 0 < number ∧ number < 2 ^ 28)
    (reads : content.length < UInt32.size → read before ⟨number, .bytes content⟩ = some after) :
    Turns read (bytesField number content) before after := by
  intro size
  have fits : content.length < UInt32.size := by
    simp only [Wire.bytesField, List.length_append] at size
    omega
  refine ⟨[⟨number, .bytes content⟩], ?_, by simp [reads fits]⟩
  have length : (UInt32.ofNat content.length).toNat = content.length :=
    UInt32.toNat_ofNat_of_lt' fits
  rw [Wire.bytesField, List.append_assoc]
  refine .field known (.inr rfl) fun rest => ?_
  rw [List.append_assoc]
  simp [payload?, varint32?_varint fits, length, take?_append]

theorem Turns.textField {text : String} (known : 0 < number ∧ number < 2 ^ 28)
    (absent : text = "" → before = after)
    (reads : read before ⟨number, .bytes (textBytes text)⟩ = some after) :
    Turns read (textField number text) before after := by
  unfold Wire.textField
  split
  case isTrue empty =>
    obtain rfl := absent empty
    exact .nil
  case isFalse => exact .bytesField known fun _ => reads

theorem Turns.packedField {numbers : List Int32} (known : 0 < number ∧ number < 2 ^ 28)
    (absent : numbers = [] → before = after)
    (reads : read before
      ⟨number, .bytes (numbers.flatMap fun n => varint (signExtend n))⟩ = some after) :
    Turns read (packedField number numbers) before after := by
  unfold Wire.packedField
  split
  case isTrue empty =>
    obtain rfl := absent (List.isEmpty_iff.mp empty)
    exact .nil
  case isFalse => exact .bytesField known fun _ => reads

theorem Turns.int32Field {value : Int32} (known : 0 < number ∧ number < 2 ^ 28)
    (absent : value = 0 → before = after)
    (reads : read before ⟨number, .varint (signExtend value)⟩ = some after) :
    Turns read (int32Field number value) before after := by
  unfold Wire.int32Field
  split
  case isTrue zero =>
    obtain rfl := absent zero
    exact .nil
  case isFalse =>
    refine fun _ => ⟨[⟨number, .varint (signExtend value)⟩], ?_, by simp [reads]⟩
    refine .field known (.inl rfl) fun rest => ?_
    simp [payload?, varint64?_varint (signExtend_lt value)]

/-- What turns the message without fields into another one is the other one's
written form. -/
theorem Turns.message? (turns : Turns read bytes before after)
    (size : bytes.length < UInt32.size) : message? before read bytes = some after := by
  obtain ⟨fields, holds, folded⟩ := turns size
  rw [Wire.message?, fields?_of_holds holds]
  exact folded

end Messages

end Wire

end SymbolIndex
