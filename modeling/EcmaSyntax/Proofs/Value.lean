import EcmaSyntax.Json.Basic
import Mathlib

namespace EcmaSyntax

section Number

open Float.Model

/-- Rounding leads to a number. -/
theorem roundWithAccuracy_ne_notANumber (format : Format) (sign : UnpackedFloat.Sign)
    (mantissa : Nat) (exponent : Int) (accuracy : UnpackedFloat.Accuracy) :
    UnpackedFloat.roundWithAccuracy format sign mantissa exponent accuracy ≠ .notANumber := by
  unfold UnpackedFloat.roundWithAccuracy
  simp only
  split <;> simp

/-- A whole number is a number in any format. -/
theorem ofInt_ne_notANumber (format : Format) (value : Int) :
    UnpackedFloat.ofInt format value ≠ .notANumber := by
  unfold UnpackedFloat.ofInt UnpackedFloat.normalize UnpackedFloat.round
  split
  · exact roundWithAccuracy_ne_notANumber _ _ _ _ _
  · simp
  · exact roundWithAccuracy_ne_notANumber _ _ _ _ _

/-- A number times a number that is neither zero nor infinite is a number. -/
theorem mul_ne_notANumber {format : Format} {number : UnpackedFloat}
    (known : number ≠ .notANumber) {sign : UnpackedFloat.Sign} {mantissa : Nat} {exponent : Int}
    {positive : 0 < mantissa} :
    UnpackedFloat.mul format number (.finite sign mantissa exponent positive) ≠ .notANumber := by
  cases number with
  | notANumber => exact absurd rfl known
  | infinity sign => simp [UnpackedFloat.mul]
  | zero sign => simp [UnpackedFloat.mul]
  | finite => exact roundWithAccuracy_ne_notANumber _ _ _ _ _

/-- Only what is no number is stored as such. -/
theorem eq_notANumber_of_pack {number : UnpackedFloat}
    (same : UnpackedFloat.pack .binary64 number = UnpackedFloat.packedNaN .binary64) :
    number = .notANumber := by
  have exponent : UnpackedFloat.unpackExponent (UnpackedFloat.packedNaN .binary64) = -1#11 := by
    simp [UnpackedFloat.packedNaN]
  have mantissa : UnpackedFloat.unpackMantissa (UnpackedFloat.packedNaN .binary64) ≠ 0#52 := by
    simp [UnpackedFloat.packedNaN]
  rw [← same] at exponent mantissa
  cases number with
  | notANumber => rfl
  | infinity sign => simp [UnpackedFloat.pack, UnpackedFloat.packedInfinity] at mantissa
  | zero sign => simp [UnpackedFloat.pack, UnpackedFloat.packedZero] at mantissa
  | finite =>
      unfold UnpackedFloat.pack at exponent mantissa
      simp only at exponent mantissa
      split at exponent
      · next infinite =>
          rw [if_pos infinite] at mantissa
          simp [UnpackedFloat.packedInfinity] at mantissa
      · next bounded =>
          split at exponent
          · rw [UnpackedFloat.unpackExponent_packComponents] at exponent
            have same := congrArg BitVec.toNat exponent
            simp only [BitVec.toNat_ofNat, BitVec.toNat_neg] at same
            omega
          · rw [UnpackedFloat.unpackExponent_packComponents] at exponent
            simp at exponent

/-- A number stays one when it is packed. -/
theorem unpack_pack_ne_notANumber {number : UnpackedFloat} (known : number ≠ .notANumber) :
    (pack number).unpack ≠ .notANumber := fun unknown =>
  known (eq_notANumber_of_pack
    ((UnpackedFloat.unpack_eq_notANumber_iff_of_valid UnpackedFloat.valid_pack).mp unknown))

/-- A natural number is a number in binary floating point. -/
theorem ofNat_unpack_ne_notANumber (value : Nat) :
    (Float.ofNat value).toModel.unpack ≠ .notANumber := by
  change (Float.ofScientific value false 0).toModel.unpack ≠ _
  unfold Float.ofScientific
  split
  · -- a small number is converted and multiplied by one
    have one : (Float.exactlyRepresentablePowersOfTen[0]).toModel.unpack =
        .finite .positive (2 ^ 52) (-52) (by decide) := by
      rfl
    change (pack (UnpackedFloat.mul .binary64 (pack (UnpackedFloat.ofUInt64 .binary64
      value.toUInt64)).unpack (Float.exactlyRepresentablePowersOfTen[0]).toModel.unpack)).unpack ≠ _
    rw [one]
    exact unpack_pack_ne_notANumber
      (mul_ne_notANumber (unpack_pack_ne_notANumber (ofInt_ne_notANumber _ _)))
  · refine unpack_pack_ne_notANumber ?_
    unfold UnpackedFloat.ofScientific
    split
    · simp
    · have small : ¬(Int.ofNat 0 > 2 ^ Format.binary64.exponentBits) := by simp
      have large : ¬(Int.ofNat 0 < -(2 ^ Format.binary64.exponentBits + ↑value.log2)) := by
        simp only [Int.ofNat_eq_natCast, Int.not_lt]
        omega
      have positive : 0 ≤ Int.ofNat 0 := Int.le_refl 0
      simp only [Bool.false_eq_true, if_false, if_neg small, if_neg large, if_pos positive]
      exact mul_ne_notANumber (by simp)

/-- A whole number is a number in binary floating point. -/
theorem ofInt_ne_nan (value : Int) : Float.ofInt value ≠ Float.nan := by
  have number : (Float.ofInt value).toModel.unpack ≠ .notANumber := by
    cases value with
    | ofNat value => exact ofNat_unpack_ne_notANumber value
    | negSucc value =>
        change (pack (Float.ofNat value.succ).toModel.unpack.neg).unpack ≠ _
        have positive := ofNat_unpack_ne_notANumber value.succ
        generalize (Float.ofNat value.succ).toModel.unpack = number at positive ⊢
        refine unpack_pack_ne_notANumber ?_
        cases number with
        | notANumber => exact absurd rfl positive
        | infinity | zero | finite => simp [UnpackedFloat.neg]
  intro nan
  have known : (Float.ofInt value).isNaN = true := by
    simp [Float.isNaN_eq_decide_eq_nan, nan]
  exact number (UnpackedFloat.isNaN_iff.mp known)

/-- Equality in binary floating point is symmetric. -/
theorem beq_float_symm {first second : Float} (same : first == second) : second == first := by
  rw [Float.beq_iff_ne_nan_and_eq] at same ⊢
  obtain ⟨known, other, equal | zeros | zeros⟩ := same
  · exact ⟨other, known, .inl equal.symm⟩
  · exact ⟨other, known, .inr (.inr zeros.symm)⟩
  · exact ⟨other, known, .inr (.inl zeros.symm)⟩

/-- Equality in binary floating point is transitive. -/
theorem beq_float_trans {first second third : Float} (begins : first == second)
    (ends : second == third) : first == third := by
  rw [Float.beq_iff_ne_nan_and_eq] at begins ends ⊢
  obtain ⟨known, -, begins⟩ := begins
  obtain ⟨-, other, ends⟩ := ends
  refine ⟨known, other, ?_⟩
  rcases begins with rfl | ⟨rfl, rfl⟩ | ⟨rfl, rfl⟩
  · exact ends
  · rcases ends with rfl | ⟨-, rfl⟩ | ⟨-, rfl⟩
    · exact .inr (.inl ⟨rfl, rfl⟩)
    · exact .inr (.inl ⟨rfl, rfl⟩)
    · exact .inl rfl
  · rcases ends with rfl | ⟨-, rfl⟩ | ⟨-, rfl⟩
    · exact .inr (.inr ⟨rfl, rfl⟩)
    · exact .inl rfl
    · exact .inr (.inr ⟨rfl, rfl⟩)

end Number

namespace Json

variable {name other : String} {value held : Json} {first second members : List (String × Json)}
  {items : List Json} {good : Json → Prop}

section Parts

/-- The values that a value consists of. -/
def parts : Json → List Json
  | .array items => items
  | .object members => members.map Prod.snd
  | _ => []

theorem sizeOf_lt_of_mem_parts {part : Json} (inside : part ∈ value.parts) :
    sizeOf part < sizeOf value := by
  cases value with
  | array items =>
      have smaller := List.sizeOf_lt_of_mem (show part ∈ items from inside)
      simp only [array.sizeOf_spec]
      omega
  | object members =>
      obtain ⟨⟨name, part⟩, member, rfl⟩ := List.mem_map.mp inside
      have smaller := List.sizeOf_lt_of_mem member
      simp only [object.sizeOf_spec, Prod.mk.sizeOf_spec] at smaller ⊢
      omega
  | null | bool | whole | float | string => cases inside

/-- What holds of a value if it holds of its parts holds of every value. -/
theorem induct_parts {motive : Json → Prop}
    (each : ∀ value, (∀ part ∈ value.parts, motive part) → motive value) (value : Json) :
    motive value :=
  each value fun part _ => induct_parts each part
termination_by sizeOf value
decreasing_by exact sizeOf_lt_of_mem_parts ‹_›

/-- A value and all values in it are good. -/
inductive Everywhere (good : Json → Prop) : Json → Prop
  | all {value : Json} (here : good value) (below : ∀ part ∈ value.parts, Everywhere good part) :
      Everywhere good value

/-- What holds everywhere in a value holds of the value. -/
theorem Everywhere.here (everywhere : value.Everywhere good) : good value := by
  cases everywhere with
  | all here below => exact here

/-- What holds everywhere in a value holds everywhere in its parts. -/
theorem Everywhere.part (everywhere : value.Everywhere good) {part : Json}
    (inside : part ∈ value.parts) : part.Everywhere good := by
  cases everywhere with
  | all here below => exact below part inside

end Parts

section Members

/-- A member stands last under its name if the members after it have other names. -/
theorem lastUnder_append : lastUnder name (first ++ second) =
    (lastUnder name second).or (lastUnder name first) := by
  rw [lastUnder, List.reverse_append, List.find?_append, Option.map_or]
  rfl

/-- No member is found under a name that none has. -/
theorem lastUnder_eq_none (other : ∀ member ∈ members, member.1 ≠ name) :
    lastUnder name members = none := by
  rw [lastUnder, Option.map_eq_none_iff, List.find?_eq_none]
  intro member inside
  simpa using other member (List.mem_reverse.mp inside)

/-- The last member under a name is found behind the first one, if it is there. -/
theorem lastUnder_cons : lastUnder name ((other, value) :: members) =
    (lastUnder name members).or (if other = name then some value else none) := by
  rw [← List.singleton_append, lastUnder_append]
  congr 1
  by_cases same : other = name <;> simp [lastUnder, same]

/-- The member that is found is one of the object. -/
theorem mem_of_lastUnder (found : lastUnder name members = some held) :
    (name, held) ∈ members := by
  obtain ⟨⟨other, _⟩, known, rfl⟩ := Option.map_eq_some_iff.mp found
  have same : other = name := by simpa using List.find?_some known
  exact same ▸ List.mem_reverse.mp (List.mem_of_find?_eq_some known)

/-- The names of members ascend. -/
def Ascending (members : List (String × Json)) : Prop :=
  members.Pairwise fun earlier later => earlier.1 < later.1

/-- If names ascend, each member is the only one under its name. -/
theorem Ascending.lastUnder (ascending : Ascending members) (inside : (name, value) ∈ members) :
    lastUnder name members = some value := by
  induction members with
  | nil => cases inside
  | cons newest rest inductionHypothesis =>
      obtain ⟨below, ascending⟩ := List.pairwise_cons.mp ascending
      rw [lastUnder_cons]
      rcases List.mem_cons.mp inside with rfl | later
      · rw [lastUnder_eq_none fun member inside => (below member inside).ne']
        simp
      · rw [inductionHypothesis ascending later]
        rfl

/-- A member that is inserted is found under its name, and the others are found as before. -/
theorem lastUnder_insertMember (absent : lastUnder name members = none) :
    lastUnder other (insertMember name value members) =
      if other = name then some value else lastUnder other members := by
  induction members with
  | nil =>
      rw [insertMember, lastUnder_cons]
      by_cases same : name = other
      · simp [same, lastUnder]
      · simp [same, Ne.symm same, lastUnder]
  | cons newest rest inductionHypothesis =>
      obtain ⟨known, held⟩ := newest
      rw [lastUnder_cons, Option.or_eq_none_iff] at absent
      have apart : known ≠ name := fun same => by simp [same] at absent
      rw [insertMember]
      split
      · rw [lastUnder_cons]
        by_cases same : name = other
        · subst same
          simp [lastUnder_cons, absent.1, apart]
        · simp [same, Ne.symm same]
      · rw [if_neg (Ne.symm apart), lastUnder_cons, inductionHypothesis absent.1, lastUnder_cons]
        by_cases same : other = name
        · simp [same]
        · simp [same]

/-- A member enters where the names before it are smaller and those after it are greater. -/
theorem insertMember_append (before : ∀ member ∈ first, member.1 < name)
    (behind : ∀ member ∈ second, name < member.1) :
    insertMember name value (first ++ second) = first ++ (name, value) :: second := by
  induction first with
  | nil =>
      cases second with
      | nil => rfl
      | cons newest rest => exact if_pos (behind newest List.mem_cons_self)
  | cons newest rest inductionHypothesis =>
      have ⟨smaller, others⟩ := List.forall_mem_cons.mp before
      rw [List.cons_append, insertMember, if_neg smaller.asymm, if_neg smaller.ne',
        inductionHypothesis others]
      rfl

/-- The members after an insertion are the new one and the others. -/
theorem mem_insertMember {member : String × Json}
    (inside : member ∈ insertMember name value members) :
    member = (name, value) ∨ member ∈ members := by
  induction members with
  | nil => exact .inl (List.mem_singleton.mp inside)
  | cons newest rest inductionHypothesis =>
      rw [insertMember] at inside
      split at inside
      · exact List.mem_cons.mp inside
      · split at inside
        · exact .inr inside
        · rcases List.mem_cons.mp inside with rfl | later
          · exact .inr List.mem_cons_self
          · exact (inductionHypothesis later).imp_right (List.mem_cons_of_mem _)

/-- Members stay in order when one is inserted. -/
theorem Ascending.insertMember (ascending : Ascending members) :
    Ascending (insertMember name value members) := by
  induction members with
  | nil => exact List.pairwise_singleton _ _
  | cons newest rest inductionHypothesis =>
      obtain ⟨below, rising⟩ := List.pairwise_cons.mp ascending
      rw [Json.insertMember]
      split
      · next smaller =>
          refine List.pairwise_cons.mpr ⟨fun member inside => ?_, ascending⟩
          rcases List.mem_cons.mp inside with rfl | later
          · exact smaller
          · exact smaller.trans (below member later)
      · next further =>
          split
          · exact ascending
          · next apart =>
              refine List.pairwise_cons.mpr ⟨fun member inside => ?_, inductionHypothesis rising⟩
              rcases mem_insertMember inside with rfl | later
              · exact lt_of_le_of_ne (not_lt.mp further) (Ne.symm apart)
              · exact below member later

end Members

section Sorted

/-- The names of the members of each object in a value ascend. -/
def Ordered : Json → Prop := Everywhere fun value =>
  ∀ members, value = .object members → Ascending members

theorem sortedItems_eq : sortedItems items = items.map sorted := by
  induction items with
  | nil => rfl
  | cons item rest inductionHypothesis => rw [sortedItems, inductionHypothesis, List.map_cons]

/-- Members that have been sorted ascend. -/
theorem sortedMembers_ascending : Ascending (sortedMembers members) := by
  induction members with
  | nil => exact .nil
  | cons newest rest inductionHypothesis => exact inductionHypothesis.insertMember

/-- Members that have been sorted are those from before, sorted in themselves. -/
theorem mem_sortedMembers {member : String × Json} (inside : member ∈ sortedMembers members) :
    ∃ value, (member.1, value) ∈ members ∧ member.2 = value.sorted := by
  induction members with
  | nil => cases inside
  | cons newest rest inductionHypothesis =>
      rcases mem_insertMember inside with rfl | later
      · exact ⟨newest.2, List.mem_cons_self, rfl⟩
      · obtain ⟨value, known, same⟩ := inductionHypothesis later
        exact ⟨value, List.mem_cons_of_mem _ known, same⟩

/-- The parts of a value that has been sorted are parts of the value that have been sorted. -/
theorem exists_part_of_mem_sorted {part : Json} (inside : part ∈ value.sorted.parts) :
    ∃ other ∈ value.parts, part = other.sorted := by
  cases value with
  | array items =>
      rw [sorted, sortedItems_eq] at inside
      obtain ⟨other, member, rfl⟩ := List.mem_map.mp inside
      exact ⟨other, member, rfl⟩
  | object members =>
      obtain ⟨member, known, rfl⟩ := List.mem_map.mp inside
      obtain ⟨other, known, same⟩ := mem_sortedMembers known
      exact ⟨other, List.mem_map.mpr ⟨_, known, rfl⟩, same⟩
  | null | bool | whole | float | string => cases inside

/-- A value that has been sorted is ordered. -/
theorem sorted_ordered (value : Json) : value.sorted.Ordered := by
  induction value using induct_parts with
  | each value inductionHypothesis =>
      refine .all (fun members same => ?_) fun part inside => ?_
      · cases value with
        | object =>
            cases same
            exact sortedMembers_ascending
        | null | bool | whole | float | string | array => cases same
      · obtain ⟨other, known, rfl⟩ := exists_part_of_mem_sorted inside
        exact inductionHypothesis other known

/-- Members that ascend stay as they are when they are sorted. -/
theorem sortedMembers_eq_self (ascending : Ascending members)
    (same : ∀ member ∈ members, member.2.sorted = member.2) : sortedMembers members = members := by
  induction members with
  | nil => rfl
  | cons newest rest inductionHypothesis =>
      obtain ⟨below, rising⟩ := List.pairwise_cons.mp ascending
      have ⟨own, others⟩ := List.forall_mem_cons.mp same
      rw [sortedMembers, inductionHypothesis rising others, own]
      exact insertMember_append (List.forall_mem_nil _) below

/-- A value is not changed by sorting if its members are in order. -/
theorem Ordered.sorted_eq (ordered : value.Ordered) : value.sorted = value := by
  induction ordered with
  | @all value ascending below inductionHypothesis =>
      cases value with
      | array items =>
          rw [sorted, sortedItems_eq]
          exact congrArg Json.array
            ((List.map_congr_left inductionHypothesis).trans (List.map_id _))
      | object members =>
          rw [sorted, sortedMembers_eq_self (ascending members rfl) fun member inside =>
            inductionHypothesis member.2 (List.mem_map_of_mem inside)]
      | null | bool | whole | float | string => rfl

end Sorted

section Numeric

/-- No floating-point number in a value is an error value, as the data format has none. -/
def Numeric : Json → Prop := Everywhere (· ≠ .float Float.nan)

/-- Numbers stay numbers when a value is sorted. -/
theorem Numeric.sorted (numeric : value.Numeric) : value.sorted.Numeric := by
  induction numeric with
  | @all value here below inductionHypothesis =>
      refine .all (fun same => here ?_) fun part inside => ?_
      · cases value with
        | float => exact same
        | null | bool | whole | string | array | object => cases same
      · obtain ⟨other, known, rfl⟩ := exists_part_of_mem_sorted inside
        exact inductionHypothesis other known

end Numeric

end Json

end EcmaSyntax
