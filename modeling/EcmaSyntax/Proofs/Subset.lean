/-
This file says which values are as expected: the expected value can be made of such a value by
leaving out members and by a few other changes. A value that is not leads to a message which names a
place where the two differ.
-/

import EcmaSyntax.Conformance.Subset
import EcmaSyntax.Proofs.Value

namespace EcmaSyntax

namespace Json

open Relation (ReflTransGen)

variable {name path message : String} {expected actual first last value : Json}

/-- A change is made to a value, or to a value somewhere within it. -/
inductive Within (change : Json → Json → Prop) : Json → Json → Prop
  | here {first last : Json} (changes : change first last) : Within change first last
  | item {before after : List Json} {first last : Json} (within : Within change first last) :
      Within change (.array (before ++ first :: after)) (.array (before ++ last :: after))
  | member {before after : List (String × Json)} {name : String} {first last : Json}
      (within : Within change first last) :
      Within change (.object (before ++ (name, first) :: after))
        (.object (before ++ (name, last) :: after))

/-- An object gets a member that is null, under a name that it does not have. -/
inductive Adds : Json → Json → Prop
  | null {members : List (String × Json)} {name : String} (absent : lastUnder name members = none) :
      Adds (.object members) (.object (insertMember name .null members))

/-- An object loses a member. -/
inductive Drops : Json → Json → Prop
  | member {before after : List (String × Json)} {member : String × Json} :
      Drops (.object (before ++ member :: after)) (.object (before ++ after))

/-- A number becomes another one that is equal to it in binary floating point. -/
inductive Renumbers : Json → Json → Prop
  | number {first last : Json} {former latter : Float} (known : first.number? = some former)
      (other : last.number? = some latter) (same : former == latter) : Renumbers first last

/-- An object loses a member, or a number becomes another one that is equal to it. -/
def Cuts (first last : Json) : Prop := Drops first last ∨ Renumbers first last

/-- A value can be made of another one. First, members that are null are added under names which
that one does not have. This cannot come later: a name which is only absent as its member has been
left out stood for a value that need not be null. -/
def Makes (actual expected : Json) : Prop :=
  ∃ filled, ReflTransGen (Within Adds) actual filled ∧ ReflTransGen (Within Cuts) filled expected

/-- A value is as expected. A member that is missing is null. -/
inductive Fits : Json → Json → Prop
  | leaf {expected actual : Json} (same : sameLeaf expected actual = true) : Fits expected actual
  | array {expected actual : List Json} (each : List.Forall₂ Fits expected actual) :
      Fits (.array expected) (.array actual)
  | object {expected actual : List (String × Json)}
      (each : ∀ member ∈ expected, Fits member.2 (orNull (lastUnder member.1 actual))) :
      Fits (.object expected) (.object actual)

section Leaf

/-- Two values are compared as a whole: they are neither both lists nor both objects. -/
structure Whole (expected actual : Json) : Prop where
  arrays : ∀ items others, expected = .array items → actual ≠ .array others
  objects : ∀ members others, expected = .object members → actual ≠ .object others

/-- Values without parts are compared as a whole. -/
theorem Whole.mismatch?_eq (whole : Whole expected actual) :
    mismatch? expected actual path =
      if sameLeaf expected actual then none else some (differMessage expected actual path) := by
  cases expected <;> cases actual
  case array.array items others => exact absurd rfl (whole.arrays items others rfl)
  case object.object members others => exact absurd rfl (whole.objects members others rfl)
  all_goals simp only [mismatch?]

/-- Values without parts fit if they are the same. -/
theorem Whole.fits_iff (whole : Whole expected actual) :
    Fits expected actual ↔ sameLeaf expected actual = true := by
  refine ⟨fun fits => ?_, .leaf⟩
  cases fits with
  | leaf same => exact same
  | array => exact absurd rfl (whole.arrays _ _ rfl)
  | object => exact absurd rfl (whole.objects _ _ rfl)

/-- Two values are lists, or objects, or they are compared as a whole. -/
theorem kinds (expected actual : Json) :
    (∃ items others, expected = .array items ∧ actual = .array others) ∨
    (∃ members others, expected = .object members ∧ actual = .object others) ∨
    Whole expected actual := by
  cases expected <;> cases actual
  case array.array items others => exact .inl ⟨items, others, rfl, rfl⟩
  case object.object members others => exact .inr (.inl ⟨members, others, rfl, rfl⟩)
  all_goals exact .inr (.inr ⟨by simp, by simp⟩)

@[simp] theorem sameLeaf_array {items : List Json} : sameLeaf (.array items) actual = false := by
  cases actual <;> rfl

@[simp] theorem sameLeaf_object {members : List (String × Json)} :
    sameLeaf (.object members) actual = false := by
  cases actual <;> rfl

@[simp] theorem sameLeaf_of_array {items : List Json} :
    sameLeaf expected (.array items) = false := by
  cases expected <;> rfl

@[simp] theorem sameLeaf_of_object {members : List (String × Json)} :
    sameLeaf expected (.object members) = false := by
  cases expected <;> rfl

/-- Two numbers are the same if they are equal in binary floating point. -/
theorem sameLeaf_of_number {former : Float} (known : expected.number? = some former) :
    sameLeaf expected actual = true ↔
      ∃ latter, actual.number? = some latter ∧ former == latter := by
  cases expected <;> cases known <;> cases actual <;> simp [sameLeaf, number?]

/-- Values that are the same are equal, or numbers of which one becomes the other. -/
theorem eq_or_renumbers (same : sameLeaf expected actual = true) :
    actual = expected ∨ Renumbers actual expected := by
  cases known : expected.number? with
  | none => cases expected <;> cases known <;> cases actual <;> simp_all [sameLeaf, number?]
  | some former =>
      obtain ⟨latter, held, same⟩ := (sameLeaf_of_number known).mp same
      exact .inr ⟨held, known, beq_float_symm same⟩

/-- An array fits if each item does, and none is left over. -/
theorem fits_array_iff {items others : List Json} :
    Fits (.array items) (.array others) ↔ List.Forall₂ Fits items others := by
  refine ⟨fun fits => ?_, .array⟩
  cases fits with
  | leaf same => simp at same
  | array each => exact each

/-- An object fits if it has all members that are expected, those that are null apart. -/
theorem fits_object_iff {members others : List (String × Json)} :
    Fits (.object members) (.object others) ↔
      ∀ member ∈ members, Fits member.2 (orNull (lastUnder member.1 others)) := by
  refine ⟨fun fits => ?_, .object⟩
  cases fits with
  | leaf same => simp at same
  | object each => exact each

/-- Only null is null. -/
theorem fits_null_iff : Fits expected .null ↔ expected = .null := by
  constructor
  · intro fits
    cases fits with
    | leaf same => cases expected <;> first | rfl | cases same
  · rintro rfl
    exact .leaf rfl

end Leaf

section Mismatch

theorem isNull_iff : value.isNull = true ↔ value = .null := by
  cases value <;> simp [isNull]

/-- What is found for a member that is expected of an object. -/
def memberMismatch? (actual : List (String × Json)) (path : String) (member : String × Json) :
    Option String :=
  match lastUnder member.1 actual with
  | some held => mismatch? member.2 held (path ++ "." ++ member.1)
  | none => if member.2.isNull then none else some (path ++ "." ++ member.1 ++ ": missing")

/-- The first member that differs is found. -/
theorem membersMismatch?_eq {expected actual : List (String × Json)} :
    membersMismatch? expected actual path = expected.findSome? (memberMismatch? actual path) := by
  induction expected with
  | nil => rfl
  | cons member rest inductionHypothesis =>
      obtain ⟨name, value⟩ := member
      rw [membersMismatch?, inductionHypothesis, List.findSome?_cons, memberMismatch?]
      cases lastUnder name actual with
      | none => cases value.isNull <;> rfl
      | some held =>
          simp only
          cases value.mismatch? held (path ++ "." ++ name) <;> rfl

/-- The first item that differs is found. -/
theorem itemsMismatch?_eq {expected actual : List Json} {index : Nat} :
    itemsMismatch? expected actual path index = ((expected.zip actual).zipIdx index).findSome?
      fun pair => mismatch? pair.1.1 pair.1.2 (path ++ "[" ++ toString pair.2 ++ "]") := by
  induction expected generalizing actual index with
  | nil => cases actual <;> rfl
  | cons item rest inductionHypothesis =>
      cases actual with
      | nil => rfl
      | cons other others =>
          rw [itemsMismatch?, inductionHypothesis, List.zip_cons_cons, List.zipIdx_cons,
            List.findSome?_cons]
          cases item.mismatch? other (path ++ "[" ++ toString index ++ "]") <;> rfl

/-- Arrays are compared by their lengths, and then item by item. -/
theorem mismatch?_array {expected actual : List Json} :
    mismatch? (.array expected) (.array actual) path =
      if expected.length = actual.length then itemsMismatch? expected actual path 0
      else some (path ++ ": expected " ++ toString expected.length ++ " elements, got " ++
        toString actual.length) := by
  rw [mismatch?]

theorem mismatch?_object {expected actual : List (String × Json)} :
    mismatch? (.object expected) (.object actual) path = membersMismatch? expected actual path := by
  rw [mismatch?]

/-- No item differs if each fits the one in its place. -/
theorem itemsMismatch?_eq_none_iff {items others : List Json}
    (agrees : ∀ item ∈ items, ∀ other path, mismatch? item other path = none ↔ Fits item other) :
    itemsMismatch? items others path 0 = none ↔
      ∀ {item other}, (item, other) ∈ items.zip others → Fits item other := by
  rw [itemsMismatch?_eq, List.findSome?_eq_none_iff]
  constructor
  · intro none item other inside
    obtain ⟨index, here⟩ := List.mem_iff_getElem?.mp inside
    exact (agrees item (List.of_mem_zip inside).1 other _).mp
      (none ((item, other), index) (List.mk_mem_zipIdx_iff_getElem?.mpr here))
  · rintro fits ⟨⟨item, other⟩, index⟩ inside
    have inside := List.mem_of_getElem? (List.mk_mem_zipIdx_iff_getElem?.mp inside)
    exact (agrees item (List.of_mem_zip inside).1 other _).mpr (fits inside)

/-- A member does not differ if it fits the last one of its name. -/
theorem memberMismatch?_eq_none_iff {others : List (String × Json)} {member : String × Json}
    (agrees : ∀ other path, mismatch? member.2 other path = none ↔ Fits member.2 other) :
    memberMismatch? others path member = none ↔
      Fits member.2 (orNull (lastUnder member.1 others)) := by
  rw [memberMismatch?]
  cases lastUnder member.1 others with
  | none => simp [orNull, fits_null_iff, isNull_iff]
  | some value => exact agrees value _

/-- No mismatch is found if and only if a value is as expected. -/
theorem mismatch?_eq_none_iff : mismatch? expected actual path = none ↔ Fits expected actual := by
  induction expected using induct_parts generalizing actual path with
  | each expected inductionHypothesis =>
      have agrees (part : Json) (inside : part ∈ expected.parts) (other : Json) (path : String) :
          mismatch? part other path = none ↔ Fits part other := inductionHypothesis part inside
      rcases kinds expected actual with
        ⟨items, others, rfl, rfl⟩ | ⟨members, others, rfl, rfl⟩ | whole
      · have found : itemsMismatch? items others path 0 = none ↔ _ :=
          itemsMismatch?_eq_none_iff agrees
        rw [mismatch?_array, fits_array_iff, List.forall₂_iff_zip, ← found]
        by_cases same : items.length = others.length <;> simp [same]
      · rw [mismatch?_object, membersMismatch?_eq, List.findSome?_eq_none_iff, fits_object_iff]
        exact forall₂_congr fun member inside =>
          memberMismatch?_eq_none_iff (agrees member.2 (List.mem_map_of_mem inside))
      · rw [whole.mismatch?_eq, whole.fits_iff]
        simp

end Mismatch

section Message

/-- A step from a value to a part of it. -/
inductive Step where
  | member (name : String)
  | item (index : Nat)

/-- How a step is written in a path. -/
def Step.text : Step → String
  | .member name => "." ++ name
  | .item index => "[" ++ toString index ++ "]"

def trail (steps : List Step) : String :=
  steps.foldr (fun step rest => step.text ++ rest) ""

/-- The part of a value that a step leads to. -/
def part? (value : Json) : Step → Option Json
  | .member name => value.member? name
  | .item index =>
    match value with
    | .array items => items[index]?
    | _ => none

/-- The value that steps lead to. -/
def at? (value : Json) (steps : List Step) : Option Json := steps.foldlM part? value

/-- Two values differ at the end of steps into them, and a report says how. -/
inductive Differ (expected actual : Json) : List Step → String → Prop
  | missing {steps : List Step} {name : String} {value : Json} {members : List (String × Json)}
      (known : expected.at? (steps ++ [.member name]) = some value) (other : value ≠ .null)
      (held : actual.at? steps = some (.object members)) (absent : lastUnder name members = none) :
      Differ expected actual (steps ++ [.member name]) "missing"
  | length {steps : List Step} {items others : List Json}
      (known : expected.at? steps = some (.array items))
      (held : actual.at? steps = some (.array others)) (other : items.length ≠ others.length) :
      Differ expected actual steps ("expected " ++ toString items.length ++ " elements, got " ++
        toString others.length)
  | leaf {steps : List Step} {value held : Json}
      (known : expected.at? steps = some value) (given : actual.at? steps = some held)
      (whole : Whole value held) (other : sameLeaf value held = false) :
      Differ expected actual steps ("expected " ++ value.write ++ ", got " ++ held.write)

/-- Two values differ where their parts differ. -/
theorem Differ.step {step : Step} {steps : List Step} {report : String}
    (known : expected.part? step = some first) (held : actual.part? step = some last)
    (differ : Differ first last steps report) : Differ expected actual (step :: steps) report := by
  have further (steps : List Step) : expected.at? (step :: steps) = first.at? steps ∧
      actual.at? (step :: steps) = last.at? steps := by
    simp [at?, List.foldlM_cons, known, held]
  cases differ with
  | @missing steps name value members known other held absent =>
      exact @missing _ _ (step :: steps) name value members ((further _).1.trans known) other
        ((further _).2.trans held) absent
  | length known held other =>
      exact .length ((further _).1.trans known) ((further _).2.trans held) other
  | leaf known held whole other =>
      exact .leaf ((further _).1.trans known) ((further _).2.trans held) whole other

/-- A message begins with a path that has been extended by steps to a place where two values
differ. -/
def Tells (expected actual : Json) (path message : String) : Prop :=
  ∃ steps report, Differ expected actual steps report ∧
    message = path ++ trail steps ++ ": " ++ report

/-- A message that tells a difference of parts tells it of the whole. -/
theorem Tells.step (step : Step) (known : expected.part? step = some first)
    (held : actual.part? step = some last) (tells : Tells first last (path ++ step.text) message) :
    Tells expected actual path message := by
  obtain ⟨steps, report, differ, rfl⟩ := tells
  refine ⟨step :: steps, report, differ.step known held, ?_⟩
  simp only [trail, List.foldr_cons, String.append_assoc]

theorem begin_expected (rest : String) :
    ": expected " ++ rest = ": " ++ ("expected " ++ rest) := by
  rw [← String.append_assoc]
  rfl

/-- A mismatch is told of a place where the two values differ. -/
theorem tells_of_mismatch? (ordered : expected.Ordered)
    (found : mismatch? expected actual path = some message) :
    Tells expected actual path message := by
  induction expected using induct_parts generalizing actual path with
  | each expected inductionHypothesis =>
      rcases kinds expected actual with
        ⟨items, others, rfl, rfl⟩ | ⟨members, others, rfl, rfl⟩ | whole
      · rw [mismatch?_array] at found
        split at found
        · rw [itemsMismatch?_eq] at found
          obtain ⟨⟨⟨item, other⟩, index⟩, inside, found⟩ := List.exists_of_findSome?_eq_some found
          obtain ⟨known, held⟩ :=
            List.getElem?_zip_eq_some.mp (List.mk_mem_zipIdx_iff_getElem?.mp inside)
          have inside := List.mem_of_getElem? known
          refine (inductionHypothesis item inside (ordered.part inside) ?_).step
            (.item index) known held
          rw [← found]
          simp only [Step.text, String.append_assoc]
        · next other =>
            cases found
            refine ⟨[], _, .length rfl rfl other, ?_⟩
            simp [trail, begin_expected, String.append_assoc]
      · rw [mismatch?_object, membersMismatch?_eq] at found
        obtain ⟨⟨name, value⟩, inside, found⟩ := List.exists_of_findSome?_eq_some found
        rw [memberMismatch?] at found
        have known := (ordered.here members rfl).lastUnder inside
        cases held : lastUnder name others with
        | none =>
            rw [held] at found
            simp only at found
            split at found
            · cases found
            · next other =>
                cases found
                have other := mt isNull_iff.mpr other
                refine ⟨[.member name], _, @Differ.missing _ _ [] _ _ _ ?_ other rfl held, ?_⟩
                · simp [at?, part?, member?, known]
                · simp [trail, Step.text, String.append_assoc]
        | some other =>
            rw [held] at found
            refine (inductionHypothesis value (List.mem_map_of_mem inside)
              (ordered.part (List.mem_map_of_mem inside)) ?_).step (.member name) known held
            rw [← found]
            simp only [Step.text, String.append_assoc]
      · rw [whole.mismatch?_eq] at found
        split at found
        · cases found
        · next other =>
            cases found
            refine ⟨[], _, .leaf rfl rfl whole (Bool.eq_false_of_not_eq_true other), ?_⟩
            simp [trail, differMessage, begin_expected, String.append_assoc]

end Message

section Change

variable {change other : Json → Json → Prop} {members others : List (String × Json)}

theorem Within.mono (every : ∀ first last, change first last → other first last)
    (within : Within change first last) : Within other first last := by
  induction within with
  | here changes => exact .here (every _ _ changes)
  | item within inductionHypothesis => exact .item inductionHypothesis
  | member within inductionHypothesis => exact .member inductionHypothesis

/-- A list becomes another one if its items become the items there. -/
theorem items_chain {items others : List Json}
    (each : List.Forall₂ (ReflTransGen (Within change)) items others) (before : List Json) :
    ReflTransGen (Within change) (.array (before ++ items)) (.array (before ++ others)) := by
  induction each generalizing before with
  | nil => exact .refl
  | @cons item other items others chain each inductionHypothesis =>
      have behind := inductionHypothesis (before ++ [other])
      rw [List.append_assoc, List.append_assoc] at behind
      exact (ReflTransGen.lift (fun value => array (before ++ value :: items))
        (fun _ _ => .item) _ _ chain).trans behind

/-- An object becomes another one if the value of its first member becomes that of the first member
there and the other members become the others there. -/
theorem members_chain {name : String} {before : List (String × Json)}
    (chain : ReflTransGen (Within change) first last)
    (rest : ∀ before, ReflTransGen (Within change) (.object (before ++ members))
      (.object (before ++ others))) :
    ReflTransGen (Within change) (.object (before ++ (name, first) :: members))
      (.object (before ++ (name, last) :: others)) := by
  have behind := rest (before ++ [(name, last)])
  rw [List.append_assoc, List.append_assoc] at behind
  exact (ReflTransGen.lift (fun value => object (before ++ (name, value) :: members))
    (fun _ _ => .member) _ _ chain).trans behind

end Change

section Making

variable {items others : List Json} {members filled : List (String × Json)}

theorem Makes.refl (value : Json) : Makes value value := ⟨value, .refl, .refl⟩

/-- A list is made of another one if its items are made of the items there. -/
theorem makes_array (each : List.Forall₂ Makes items others) :
    Makes (.array items) (.array others) := by
  obtain ⟨filled, added, cut⟩ : ∃ filled, List.Forall₂ (ReflTransGen (Within Adds)) items filled ∧
      List.Forall₂ (ReflTransGen (Within Cuts)) filled others := by
    induction each with
    | nil => exact ⟨[], .nil, .nil⟩
    | cons makes each inductionHypothesis =>
        obtain ⟨value, added, cut⟩ := makes
        obtain ⟨filled, addeds, cuts⟩ := inductionHypothesis
        exact ⟨value :: filled, .cons added addeds, .cons cut cuts⟩
  exact ⟨.array filled, items_chain added [], items_chain cut []⟩

/-- Members that are null are added under all names that an object does not have. -/
theorem exists_filled (ascending : Ascending members) (names : List String) :
    ∃ filled, ReflTransGen (Within Adds) (.object members) (.object filled) ∧ Ascending filled ∧
      ∀ name, lastUnder name filled =
        (lastUnder name members).or (if name ∈ names then some .null else none) := by
  induction names with
  | nil => exact ⟨members, .refl, ascending, by simp⟩
  | cons newest rest inductionHypothesis =>
      obtain ⟨filled, added, rising, held⟩ := inductionHypothesis
      cases absent : lastUnder newest filled with
      | some value =>
          refine ⟨filled, added, rising, fun name => ?_⟩
          by_cases same : name = newest
          · subst same
            rw [held] at absent ⊢
            cases known : lastUnder name members with
            | some => rfl
            | none =>
                rw [known] at absent
                by_cases inside : name ∈ rest
                · simp [inside]
                · simp [inside] at absent
          · simp [held, same]
      | none =>
          refine ⟨insertMember newest .null filled, added.tail (.here (.null absent)),
            rising.insertMember, fun name => ?_⟩
          rw [lastUnder_insertMember absent]
          by_cases same : name = newest
          · subst same
            rw [held, Option.or_eq_none_iff] at absent
            simp [absent.1]
          · simp [held, same]

/-- Of an object, another one is made if each of its members is made of the one under its name. -/
theorem makes_members {expected : List (String × Json)} (ascending : Ascending filled)
    (rising : Ascending expected)
    (each : ∀ member ∈ expected, ∃ value, lastUnder member.1 filled = some value ∧
      Makes value member.2) :
    ∃ further, (∀ before, ReflTransGen (Within Adds) (.object (before ++ filled))
        (.object (before ++ further))) ∧
      ∀ before, ReflTransGen (Within Cuts) (.object (before ++ further))
        (.object (before ++ expected)) := by
  induction filled generalizing expected with
  | nil =>
      cases expected with
      | nil => exact ⟨[], fun _ => .refl, fun _ => .refl⟩
      | cons newest rest =>
          obtain ⟨value, found, -⟩ := each newest List.mem_cons_self
          cases found
  | cons newest filled inductionHypothesis =>
      obtain ⟨name, held⟩ := newest
      obtain ⟨below, ascending⟩ := List.pairwise_cons.mp ascending
      -- a member that does not stand under the first name is found behind it
      have behind (member : String × Json) (apart : member.1 ≠ name) :
          lastUnder member.1 ((name, held) :: filled) = lastUnder member.1 filled := by
        simp [lastUnder_cons, Ne.symm apart]
      by_cases begins : ∃ value rest, expected = (name, value) :: rest
      · obtain ⟨value, rest, rfl⟩ := begins
        obtain ⟨above, rising⟩ := List.pairwise_cons.mp rising
        obtain ⟨further, adds, cuts⟩ := inductionHypothesis ascending rising fun member inside => by
          rw [← behind member (above member inside).ne']
          exact each member (List.mem_cons_of_mem _ inside)
        obtain ⟨own, found, between, added, cut⟩ := each (name, value) List.mem_cons_self
        have same : own = held := by
          have last := lastUnder_eq_none fun member inside => (below member inside).ne'
          rw [lastUnder_cons, last] at found
          simpa using found.symm
        exact ⟨(name, between) :: further, fun _ => members_chain (same ▸ added) adds,
          fun _ => members_chain cut cuts⟩
      · have apart : ∀ member ∈ expected, member.1 ≠ name := by
          cases expected with
          | nil => exact List.forall_mem_nil _
          | cons newest rest =>
              have apart : newest.1 ≠ name := fun same =>
                begins ⟨newest.2, rest, by rw [← same]⟩
              obtain ⟨value, found, -⟩ := each newest List.mem_cons_self
              rw [behind newest apart] at found
              have smaller := below _ (mem_of_lastUnder found)
              refine List.forall_mem_cons.mpr ⟨apart, fun member later => ?_⟩
              exact (smaller.trans ((List.pairwise_cons.mp rising).1 member later)).ne'
        obtain ⟨further, adds, cuts⟩ := inductionHypothesis ascending rising fun member inside => by
          rw [← behind member (apart member inside)]
          exact each member inside
        exact ⟨(name, held) :: further, fun _ => members_chain .refl adds,
          fun before => .head (.here (.inl .member)) (cuts before)⟩

/-- An expected value can be made of a value that is as expected. -/
theorem Fits.makes (ordered : expected.Ordered) (known : actual.Ordered)
    (fits : Fits expected actual) : Makes actual expected := by
  induction expected using induct_parts generalizing actual with
  | each expected inductionHypothesis =>
      cases fits with
      | leaf same =>
          rcases eq_or_renumbers same with rfl | renumbers
          · exact .refl _
          · exact ⟨actual, .refl, .single (.here (.inr renumbers))⟩
      | @array items others each =>
          obtain ⟨length, each⟩ := List.forall₂_iff_zip.mp each
          refine makes_array (List.Forall₂.flip (List.forall₂_iff_zip.mpr ⟨length, ?_⟩))
          intro item other inside
          have ⟨first, last⟩ := List.of_mem_zip inside
          exact inductionHypothesis item first (ordered.part first) (known.part last) (each inside)
      | @object members others each =>
          obtain ⟨filled, added, rising, found⟩ :=
            exists_filled (known.here others rfl) (members.map Prod.fst)
          have ascending := ordered.here members rfl
          obtain ⟨further, adds, cuts⟩ := makes_members rising ascending fun member inside => by
            have listed : member.1 ∈ members.map Prod.fst := List.mem_map_of_mem inside
            have fits := each member inside
            rw [found, if_pos listed]
            cases held : lastUnder member.1 others with
            | none =>
                rw [held] at fits
                exact ⟨.null, rfl, fits_null_iff.mp fits ▸ .refl _⟩
            | some value =>
                rw [held] at fits
                have first := List.mem_map_of_mem (f := Prod.snd) inside
                have last := List.mem_map_of_mem (f := Prod.snd) (mem_of_lastUnder held)
                exact ⟨value, rfl, inductionHypothesis member.2 first (ordered.part first)
                  (known.part last) fits⟩
          exact ⟨.object further, added.trans (adds []), cuts []⟩

end Making

section Made

variable {members before after : List (String × Json)}

/-- A relation to the items of a list remains if one item becomes another one that is related to
what it was related to. -/
theorem forall₂_replace {Item Other : Type} {related : Item → Other → Prop} {first last : Item}
    {before after : List Item} {others : List Other}
    (each : List.Forall₂ related (before ++ first :: after) others)
    (remains : ∀ other, related first other → related last other) :
    List.Forall₂ related (before ++ last :: after) others := by
  induction before generalizing others with
  | nil =>
      obtain ⟨other, rest, here, others, rfl⟩ := List.forall₂_cons_left_iff.mp each
      exact .cons (remains other here) others
  | cons newest before inductionHypothesis =>
      obtain ⟨other, rest, here, others, rfl⟩ := List.forall₂_cons_left_iff.mp each
      exact .cons here (inductionHypothesis others)

/-- If the value of one member is replaced, what stands under a name remains, or it is this
value. -/
theorem lastUnder_replace (name other : String) (before after : List (String × Json))
    (first last : Json) :
    lastUnder name (before ++ (other, first) :: after) =
        lastUnder name (before ++ (other, last) :: after) ∨
      (lastUnder name (before ++ (other, first) :: after) = some first ∧
        lastUnder name (before ++ (other, last) :: after) = some last) := by
  simp only [lastUnder_append, lastUnder_cons]
  cases lastUnder name after with
  | some => exact .inl rfl
  | none =>
      by_cases same : other = name
      · exact .inr (by simp [same])
      · exact .inl (by simp [same])

/-- A member that is null may as well be missing. -/
theorem orNull_insertMember (absent : lastUnder name members = none) (other : String) :
    orNull (lastUnder other (insertMember name .null members)) =
      orNull (lastUnder other members) := by
  rw [lastUnder_insertMember absent]
  by_cases same : other = name
  · rw [if_pos same, same, absent]
    rfl
  · rw [if_neg same]

/-- What is as expected remains so if less is expected, or a number that is equal. -/
theorem Fits.cut (fits : Fits first actual) (within : Within Cuts first last) :
    Fits last actual := by
  induction within generalizing actual with
  | here changes =>
      rcases changes with drops | renumbers
      · obtain @⟨before, after, dropped⟩ := drops
        cases fits with
        | leaf same => simp at same
        | object each =>
            refine .object fun member inside => each member ?_
            exact List.Sublist.mem inside (List.Sublist.append_left (List.sublist_cons_self _ _) _)
      · obtain ⟨known, other, same⟩ := renumbers
        cases fits with
        | leaf alike =>
            obtain ⟨given, held, equal⟩ := (sameLeaf_of_number known).mp alike
            exact .leaf ((sameLeaf_of_number other).mpr
              ⟨given, held, beq_float_trans (beq_float_symm same) equal⟩)
        | array | object => cases known
  | item within inductionHypothesis =>
      cases fits with
      | leaf same => simp at same
      | array each => exact .array (forall₂_replace each fun _ => inductionHypothesis)
  | @member before after name first last within inductionHypothesis =>
      cases fits with
      | leaf same => simp at same
      | object each =>
          simp only [List.forall_mem_append, List.forall_mem_cons] at each
          obtain ⟨earlier, own, later⟩ := each
          refine .object ?_
          simp only [List.forall_mem_append, List.forall_mem_cons]
          exact ⟨earlier, inductionHypothesis own, later⟩

/-- What is as expected was so before it got members that are null. -/
theorem Fits.unfill (fits : Fits expected last) (within : Within Adds first last) :
    Fits expected first := by
  induction within generalizing expected with
  | here changes =>
      obtain ⟨absent⟩ := changes
      cases fits with
      | leaf same => simp at same
      | object each =>
          exact .object fun member inside =>
            orNull_insertMember absent member.1 ▸ each member inside
  | item within inductionHypothesis =>
      cases fits with
      | leaf same => simp at same
      | array each =>
          exact .array (List.Forall₂.flip (forall₂_replace each.flip fun _ => inductionHypothesis))
  | @member before after name first last within inductionHypothesis =>
      cases fits with
      | leaf same => simp at same
      | object each =>
          refine .object fun member inside => ?_
          have fits := each member inside
          rcases lastUnder_replace member.1 name before after first last with
            same | ⟨former, latter⟩
          · rwa [same]
          · rw [latter] at fits
            rw [former]
            exact inductionHypothesis fits

/-- A value is as expected if the expected value can be made of it and it is as expected of itself
after members have been added. -/
theorem Makes.fits (makes : Makes actual expected)
    (itself : ∀ filled, ReflTransGen (Within Adds) actual filled → Fits filled filled) :
    Fits expected actual := by
  obtain ⟨filled, added, cut⟩ := makes
  have fits : Fits expected filled := by
    induction cut with
    | refl => exact itself filled added
    | tail _ within inductionHypothesis => exact inductionHypothesis.cut within
  clear cut itself
  induction added with
  | refl => exact fits
  | tail _ within inductionHypothesis => exact inductionHypothesis (fits.unfill within)

end Made

section Kept

variable {change : Json → Json → Prop} {good : Json → Prop}

/-- What a change keeps, and the replacement of a part, is kept by a change within. -/
theorem Everywhere.within
    (change_kept : ∀ first last, change first last → first.Everywhere good → last.Everywhere good)
    (item_kept : ∀ before after first last, good (.array (before ++ first :: after)) →
      good (.array (before ++ last :: after)))
    (member_kept : ∀ before after name first last,
      good (.object (before ++ (name, first) :: after)) →
        good (.object (before ++ (name, last) :: after)))
    (within : Within change first last) (everywhere : first.Everywhere good) :
    last.Everywhere good := by
  induction within with
  | here changes => exact change_kept _ _ changes everywhere
  | @item before after first last within inductionHypothesis =>
      have each : ∀ part ∈ before ++ first :: after, part.Everywhere good := fun part =>
        everywhere.part
      simp only [List.forall_mem_append, List.forall_mem_cons] at each
      obtain ⟨earlier, own, later⟩ := each
      refine .all (item_kept before after first last everywhere.here) ?_
      simp only [parts, List.forall_mem_append, List.forall_mem_cons]
      exact ⟨earlier, inductionHypothesis own, later⟩
  | @member before after name first last within inductionHypothesis =>
      have each : ∀ part ∈ (before ++ (name, first) :: after).map Prod.snd, part.Everywhere good :=
        fun part => everywhere.part
      simp only [List.map_append, List.map_cons, List.forall_mem_append,
        List.forall_mem_cons] at each
      obtain ⟨earlier, own, later⟩ := each
      refine .all (member_kept before after name first last everywhere.here) ?_
      simp only [parts, List.map_append, List.map_cons, List.forall_mem_append,
        List.forall_mem_cons]
      exact ⟨earlier, inductionHypothesis own, later⟩

/-- A change anywhere keeps the members of a value in order if it keeps those of the part. -/
theorem Ordered.within
    (change_kept : ∀ first last, change first last → first.Ordered → last.Ordered)
    (within : Within change first last) (ordered : first.Ordered) : last.Ordered := by
  refine Everywhere.within change_kept (by simp) ?_ within ordered
  rintro before after name first last ascending members ⟨⟩
  have rising := ascending _ rfl
  simp only [Ascending, List.pairwise_append, List.pairwise_cons, List.mem_cons,
    forall_eq_or_imp] at rising ⊢
  exact rising

/-- Values from which members are dropped stay in order. -/
theorem Ordered.drops (within : Within Drops first last) (ordered : first.Ordered) :
    last.Ordered := by
  refine Ordered.within (fun first last drops ordered => ?_) within ordered
  obtain @⟨before, after, dropped⟩ := drops
  have fewer : (before ++ after).Sublist (before ++ dropped :: after) :=
    List.Sublist.append_left (List.sublist_cons_self _ _) _
  refine .all (fun members same => ?_) fun part inside =>
    ordered.part ((fewer.map Prod.snd).mem inside)
  cases same
  exact (ordered.here _ rfl).sublist fewer

/-- What holds of null and of the members of an object holds of them after null is added. -/
theorem Everywhere.insertMember {members : List (String × Json)}
    (everywhere : (object members).Everywhere good) (null : good .null) :
    ∀ part ∈ (object (insertMember name .null members)).parts, part.Everywhere good := by
  intro part inside
  obtain ⟨member, known, rfl⟩ := List.mem_map.mp inside
  rcases mem_insertMember known with rfl | old
  · exact .all null (by simp [parts])
  · exact everywhere.part (List.mem_map_of_mem old)

/-- Values to which members are added stay in order. -/
theorem Ordered.adds (within : Within Adds first last) (ordered : first.Ordered) :
    last.Ordered := by
  refine Ordered.within (fun first last adds ordered => ?_) within ordered
  cases adds
  refine .all (fun members same => ?_) (ordered.insertMember (by simp))
  cases same
  exact (ordered.here _ rfl).insertMember

/-- Numbers stay numbers when members are added. -/
theorem Numeric.adds (within : Within Adds first last) (numeric : first.Numeric) :
    last.Numeric := by
  refine Everywhere.within (fun first last adds numeric => ?_) (fun _ _ _ _ _ => by simp)
    (fun _ _ _ _ _ _ => by simp) within numeric
  cases adds
  exact .all (by simp) (numeric.insertMember (by simp))

/-- A value with all its members in order and without error values is as expected of itself. -/
theorem fits_self (ordered : value.Ordered) (numeric : value.Numeric) : Fits value value := by
  induction value using induct_parts with
  | each value inductionHypothesis =>
      have each (part : Json) (inside : part ∈ value.parts) : Fits part part :=
        inductionHypothesis part inside (ordered.part inside) (numeric.part inside)
      cases value with
      | null => exact .leaf rfl
      | bool value | string value => exact .leaf (by simp [sameLeaf])
      | whole value =>
          exact .leaf (by simpa [sameLeaf, number?, Float.beq_self_iff] using ofInt_ne_nan value)
      | float value =>
          have number : value ≠ Float.nan := by simpa using numeric.here
          exact .leaf (by simpa [sameLeaf, number?, Float.beq_self_iff] using number)
      | array items => exact .array (List.forall₂_same.mpr each)
      | object members =>
          refine .object fun member inside => ?_
          rw [(ordered.here members rfl).lastUnder inside]
          exact each member.2 (List.mem_map_of_mem inside)

end Kept

section Comparison

/-- A value to which members have been added fits itself. -/
theorem fits_filled (ordered : first.Ordered) (numeric : first.Numeric)
    (added : ReflTransGen (Within Adds) first last) : Fits last last := by
  have kept : last.Ordered ∧ last.Numeric := by
    induction added with
    | refl => exact ⟨ordered, numeric⟩
    | tail _ within inductionHypothesis =>
        exact ⟨inductionHypothesis.1.adds within, inductionHypothesis.2.adds within⟩
  exact fits_self kept.1 kept.2

/-- A comparison finds nothing if and only if the expected value can be made of the actual one. So a
value is as expected of itself, and what is expected may lose members at any depth. Otherwise, a
message tells of a place where the two values differ. -/
theorem makes_or_tells (expected actual : Json) (path : String) (numeric : actual.Numeric) :
    (subsetMismatch? expected actual path = none ↔ Makes actual.sorted expected.sorted) ∧
    subsetMismatch? actual actual path = none ∧
    (∀ fewer, ReflTransGen (Within Drops) expected.sorted fewer →
      subsetMismatch? expected actual path = none → subsetMismatch? fewer actual path = none) ∧
    (subsetMismatch? expected actual path ≠ none →
      ∃ message, subsetMismatch? expected actual path = some message ∧
        Tells expected.sorted actual.sorted path message) := by
  have ordered := sorted_ordered actual
  refine ⟨?_, ?_, fun fewer drops accepted => ?_, fun mismatch => ?_⟩
  · rw [subsetMismatch?, mismatch?_eq_none_iff]
    exact ⟨Fits.makes (sorted_ordered expected) ordered,
      fun makes => makes.fits fun _ => fits_filled ordered numeric.sorted⟩
  · exact mismatch?_eq_none_iff.mpr (fits_self ordered numeric.sorted)
  · have remains : fewer.Ordered ∧ Fits fewer actual.sorted := by
      induction drops with
      | refl => exact ⟨sorted_ordered expected, mismatch?_eq_none_iff.mp accepted⟩
      | tail _ within inductionHypothesis =>
          exact ⟨inductionHypothesis.1.drops within,
            inductionHypothesis.2.cut (within.mono fun _ _ => .inl)⟩
    rw [subsetMismatch?, remains.1.sorted_eq]
    exact mismatch?_eq_none_iff.mpr remains.2
  · obtain ⟨message, found⟩ := Option.ne_none_iff_exists'.mp mismatch
    exact ⟨message, found, tells_of_mismatch? (sorted_ordered expected) found⟩

/-- An equal number, a missing member that is null and a member of which nothing is expected are no
mismatch. -/
theorem makes_or_tells_trial :
    Makes (object [("c", .string "x"), ("a", .array [.whole 1])]).sorted
      (object [("a", .array [.float 1]), ("b", .null)]).sorted :=
  (makes_or_tells _ _ "$" (by
    have string : (string "x").Numeric := .all (by simp) (by simp [parts])
    have array : (array [.whole 1]).Numeric :=
      .all (by simp) (by simpa [parts] using Everywhere.all (by simp) (by simp [parts]))
    exact .all (by simp) (by simpa [parts] using ⟨string, array⟩))).1.mp (by decide +kernel)

/-- What is expected to be null may be missing, but it may not be another value. -/
example : subsetMismatch? (object [("a", .null)]) (object [("a", .whole 1)]) "$" =
    some "$.a: expected null, got 1" := by decide +kernel

end Comparison

end Json

end EcmaSyntax
