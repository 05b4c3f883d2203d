import Mathlib.Algebra.Group.Int.Defs
import SchemaLang.Proofs.Code.Representable

/-!
# Definitions that code can be generated for

A written default is the value of a primitive type if the type admits it: a string type takes every
literal, an integer type the integers of its range, the truth values may also be spelled out, and
a byte array takes a text (`Primitive.Admits`). Together with the length of a byte array of fixed
length, this is all that code generation asks of a field. So code can be generated exactly if there
is an order of dependencies, the fields of the schemas in it are fit by themselves, and the types of
all parameters and results are known (`fileOf_isOk_iff_admits`).
-/

namespace SchemaLang

/-! ## What a primitive type admits -/

namespace Primitive

/-- The least and the greatest integer of a primitive type that holds integers. -/
def range? (type : Primitive) : Option (Int × Int) :=
  if type.isSigned then type.width?.map fun bits ↦ (-2 ^ (bits - 1), 2 ^ (bits - 1) - 1)
  else if type.isUnsigned || type.isBigInt then type.width?.map fun bits ↦ (0, 2 ^ bits - 1)
  else none

/-- A literal can be written as the value of a primitive type. -/
inductive Admits : Primitive → Literal → Prop
  | string {type : Primitive} (htype : type.isString = true) (value : Literal) : Admits type value
  | integer {type : Primitive} {low high : Int} {n : Int64}
      (hrange : type.range? = some (low, high)) (hlow : low ≤ n.toInt) (hhigh : n.toInt ≤ high) :
      Admits type (.integer n)
  | bool (value : Bool) : Admits .bool (.bool value)
  | boolText {text : String} (h : text = "true" ∨ text = "false") : Admits .bool (.text text)
  | bytes {type : Primitive} (htype : type.isBytes = true) (text : String) :
      Admits type (.text text)

variable {type : Primitive}

/-- The generated type of a primitive type holds the integers of its range, and no others. -/
theorem admits_ofPrimitive_iff {n : Int} : (Code.CodeType.ofPrimitive type).admits n = true ↔
    ∃ low high, type.range? = some (low, high) ∧ low ≤ n ∧ n ≤ high := by
  cases type <;>
    simp [range?, isSigned, isUnsigned, isBigInt, width?, Code.CodeType.ofPrimitive,
      Code.CodeType.admits] <;> omega

end Primitive

namespace Code

/-- A literal has an expression as the value of a primitive type if the type admits it. -/
theorem exists_literalExpression?_iff {type : Primitive} {value : Literal} :
    (∃ expression, literalExpression? type value = some expression) ↔ type.Admits value := by
  constructor
  · intro ⟨expression, h⟩
    rcases literalExpression?_cases h with ⟨hstring, -⟩ | ⟨-, n, rfl, hadmits, -⟩ |
      ⟨rfl, truth, rfl | rfl, -⟩ | ⟨hbytes, text, rfl, -⟩
    · exact .string hstring value
    · obtain ⟨low, high, hrange, hlow, hhigh⟩ := Primitive.admits_ofPrimitive_iff.1 hadmits
      exact .integer hrange hlow hhigh
    · exact .bool truth
    · exact .boolText (by cases truth <;> simp)
    · exact .bytes hbytes text
  · intro h
    cases h with
    | string htype value =>
      cases value <;> exact ⟨_, if_pos htype⟩
    | @integer _ _ _ n hrange hlow hhigh =>
      have hadmits := Primitive.admits_ofPrimitive_iff.2 ⟨_, _, hrange, hlow, hhigh⟩
      unfold literalExpression?
      dsimp only
      rw [if_pos hadmits]
      split <;> exact ⟨_, rfl⟩
    | bool value => exact ⟨_, rfl⟩
    | boolText htext => rcases htext with rfl | rfl <;> exact ⟨_, rfl⟩
    | bytes htype text => cases type <;> first | exact ⟨_, rfl⟩ | cases htype

/-- A byte array of fixed length has its length from an option that is an unsigned integer. -/
theorem exists_fixedLength_iff {field : Field} : (∃ length, field.fixedLength = .ok length) ↔
    ∃ value, (field.length = some value ∨ field.fromEnd = some value) ∧
      value.toUnsigned64?.isSome = true := by
  unfold Field.fixedLength
  cases hexact : field.length.bind Literal.toUnsigned64? with
  | some bytes =>
    obtain ⟨value, hlength, hvalue⟩ := Option.bind_eq_some_iff.1 hexact
    exact iff_of_true ⟨_, rfl⟩ ⟨value, .inl hlength, Option.isSome_of_eq_some hvalue⟩
  | none =>
    have hlength {value : Literal} (h : field.length = some value) :
        value.toUnsigned64? = none := by
      rwa [h, Option.bind_some] at hexact
    cases hend : field.fromEnd.bind Literal.toUnsigned64? with
    | some bytes =>
      obtain ⟨value, hfromEnd, hvalue⟩ := Option.bind_eq_some_iff.1 hend
      exact iff_of_true ⟨_, rfl⟩ ⟨value, .inr hfromEnd, Option.isSome_of_eq_some hvalue⟩
    | none =>
      refine iff_of_false nofun ?_
      rintro ⟨value, hgiven | hgiven, hvalue⟩
      · rw [hlength hgiven] at hvalue
        cases hvalue
      · rw [hgiven, Option.bind_some] at hend
        rw [hend] at hvalue
        cases hvalue

end Code

/-- What a field has to be in itself, by its attributes. -/
theorem Field.representable_iff {field : Field} : field.Representable ↔
    (field.primitive? = some .byteN →
      ∃ value, (field.length = some value ∨ field.fromEnd = some value) ∧
        value.toUnsigned64?.isSome = true) ∧
    (field.isArray = true → field.default = none) ∧
    ∀ value, field.isArray = false → field.default = some value →
      ∃ type, field.primitive? = some type ∧ type.Admits value := by
  constructor
  · intro h
    refine ⟨fun htype ↦ Code.exists_fixedLength_iff.1 (h.length htype), fun harray ↦ ?_,
      fun value _ hvalue ↦ ?_⟩
    · cases hdefault : field.default with
      | none => rfl
      | some value =>
        have hsingle := (h.default value hdefault).1
        rw [harray] at hsingle
        cases hsingle
    · obtain ⟨-, type, expression, htype, hexpression⟩ := h.default value hvalue
      exact ⟨type, htype, Code.exists_literalExpression?_iff.1 ⟨expression, hexpression⟩⟩
  · intro ⟨hlength, harray, hadmits⟩
    refine ⟨fun htype ↦ Code.exists_fixedLength_iff.2 (hlength htype), fun value hvalue ↦ ?_⟩
    have hsingle : field.isArray = false := by
      by_contra hnot
      rw [Bool.not_eq_false] at hnot
      rw [harray hnot] at hvalue
      cases hvalue
    obtain ⟨type, htype, hadmitted⟩ := hadmits value hsingle hvalue
    obtain ⟨expression, hexpression⟩ := Code.exists_literalExpression?_iff.2 hadmitted
    exact ⟨hsingle, type, expression, htype, hexpression⟩

/--
Code can be generated exactly if there is an order of dependencies, every byte array of fixed length
in a schema has an option that is its length, defaults are written only on fields that are no arrays
and of a primitive type that admits them, and all parameters and results of methods are resolved.
Deriving the other defaults asks for nothing more.
-/
theorem Code.fileOf_isOk_iff_admits (module : Option String) (definitions : List Definition) :
    let index := SchemaIndex.ofDefinitions definitions
    (∃ file, fileOf module definitions = .ok file) ↔
      (∃ order, index.dependencyOrder = .ok order) ∧
      (∀ schema ∈ index.schemas, ∀ field ∈ schema.fields, field.primitive? = some .byteN →
        ∃ value, (field.length = some value ∨ field.fromEnd = some value) ∧
          value.toUnsigned64?.isSome = true) ∧
      (∀ schema ∈ index.schemas, ∀ field ∈ schema.fields,
        field.isArray = true → field.default = none) ∧
      (∀ schema ∈ index.schemas, ∀ field ∈ schema.fields, ∀ value,
        field.isArray = false → field.default = some value →
          ∃ type, field.primitive? = some type ∧ type.Admits value) ∧
      ∀ plugin ∈ Definition.plugins definitions, ∀ method ∈ plugin.methods,
        ∀ field ∈ method.fields.toList ++ method.returns.toList,
          ∃ resolved, index.resolve field = .ok resolved := by
  intro index
  rw [fileOf_isOk_iff]
  simp only [Field.representable_iff]
  constructor
  · intro ⟨horder, hfields, hmethods⟩
    exact ⟨horder, fun schema hschema field hfield ↦ (hfields schema hschema field hfield).1,
      fun schema hschema field hfield ↦ (hfields schema hschema field hfield).2.1,
      fun schema hschema field hfield ↦ (hfields schema hschema field hfield).2.2, hmethods⟩
  · intro ⟨horder, hlengths, harrays, hdefaults, hmethods⟩
    exact ⟨horder, fun schema hschema field hfield ↦ ⟨hlengths schema hschema field hfield,
      harrays schema hschema field hfield, hdefaults schema hschema field hfield⟩, hmethods⟩

end SchemaLang
