import Mathlib.Algebra.Group.Int.Defs
import Mathlib.Data.List.Nodup
import SchemaLang.Code.Generate
import SchemaLang.Proofs.Result

/-!
# Types and values of generated code

An expression of generated code has a type, which its form tells (`Expression.HasType`), and
a value (`Denotes`). The value of the default of a struct is made of those of the fields of the
struct, so it depends on the structs that there are; as long as no two of them share a name, an
expression denotes one value at most (`Denotes.unique`). What a default value of a field stands for
in generated code is said without expressions, by `fieldValue?`.
-/

namespace SchemaLang.Code

/-! ## Types of expressions -/

/-- A value of generated code. -/
inductive CodeValue where
  | integer (value : Int)
  | bool (value : Bool)
  | string (text : String)
  | list (items : List CodeValue)
  | struct (name : String) (fields : List (String × CodeValue))
  | absent
  | present (value : CodeValue)

/-- The bytes of a text, which is encoded in UTF-8. -/
def CodeValue.bytes (text : String) : CodeValue :=
  .list (text.toUTF8.toList.map fun byte ↦ .integer byte.toNat)

mutual

/-- An expression denotes a value among some structs. -/
inductive Denotes (structs : List Struct) : Expression → CodeValue → Prop
  | integer (n : Int) : Denotes structs (.integer n) (.integer n)
  | bool (value : Bool) : Denotes structs (.bool value) (.bool value)
  | string (text : String) : Denotes structs (.string text) (.string text)
  | emptyString : Denotes structs .emptyString (.string "")
  | bytes (text : String) : Denotes structs (.bytes text) (.bytes text)
  | emptyList : Denotes structs .emptyList (.list [])
  | structDefault {struct : Struct} {values : List (String × CodeValue)}
      (hstruct : struct ∈ structs) (hvalues : DenoteFields structs struct.fields values) :
      Denotes structs (.structDefault struct.name) (.struct struct.name values)
  | none : Denotes structs .none .absent
  | some {expression : Expression} {value : CodeValue} (hvalue : Denotes structs expression value) :
      Denotes structs (.some expression) (.present value)

/-- The defaults of the fields of a struct denote values, which stand under their names. -/
inductive DenoteFields (structs : List Struct) : List StructField → List (String × CodeValue) → Prop
  | nil : DenoteFields structs [] []
  | cons {part : StructField} {parts : List StructField} {value : CodeValue}
      {values : List (String × CodeValue)} (hvalue : Denotes structs part.default value)
      (hvalues : DenoteFields structs parts values) :
      DenoteFields structs (part :: parts) ((part.name, value) :: values)

end

variable {structs : List Struct}

mutual

/-- Among structs with distinct names an expression denotes one value at most. -/
theorem Denotes.unique {expression : Expression} {value other : CodeValue}
    (h : Denotes structs expression value) (hother : Denotes structs expression other)
    (hnames : (structs.map Struct.name).Nodup) : value = other := by
  cases h with
  | structDefault hstruct hvalues =>
    generalize hexpression : Expression.structDefault _ = expression at hother
    cases hother with
    | structDefault hstruct' hvalues' =>
      have hname := Expression.structDefault.inj hexpression
      have hsame := List.inj_on_of_nodup_map hnames hstruct hstruct' hname
      subst hsame
      rw [hvalues.unique hvalues' hnames]
    | _ => cases hexpression
  | some hvalue =>
    cases hother with
    | some hvalue' => rw [hvalue.unique hvalue' hnames]
  | _ =>
    cases hother
    rfl

theorem DenoteFields.unique {parts : List StructField} {values others : List (String × CodeValue)}
    (h : DenoteFields structs parts values) (hother : DenoteFields structs parts others)
    (hnames : (structs.map Struct.name).Nodup) : values = others := by
  cases h with
  | nil =>
    cases hother
    rfl
  | cons hvalue hvalues =>
    cases hother with
    | cons hvalue' hvalues' =>
      rw [hvalue.unique hvalue' hnames, hvalues.unique hvalues' hnames]

end

/-! ## Values of defaults -/

/--
What a written default stands for: its text on a string, the bytes of its text on a byte array, and
its own integer or truth value otherwise, where a truth value may be spelled out.
-/
def literalValue? (type : Primitive) (value : Literal) : Option CodeValue :=
  if type.isString then some (.string value.display)
  else if type.isBytes then value.toText?.map .bytes
  else match value with
    | .integer n => some (.integer n.toInt)
    | .bool value => some (.bool value)
    | .text "true" => some (.bool true)
    | .text "false" => some (.bool false)
    | _ => none

/-- A derived default of a field: it is absent on an optional field, whatever it is. -/
def derivedValue (field : Field) (value : CodeValue) : CodeValue :=
  if field.optional then .absent else value

mutual

/-- What a default value of a field stands for in generated code. -/
def fieldValue? (index : SchemaIndex) (field : Field) : DefaultValue → Option CodeValue
  | .explicit value =>
    (field.primitive?.bind (literalValue? · value)).map fun value ↦
      if field.optional then .present value else value
  | .emptyString => some (derivedValue field (.string ""))
  | .zero => some (derivedValue field (.integer 0))
  | .false => some (derivedValue field (.bool false))
  | .emptyBytes | .emptyArray => some (derivedValue field (.list []))
  | .schema name values =>
    if field.optional then some .absent
    else (index.get? name).bind fun schema ↦
      (fieldValues? index schema.fields values).map (.struct (typeName name))

/-- What the default values of the fields of a schema stand for, under the generated names. -/
def fieldValues? (index : SchemaIndex) :
    List Field → List (String × DefaultValue) → Option (List (String × CodeValue))
  | [], [] => some []
  | field :: fields, (name, value) :: values => do
    let first ← fieldValue? index field value
    let rest ← fieldValues? index fields values
    return (memberName name, first) :: rest
  | _, _ => none

end

end SchemaLang.Code
