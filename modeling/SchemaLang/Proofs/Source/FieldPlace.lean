import Mathlib.Data.List.Basic
import SchemaLang.Definition.OfTree
import SchemaLang.Proofs.Token.Scopes
import SchemaLang.Proofs.Tree.Refusals

/-!
# Places of fields

A field stands in a block of a schema or of a method. Its place says in which one, and how many
fields stand before it there. At a place the definitions can be changed (`BlockPlace.modify`), and
so can the unit that they come from (`BlockPlace.modifyPhrase`). The tokens of a unit split at the
block of a place (`Site`), and the split tells in which scope the block is opened.
-/

namespace SchemaLang

open Phrase

/-! ## Places in definitions -/

/-- The parts of a method that can be blocks of fields. -/
inductive MethodPart where
  | parameters
  | results
  deriving DecidableEq, Repr

/-- A block of fields: that of a schema, or a part of a method, by the numbers of both. -/
inductive BlockPlace where
  | schema (item : Nat)
  | method (item method : Nat) (part : MethodPart)
  deriving DecidableEq, Repr

/-- A field: its block and its number there. -/
structure FieldPlace where
  block : BlockPlace
  field : Nat
  deriving DecidableEq, Repr

/-- Changes the fields of a block. -/
def FieldSet.modifyBlock (change : List Field → List Field) : FieldSet → FieldSet
  | single field => single field
  | many fields => many (change fields)

/-- Changes a part of a method. -/
def Method.modifyPart (method : Method) (change : FieldSet → FieldSet) : MethodPart → Method
  | .parameters => { method with fields := change method.fields }
  | .results => { method with returns := change method.returns }

namespace Definition

/-- Changes the fields of a schema. -/
def modifySchema (change : List Field → List Field) : Definition → Definition
  | schema s => schema { s with fields := change s.fields }
  | plugin p => plugin p

/-- Changes a method of a plugin. -/
def modifyMethod (number : Nat) (change : Method → Method) : Definition → Definition
  | schema s => schema s
  | plugin p => plugin { p with methods := p.methods.modify number change }

end Definition

/-- Changes the fields of the block at a place. -/
def BlockPlace.modify (change : List Field → List Field) (definitions : List Definition) :
    BlockPlace → List Definition
  | schema item => definitions.modify item (·.modifySchema change)
  | method item number part =>
    definitions.modify item (·.modifyMethod number (·.modifyPart (·.modifyBlock change) part))

/-- Changes the field at a place. -/
def FieldPlace.modify (place : FieldPlace) (change : Field → Field)
    (definitions : List Definition) : List Definition :=
  place.block.modify (·.modify place.field change) definitions

/-! ## Places in a unit -/

namespace ParamsPhrase

/-- The block that parameters or results are. -/
def block? : ParamsPhrase → Option BlockPhrase
  | block phrase => some phrase
  | named _ => none

/-- Changes the block that parameters or results are. -/
def modifyBlock (change : BlockPhrase → BlockPhrase) : ParamsPhrase → ParamsPhrase
  | block phrase => block (change phrase)
  | named type => named type

end ParamsPhrase

namespace SignaturePhrase

/-- A part of a method. -/
def part (p : SignaturePhrase) : MethodPart → ParamsPhrase
  | .parameters => p.parameters
  | .results => p.returns.results

/-- Changes a part of a method. -/
def modifyPart (change : ParamsPhrase → ParamsPhrase) : MethodPart → SignaturePhrase →
    SignaturePhrase
  | .parameters, paramsFirst parameters returns => paramsFirst (change parameters) returns
  | .parameters, returnsFirst returns parameters => returnsFirst returns (change parameters)
  | .results, paramsFirst parameters returns =>
    paramsFirst parameters { returns with results := change returns.results }
  | .results, returnsFirst returns parameters =>
    returnsFirst { returns with results := change returns.results } parameters

/-- Whether results in braces stand before the parameters. -/
def opensWithResults : SignaturePhrase → Bool
  | paramsFirst _ _ => false
  | returnsFirst returns _ => returns.results.block?.isSome

end SignaturePhrase

namespace ItemPhrase

/-- The block of a schema. -/
def schemaBlock? : ItemPhrase → Option BlockPhrase
  | schema p => some p.block
  | plugin _ => none

/-- A method of a plugin, by its number. -/
def method? (number : Nat) : ItemPhrase → Option MethodPhrase
  | schema _ => none
  | plugin p => p.methods[number]?

/-- Changes the block of a schema. -/
def modifySchema (change : BlockPhrase → BlockPhrase) : ItemPhrase → ItemPhrase
  | schema p => schema { p with block := change p.block }
  | plugin p => plugin p

/-- Changes the signature of a method of a plugin. -/
def modifyMethod (number : Nat) (change : SignaturePhrase → SignaturePhrase) :
    ItemPhrase → ItemPhrase
  | schema p => schema p
  | plugin p => plugin { p with
      methods := p.methods.modify number fun method ↦
        { method with signature := change method.signature } }

end ItemPhrase

namespace UnitPhrase

/-- A method of a unit, by the number of its plugin and its number there. -/
def method? (unit : UnitPhrase) (item number : Nat) : Option MethodPhrase :=
  unit[item]?.bind (·.method? number)

/-- The block at a place. -/
def block? (unit : UnitPhrase) : BlockPlace → Option BlockPhrase
  | .schema item => unit[item]?.bind ItemPhrase.schemaBlock?
  | .method item number part =>
    (unit.method? item number).bind fun method ↦ (method.signature.part part).block?

/-- The field at a place. -/
def field? (unit : UnitPhrase) (place : FieldPlace) : Option FieldPhrase :=
  (unit.block? place.block).bind (·.fields[place.field]?)

/-- Whether the block at a place holds parameters and stands behind results in braces. -/
def behindResults (unit : UnitPhrase) : BlockPlace → Bool
  | .method item number .parameters =>
    (unit.method? item number).any (·.signature.opensWithResults)
  | _ => false

end UnitPhrase

/-- Changes the block at a place of a unit. -/
def BlockPlace.modifyPhrase (change : BlockPhrase → BlockPhrase) (unit : UnitPhrase) :
    BlockPlace → UnitPhrase
  | schema item => unit.modify item (·.modifySchema change)
  | method item number part =>
    unit.modify item (·.modifyMethod number (·.modifyPart (·.modifyBlock change) part))

/-! ## Changes of a unit and of its definitions -/

theorem map_modify {α β : Type} {f : α → β} {change : α → α} {changed : β → β}
    (h : ∀ a, f (change a) = changed (f a)) (values : List α) (i : Nat) :
    (values.modify i change).map f = (values.map f).modify i changed := by
  induction values generalizing i with
  | nil => simp
  | cons a values ih =>
    cases i with
    | zero => simp [h]
    | succ i => simp [ih]

/-- Options of a method do not depend on its parts. -/
theorem Method.foldl_withOption_modifyPart (options : List OptionNode) (method : Method)
    (change : FieldSet → FieldSet) (part : MethodPart) :
    options.foldl Method.withOption (method.modifyPart change part) =
      (options.foldl Method.withOption method).modifyPart change part := by
  induction options generalizing method with
  | nil => rfl
  | cons entry options ih =>
    have hentry : (method.modifyPart change part).withOption entry =
        (method.withOption entry).modifyPart change part := by
      unfold Method.withOption Method.withOption?
      cases part <;> split <;> rfl
    rw [List.foldl_cons, List.foldl_cons, hentry, ih]

section Changes

variable {change : BlockPhrase → BlockPhrase} {changeFields : List Field → List Field}

theorem ParamsPhrase.ofNode_modifyBlock
    (h : ∀ p : BlockPhrase, (change p).nodes.map Field.ofNode =
      changeFields (p.nodes.map Field.ofNode)) (p : ParamsPhrase) :
    FieldSet.ofNode (p.modifyBlock change).node =
      (FieldSet.ofNode p.node).modifyBlock changeFields := by
  cases p with
  | block p =>
    rw [ParamsPhrase.modifyBlock, ParamsPhrase.node, FieldSet.ofNode_block, h, ParamsPhrase.node,
      FieldSet.ofNode_block]
    rfl
  | named type => rfl

theorem MethodPhrase.ofNode_modifyPart {changeParams : ParamsPhrase → ParamsPhrase}
    {changeSet : FieldSet → FieldSet}
    (h : ∀ p : ParamsPhrase, FieldSet.ofNode (changeParams p).node =
      changeSet (FieldSet.ofNode p.node)) (part : MethodPart) (p : MethodPhrase) :
    Method.ofNode { p with signature := p.signature.modifyPart changeParams part }.node =
      (Method.ofNode p.node).modifyPart changeSet part := by
  rw [Method.ofNode_eq, Method.ofNode_eq, ← Method.foldl_withOption_modifyPart]
  obtain ⟨word, name, options, signature⟩ := p
  cases part <;> cases signature <;>
    simp only [MethodPhrase.node, SignaturePhrase.modifyPart, SignaturePhrase.parameters,
      SignaturePhrase.returns, Method.modifyPart, h]

/-- A change of a unit changes the definitions at the same place. -/
theorem BlockPlace.nodes_modifyPhrase
    (h : ∀ p : BlockPhrase, (change p).nodes.map Field.ofNode =
      changeFields (p.nodes.map Field.ofNode)) (unit : UnitPhrase) (place : BlockPlace) :
    (place.modifyPhrase change unit).nodes.map Definition.ofNode =
      place.modify changeFields (unit.nodes.map Definition.ofNode) := by
  unfold UnitPhrase.nodes
  rw [List.map_map, List.map_map]
  cases place with
  | schema item =>
    refine map_modify (fun p ↦ ?_) unit item
    cases p with
    | schema p =>
      have hschema (block : BlockPhrase) :
          Definition.ofNode (ItemPhrase.schema { p with block := block }).node =
            .schema ⟨p.name.1.text, block.nodes.map Field.ofNode⟩ :=
        Definition.ofNode_schema _
      calc
        Definition.ofNode (ItemPhrase.schema { p with block := change p.block }).node =
            .schema ⟨p.name.1.text, changeFields (p.block.nodes.map Field.ofNode)⟩ := by
          rw [hschema, h]
        _ = (Definition.ofNode (ItemPhrase.schema p).node).modifySchema changeFields :=
          congrArg (Definition.modifySchema changeFields) (hschema p.block).symm
    | plugin p => rfl
  | method item number part =>
    refine map_modify (fun p ↦ ?_) unit item
    cases p with
    | schema p => rfl
    | plugin p =>
      let modified (p : MethodPhrase) : MethodPhrase :=
        { p with signature := p.signature.modifyPart (·.modifyBlock change) part }
      have hmethods : (p.methods.modify number modified).map (fun p ↦ Method.ofNode p.node) =
          (p.methods.map fun p ↦ Method.ofNode p.node).modify number
            (·.modifyPart (·.modifyBlock changeFields) part) :=
        map_modify (MethodPhrase.ofNode_modifyPart (ParamsPhrase.ofNode_modifyBlock h) part) _ _
      have hplugin (methods : List MethodPhrase) :
          Definition.ofNode (ItemPhrase.plugin { p with methods := methods }).node =
            .plugin { Plugin.ofNode p.node with
              methods := methods.map fun p ↦ Method.ofNode p.node } := by
        rw [Plugin.ofNode_eq, ItemPhrase.node, Definition.ofNode_plugin, PluginPhrase.node,
          List.map_map]
        rfl
      calc
        Definition.ofNode (ItemPhrase.plugin
            { p with methods := p.methods.modify number modified }).node =
            .plugin { Plugin.ofNode p.node with
              methods := (p.methods.modify number modified).map fun p ↦ Method.ofNode p.node } :=
          hplugin _
        _ = .plugin { Plugin.ofNode p.node with
              methods := (p.methods.map fun p ↦ Method.ofNode p.node).modify number
                (·.modifyPart (·.modifyBlock changeFields) part) } := by
          rw [hmethods]
        _ = (Definition.ofNode (ItemPhrase.plugin p).node).modifyMethod number
              (·.modifyPart (·.modifyBlock changeFields) part) := by
          exact congrArg (Definition.modifyMethod number _) (hplugin p.methods).symm

end Changes

/-- A change of fields keeps the names of the definitions. -/
theorem BlockPlace.name_modify (change : List Field → List Field) (definitions : List Definition)
    (place : BlockPlace) : (place.modify change definitions).map Definition.name =
      definitions.map Definition.name := by
  have hname {changed : Definition → Definition} (h : ∀ d : Definition, (changed d).name = d.name)
      (item : Nat) : (definitions.modify item changed).map Definition.name =
        definitions.map Definition.name := by
    have hmodify : (definitions.modify item changed).map Definition.name =
        (definitions.map Definition.name).modify item id := map_modify h definitions item
    rw [hmodify, List.modify_id]
  cases place with
  | schema item => exact hname (fun d ↦ by cases d <;> rfl) item
  | method item number part => exact hname (fun d ↦ by cases d <;> rfl) item

/-- The items of a unit that have a block at a place: a schema, or a method of a plugin. -/
theorem UnitPhrase.exists_of_block? {unit : UnitPhrase} {place : BlockPlace} {block : BlockPhrase}
    (h : unit.block? place = some block) :
    (∃ item p, place = .schema item ∧ unit[item]? = some (.schema p) ∧ p.block = block) ∨
      ∃ item number part p method, place = .method item number part ∧
        unit[item]? = some (.plugin p) ∧ p.methods[number]? = some method ∧
        method.signature.part part = .block block := by
  cases place with
  | schema item =>
    obtain ⟨p, hitem, hblock⟩ := Option.bind_eq_some_iff.1 h
    cases p with
    | plugin p => cases hblock
    | schema p => exact .inl ⟨item, p, rfl, hitem, Option.some.inj hblock⟩
  | method item number part =>
    obtain ⟨method, hmethod, hblock⟩ := Option.bind_eq_some_iff.1 h
    obtain ⟨p, hitem, hnumber⟩ := Option.bind_eq_some_iff.1 hmethod
    cases p with
    | schema p => cases hnumber
    | plugin p =>
      refine .inr ⟨item, number, part, p, method, rfl, hitem, hnumber, ?_⟩
      cases hpart : method.signature.part part with
      | named type =>
        rw [hpart] at hblock
        cases hblock
      | block other =>
        rw [hpart] at hblock
        exact congrArg ParamsPhrase.block (Option.some.inj hblock)

/-- The field of a schema in a unit is a field of this schema in the definitions. -/
theorem UnitPhrase.exists_schema_of_field? {unit : UnitPhrase} {item number : Nat}
    {field : FieldPhrase} (h : unit.field? ⟨.schema item, number⟩ = some field) :
    ∃ schema, (unit.nodes.map Definition.ofNode)[item]? = some (.schema schema) ∧
      schema.fields[number]? = some (Field.ofNode field.node) := by
  obtain ⟨block, hblock, hfield⟩ := Option.bind_eq_some_iff.1 h
  obtain ⟨_, p, ⟨⟩, hitem, rfl⟩ | ⟨_, _, _, _, _, ⟨⟩, _⟩ := exists_of_block? hblock
  have hfields : (p.block.nodes.map Field.ofNode)[number]? = some (Field.ofNode field.node) := by
    rw [BlockPhrase.nodes, List.getElem?_map, List.getElem?_map, hfield]
    rfl
  refine ⟨⟨p.name.1.text, p.block.nodes.map Field.ofNode⟩, ?_, hfields⟩
  rw [UnitPhrase.nodes, List.getElem?_map, List.getElem?_map, hitem]
  exact congrArg some (Definition.ofNode_schema p.node)

/-! ## Tokens in front of a block -/

theorem tokens_of_getElem? {δ : Type} [Phrase δ] {phrases : List δ} {i : Nat} {phrase : δ}
    (h : phrases[i]? = some phrase) : tokens phrases =
      tokens (phrases.take i) ++ (tokens phrase ++ tokens (phrases.drop (i + 1))) := by
  obtain ⟨hlength, rfl⟩ := List.getElem?_eq_some_iff.1 h
  conv_lhs => rw [← List.take_append_drop i phrases, List.drop_eq_getElem_cons hlength]
  rw [tokens_append, tokens_cons]

theorem tokens_modify {δ : Type} [Phrase δ] {phrases : List δ} {i : Nat} {phrase : δ}
    (h : phrases[i]? = some phrase) (change : δ → δ) : tokens (phrases.modify i change) =
      tokens (phrases.take i) ++ (tokens (change phrase) ++ tokens (phrases.drop (i + 1))) := by
  obtain ⟨hlength, rfl⟩ := List.getElem?_eq_some_iff.1 h
  rw [List.modify_eq_take_cons_drop hlength, tokens_append, tokens_cons]

namespace SignaturePhrase

/-- The tokens of a signature in front of a part. -/
def front : MethodPart → SignaturePhrase → List Token
  | .parameters, paramsFirst _ _ => []
  | .parameters, returnsFirst returns _ => tokens returns
  | .results, paramsFirst parameters returns => tokens parameters ++ tokens returns.word
  | .results, returnsFirst returns _ => tokens returns.word

/-- The tokens of a signature behind a part. -/
def back : MethodPart → SignaturePhrase → List Token
  | .parameters, paramsFirst _ returns => tokens returns
  | .parameters, returnsFirst _ _ => []
  | .results, paramsFirst _ _ => []
  | .results, returnsFirst _ parameters => tokens parameters

theorem tokens_modifyPart (change : ParamsPhrase → ParamsPhrase) (part : MethodPart)
    (p : SignaturePhrase) : tokens (p.modifyPart change part) =
      p.front part ++ (tokens (change (p.part part)) ++ p.back part) := by
  cases part <;> cases p <;>
    simp only [modifyPart, front, back, SignaturePhrase.part, parameters, SignaturePhrase.returns,
      tokens, List.nil_append, List.append_nil, List.append_assoc]

theorem tokens_part (part : MethodPart) (p : SignaturePhrase) :
    tokens p = p.front part ++ (tokens (p.part part) ++ p.back part) := by
  have hself : p.modifyPart id part = p := by
    cases part <;> cases p <;> rfl
  calc
    tokens p = tokens (p.modifyPart id part) := by rw [hself]
    _ = p.front part ++ (tokens (p.part part) ++ p.back part) := tokens_modifyPart id part p

/-- The scope in which a part starts: announced, but for parameters behind results in braces. -/
theorem after_front (part : MethodPart) (p : SignaturePhrase) :
    Scope.announced.after (p.front part) =
      if part = .parameters ∧ p.opensWithResults then .outside else .announced := by
  have hword (scope : Scope) (h : scope ≠ .fields) (word : Terminal .returns) :
      scope.after (tokens word) = .announced := after_announcing h (by decide) word
  cases part with
  | results =>
    cases p with
    | paramsFirst parameters returns =>
      rw [front, Scope.after_append, hword _ (after_params (by decide) parameters)]
      rfl
    | returnsFirst returns parameters => exact hword _ (by decide) returns.word
  | parameters =>
    cases p with
    | paramsFirst parameters returns => rfl
    | returnsFirst returns parameters =>
      obtain ⟨word, results⟩ := returns
      have htokens : tokens (ReturnsPhrase.mk word results) = tokens word ++ tokens results := rfl
      rw [front, htokens, Scope.after_append, hword _ (by decide)]
      cases results with
      | block results => exact after_block _ results
      | named type => exact keepsScope_identifier type _

end SignaturePhrase

namespace MethodPhrase

/-- The tokens of a method in front of a part. -/
def front (part : MethodPart) (p : MethodPhrase) : List Token :=
  tokens p.word ++ (tokens p.name ++ (tokens p.options ++ p.signature.front part))

theorem after_front {scope : Scope} (h : scope ≠ .fields) (part : MethodPart) (p : MethodPhrase) :
    scope.after (p.front part) =
      if part = .parameters ∧ p.signature.opensWithResults then .outside else .announced := by
  have hhead := after_methodHead h p
  rw [List.append_assoc] at hhead
  rw [front, ← List.append_assoc (tokens p.name), ← List.append_assoc, Scope.after_append, hhead,
    SignaturePhrase.after_front]

/-- The tokens of a method with another part split at the part. -/
theorem tokens_modifyPart (change : ParamsPhrase → ParamsPhrase) (part : MethodPart)
    (p : MethodPhrase) : tokens { p with signature := p.signature.modifyPart change part } =
      p.front part ++ (tokens (change (p.signature.part part)) ++ p.signature.back part) := by
  have htokens (signature : SignaturePhrase) : tokens { p with signature := signature } =
      tokens p.word ++ (tokens p.name ++ (tokens p.options ++ tokens signature)) := by
    simp only [tokens, List.append_assoc]
  rw [htokens, SignaturePhrase.tokens_modifyPart, front]
  simp only [List.append_assoc]

theorem tokens_part (part : MethodPart) (p : MethodPhrase) : tokens p =
    p.front part ++ (tokens (p.signature.part part) ++ p.signature.back part) := by
  have hself : p.signature.modifyPart id part = p.signature := by
    cases part <;> cases p.signature <;> rfl
  calc
    tokens p = tokens { p with signature := p.signature.modifyPart id part } := by rw [hself]
    _ = _ := tokens_modifyPart id part p

end MethodPhrase

namespace PluginPhrase

/-- The tokens of a plugin in front of its methods. -/
def front (p : PluginPhrase) : List Token :=
  tokens p.word ++ (tokens p.first ++ (tokens p.more ++ (tokens p.asName ++ tokens p.opening)))

theorem tokens_methods (p : PluginPhrase) (methods : List MethodPhrase) :
    tokens (ItemPhrase.plugin { p with methods := methods }) =
      p.front ++ (tokens methods ++ tokens p.closing) := by
  rw [front]
  simp only [tokens, List.append_assoc]

/-- The braces of a plugin are not announced. -/
theorem after_front (p : PluginPhrase) : Scope.outside.after p.front = .outside := by
  have hword : Scope.outside.after (tokens p.word) = .outside := by
    rw [tokens_terminal, Scope.after_cons, p.word.2]
    rfl
  have hdot : KeepsScope (Terminal .dot) := keepsScope_terminal fun scope ↦ by cases scope <;> rfl
  have has : KeepsScope (Terminal .asWord) :=
    keepsScope_terminal fun scope ↦ by cases scope <;> rfl
  have hopening : Scope.outside.after (tokens p.opening) = .outside := by
    rw [tokens_terminal, Scope.after_cons, p.opening.2]
    rfl
  rw [front, Scope.after_append, hword, Scope.after_append, keepsScope_identifier,
    Scope.after_append, (hdot.pair keepsScope_identifier).list, Scope.after_append,
    (has.pair keepsScope_identifier).option, hopening]

end PluginPhrase

section Refused

open TokenReader

variable {input : List Token} {refusal : Refusal}

/-- What stands in front of a part and the brace behind it is no option. -/
theorem SignaturePhrase.startsWithNone_front (part : MethodPart) (p : SignaturePhrase)
    (hstart : startsWith .leftBrace input = true) :
    StartsWithNone [.leftParen] (p.front part ++ input) := by
  have hbrace : StartsWithNone [.leftParen] input := startsWithNone_of_notMem hstart (by decide)
  have hreturns (returns : ReturnsPhrase) (rest : List Token) :
      StartsWithNone [.leftParen] (tokens returns ++ rest) :=
    startsWithNone_of_notMem (headed_returns.startsWith returns rest) (by decide)
  have hword (word : Terminal .returns) (rest : List Token) :
      StartsWithNone [.leftParen] (tokens word ++ rest) :=
    startsWithNone_of_notMem ((headed_terminal .returns).startsWith word rest) (by decide)
  cases part <;> cases p
  case parameters.paramsFirst parameters returns => exact hbrace
  case parameters.returnsFirst returns parameters => exact hreturns returns input
  case results.paramsFirst parameters returns =>
    rw [front, List.append_assoc]
    exact startsWithNone_params parameters _ (by decide) (by decide)
  case results.returnsFirst returns parameters => exact hword returns.word input

/-- What is refused as a block of fields is refused at the place of a part of a method. -/
theorem MethodPhrase.refused_part (part : MethodPart) (p : MethodPhrase)
    (hstart : startsWith .leftBrace input = true) (h : fieldBlock input = .error refusal) :
    method (p.front part ++ input) = .error refusal := by
  have hoptions := p.signature.startsWithNone_front part hstart
  have hbrace : StartsWithNone [.returns] input := startsWithNone_of_notMem hstart (by decide)
  obtain ⟨word, name, options, signature⟩ := p
  rw [front, List.append_assoc, List.append_assoc, List.append_assoc]
  refine ((reads_take _ _).bind word (startsWithNone_nil _) _).trans ?_
  refine ((reads_take _ _).bind name (startsWithNone_nil _) _).trans ?_
  refine (reads_optionalOptions.bind options hoptions _).trans ?_
  cases part <;> cases signature
  case parameters.paramsFirst parameters returns =>
    refine (if_neg (Bool.eq_false_iff.1 hbrace.head)).trans ?_
    dsimp only [SignaturePhrase.front, List.nil_append]
    rw [params_refused _ hstart h, error_bind]
  case parameters.returnsFirst returns parameters =>
    refine (if_pos (headed_returns.startsWith returns _)).trans ?_
    refine (reads_returns.bind returns (startsWithNone_nil _) _).trans ?_
    dsimp only
    rw [params_refused _ hstart h, error_bind]
  case results.paramsFirst parameters returns =>
    have hreturns : StartsWithNone [.returns]
        (tokens parameters ++ (tokens returns.word ++ input)) :=
      startsWithNone_params parameters _ (by decide) (by decide)
    dsimp only [SignaturePhrase.front]
    rw [List.append_assoc]
    refine (if_neg (Bool.eq_false_iff.1 hreturns.head)).trans ?_
    refine ((reads_params _).bind parameters (startsWithNone_nil _) _).trans ?_
    dsimp only
    rw [returns_refused _ hstart h, error_bind]
  case results.returnsFirst returns parameters =>
    refine (if_pos ((headed_terminal .returns).startsWith returns.word _)).trans ?_
    dsimp only [SignaturePhrase.front]
    rw [returns_refused _ hstart h, error_bind]

end Refused

/--
The tokens of a unit split at a block. Other blocks can stand there, the scope in front of it is
known, and what is refused as a block is refused there.
-/
structure Site (unit : UnitPhrase) (place : BlockPlace) (block : BlockPhrase)
    (front back : List Token) : Prop where
  tokens_unit : tokens unit = front ++ (tokens block ++ back)
  tokens_modify : ∀ change,
    tokens (place.modifyPhrase change unit) = front ++ (tokens (change block) ++ back)
  scope : Scope.outside.after front = if unit.behindResults place then .outside else .announced
  refused : ∀ {input refusal}, TokenReader.startsWith .leftBrace input = true →
    TokenReader.fieldBlock input = .error refusal →
    TokenReader.items (front ++ input) = .error refusal

theorem site_schema {unit : UnitPhrase} {item : Nat} {p : SchemaPhrase}
    (hitem : unit[item]? = some (.schema p)) :
    Site unit (.schema item) p.block (tokens (unit.take item) ++ (tokens p.word ++ tokens p.name))
      (tokens (unit.drop (item + 1))) := by
  have htokens (block : BlockPhrase) : tokens (ItemPhrase.schema { p with block := block }) =
      tokens p.word ++ (tokens p.name ++ tokens block) := rfl
  constructor
  case tokens_unit =>
    rw [tokens_of_getElem? hitem, htokens p.block]
    simp only [List.append_assoc]
  case tokens_modify =>
    intro change
    rw [BlockPlace.modifyPhrase, tokens_modify hitem, ItemPhrase.modifySchema, htokens]
    simp only [List.append_assoc]
  case scope =>
    have hword : Scope.outside.after (tokens p.word) = .announced :=
      after_announcing (by decide) (by decide) p.word
    rw [Scope.after_append, after_unit, Scope.after_append, hword, keepsScope_identifier]
    rfl
  case refused =>
    intro input refusal hstart hrefused
    have hschema := TokenReader.schema_refused p.word p.name hrefused
    have hword :=
      (TokenReader.headed_terminal .schema).startsWith p.word (tokens p.name ++ input)
    rw [List.append_assoc, List.append_assoc]
    apply TokenReader.items_refused
    · exact List.cons_ne_nil _ _
    · exact TokenReader.item_refused_schema hword hschema

/-- What is refused as a block of fields is refused in a method of a plugin. -/
theorem PluginPhrase.item_refused (p : PluginPhrase) (methods : List MethodPhrase)
    (method : MethodPhrase) (part : MethodPart) {input : List Token} {refusal : Refusal}
    (hstart : TokenReader.startsWith .leftBrace input = true)
    (h : TokenReader.fieldBlock input = .error refusal) :
    TokenReader.item (p.front ++ (tokens methods ++ (method.front part ++ input))) =
      .error refusal := by
  have hfirst : TokenReader.startsWith .method (method.front part ++ input) = true :=
    (TokenReader.headed_terminal .method).startsWith method.word _
  have hword : TokenReader.startsWith .plugin
      (p.front ++ (tokens methods ++ (method.front part ++ input))) = true :=
    (TokenReader.headed_terminal .plugin).startsWith p.word _
  apply TokenReader.item_refused_plugin hword
  rw [PluginPhrase.front]
  simpa only [List.append_assoc] using
    TokenReader.plugin_refused p methods hfirst (method.refused_part part hstart h)

theorem site_method {unit : UnitPhrase} {item number : Nat} {p : PluginPhrase}
    {method : MethodPhrase} {part : MethodPart} {block : BlockPhrase}
    (hitem : unit[item]? = some (.plugin p)) (hmethod : p.methods[number]? = some method)
    (hpart : method.signature.part part = .block block) :
    Site unit (.method item number part) block
      (tokens (unit.take item) ++
        (p.front ++ (tokens (p.methods.take number) ++ method.front part)))
      (method.signature.back part ++ (tokens (p.methods.drop (number + 1)) ++
        (tokens p.closing ++ tokens (unit.drop (item + 1))))) := by
  constructor
  case tokens_unit =>
    rw [tokens_of_getElem? hitem, p.tokens_methods p.methods, tokens_of_getElem? hmethod,
      method.tokens_part part, hpart]
    simp only [List.append_assoc]
    rfl
  case tokens_modify =>
    intro change
    rw [BlockPlace.modifyPhrase, tokens_modify hitem, ItemPhrase.modifyMethod,
      p.tokens_methods, tokens_modify hmethod, method.tokens_modifyPart _ part, hpart]
    simp only [List.append_assoc]
    rfl
  case scope =>
    have hfind : unit.method? item number = some method :=
      Option.bind_eq_some_iff.2 ⟨.plugin p, hitem, hmethod⟩
    have hbehind : unit.behindResults (.method item number part) = true ↔
        part = .parameters ∧ method.signature.opensWithResults = true := by
      cases part <;> simp [UnitPhrase.behindResults, hfind]
    have hmethods := after_methods (by decide : Scope.outside ≠ .fields) (p.methods.take number)
    rw [Scope.after_append, after_unit, Scope.after_append, p.after_front, Scope.after_append,
      method.after_front hmethods]
    exact if_congr hbehind.symm rfl rfl
  case refused =>
    intro input refusal hstart hrefused
    have hne : p.front ++ (tokens (p.methods.take number) ++ (method.front part ++ input)) ≠ [] :=
      List.cons_ne_nil _ _
    have hitem := p.item_refused (p.methods.take number) method part hstart hrefused
    simpa only [List.append_assoc] using
      TokenReader.items_refused (unit.take item) hne hitem

/-- Every block of a unit has a site. -/
theorem exists_site {unit : UnitPhrase} {place : BlockPlace} {block : BlockPhrase}
    (h : unit.block? place = some block) : ∃ front back, Site unit place block front back := by
  obtain ⟨item, p, rfl, hitem, rfl⟩ | ⟨item, number, part, p, method, rfl, hitem, hmethod, hpart⟩ :=
    UnitPhrase.exists_of_block? h
  · exact ⟨_, _, site_schema hitem⟩
  · exact ⟨_, _, site_method hitem hmethod hpart⟩

end SchemaLang
