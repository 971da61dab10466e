/-
  File:      SchemaCompiler/Expr/OfSchema.lean
  Subject:   The expression that a schema becomes.

  The sub-schemas of a schema become calls first; then one rule assembles the call of the schema
  from its keywords. Of several keywords of a kind the first counts. A schema without a keyword
  that constrains values accepts anything; any other is a branch for each of its types, and a
  keyword constrains the branches it is about.
-/
import SchemaCompiler.Expr.Basic
import SchemaCompiler.Expr.Name
import SchemaCompiler.Schema.Basic

namespace SchemaCompiler

/-! ## 1. The first keyword of a kind -/

namespace Keywords

variable {σ : Type}

def text? (k : TextKeyword) (keywords : List (Keyword σ)) : Option String :=
  keywords.findSome? fun
    | .text j text => if j = k then some text else none
    | _ => none

def schema? (k : SchemaKeyword) (keywords : List (Keyword σ)) : Option σ :=
  keywords.findSome? fun
    | .schema j schema => if j = k then some schema else none
    | _ => none

def entries? (k : MapKeyword) (keywords : List (Keyword σ)) : Option (List (Entry σ)) :=
  keywords.findSome? fun
    | .entries j entries => if j = k then some entries else none
    | _ => none

def types? (keywords : List (Keyword σ)) : Option (List PrimitiveType) :=
  keywords.findSome? fun
    | .types types => some types
    | _ => none

def number? (k : NumberKeyword) (keywords : List (Keyword σ)) : Option Number :=
  keywords.findSome? fun
    | .number j n => if j = k then some n else none
    | _ => none

def count? (k : CountKeyword) (keywords : List (Keyword σ)) : Option Nat :=
  keywords.findSome? fun
    | .count j n => if j = k then some n else none
    | _ => none

def required? (keywords : List (Keyword σ)) : Option (List String) :=
  keywords.findSome? fun
    | .required names => some names
    | _ => none

def dependencies? (keywords : List (Keyword σ)) : Option (List Dependency) :=
  keywords.findSome? fun
    | .dependentRequired dependencies => some dependencies
    | _ => none

end Keywords

/-! ## 2. Branches -/

namespace Branch

open Keywords

/-- Refines a call by a keyword, if the keyword is there. -/
def refineBy {α : Type} (value? : Option α) (refine : Call → α → Call) (c : Call) : Call :=
  match value? with
  | some value => refine c value
  | none => c

/-- The strings. -/
def string (keywords : List (Keyword Call)) : Call :=
  let least := count? .minLength keywords
  let most := count? .maxLength keywords
  let sized :=
    if least.isSome || most.isSome then
      Call.refine .size (.nullary .string) [.ofCount? least, .ofCount? most]
    else .nullary .string
  refineBy (text? .pattern keywords) (fun c p => c.refine .pattern [.regex p]) sized

/-- The option that makes a bound exclusive. -/
def exclusive : Constant := .json (.object [("exclusive", .boolean true)])

/-- The numbers, or those among them that `base` accepts. -/
def number (base : Func) (keywords : List (Keyword Call)) : Call :=
  Call.nullary base
    |> refineBy (number? .multipleOf keywords) (fun c n => c.refine .multipleOf [.number n])
    |> refineBy (number? .maximum keywords) (fun c n => c.refine .max [.number n])
    |> refineBy (number? .exclusiveMaximum keywords)
        (fun c n => c.refine .max [.number n, exclusive])
    |> refineBy (number? .minimum keywords) (fun c n => c.refine .min [.number n])
    |> refineBy (number? .exclusiveMinimum keywords)
        (fun c n => c.refine .min [.number n, exclusive])

/-- The arrays. -/
def array (keywords : List (Keyword Call)) : Call :=
  ⟨.array, [((schema? .items keywords).getD .unknown).toArg]⟩

/-- What the members of an object must be: the required names that no property describes, then the
    properties, optional unless they are required. -/
def shape (required : List String) (properties : List (Entry Call)) : Call :=
  let bare := required.filter fun name => !properties.any fun p => p.key = name
  Call.onRecord .type <|
    bare.map (fun name => (name, .unknown)) ++
    properties.map fun p =>
      (p.key, if required.contains p.key then p.schema else ⟨.optional, [p.schema.toArg]⟩)

/-- The dependencies as data: each key with the array of its names. -/
def dependencyTable (dependencies : List Dependency) : Value :=
  .object (collectEntries (dependencies.map fun d => (d.key, .ofStrings d.required)))

/-- The keys that additional properties do not have: those of the properties, the required ones,
    and those that match a pattern. -/
def knownKeys (required : List String) (properties patterns : List (Entry Call)) : List Call :=
  let names := distinct (properties.map Entry.key ++ required)
  let byName :=
    if names.isEmpty then []
    else [Call.onRecord .object (names.map fun name => (name, .unknown))]
  let byPattern :=
    if patterns.isEmpty then []
    else [Call.onRecord .patternObject (patterns.map fun p => (p.key, .unknown))]
  match byName ++ byPattern with
  | [] => [.never]
  | known => known

/-- What members beyond the shape may be. -/
def surplusArms (required : List String) (properties : List (Entry Call))
    (patterns? : Option (List (Entry Call))) (additional? : Option Call) : List Call :=
  let byPattern := patterns?.toList.map fun patterns =>
    Call.onRecord .patternType (patterns.map fun p => (p.key, p.schema))
  let others := additional?.toList.map fun additional =>
    Call.intersection
      [.not (.union (knownKeys required properties (patterns?.getD []))), additional]
  byPattern ++ others

/-- The objects. The names of the members are checked against `anyName`. -/
def object (anyName : Call) (keywords : List (Keyword Call)) : Call :=
  let required := (required? keywords).getD []
  let properties := (entries? .properties keywords).getD []
  let c := shape required properties
    |> refineBy (count? .minProperties keywords)
        (fun c n => c.refine .minProperties [.number (.natural n)])
    |> refineBy (count? .maxProperties keywords)
        (fun c n => c.refine .maxProperties [.number (.natural n)])
    |> refineBy (dependencies? keywords)
        (fun c ds => c.refine .dependentProperties [.json (dependencyTable ds)])
    |> refineBy (schema? .propertyNames keywords) (fun c _ => ⟨.keys, [c.toArg, anyName.toArg]⟩)
  match surplusArms required properties (entries? .patternProperties keywords)
      (schema? .additionalProperties keywords) with
  | [] => c
  | arms => .intersection [c, .union arms]

/-- The branch of a type. -/
def ofType (anyName : Call) (keywords : List (Keyword Call)) : PrimitiveType → Call
  | .string => string keywords
  | .number => number .number keywords
  | .integer => number .integer keywords
  | .object => object anyName keywords
  | .array => array keywords
  | .boolean => .nullary .boolean
  | .null => ⟨.literal, [.item (.const .null)]⟩

end Branch

/-! ## 3. Schemas -/

namespace Call

/-- The alternative of some calls. -/
def oneOfBranches : List Call → Call
  | [] => .never
  | [branch] => branch
  | branches => .union branches

/-- The call that accepts the values of every type, each branch without a constraint. -/
def anyType : Call := oneOfBranches (PrimitiveType.all.map (Branch.ofType .unknown []))

/-- The call of a schema, from its keywords with the calls of its sub-schemas. -/
def ofKeywords (keywords : List (Keyword Call)) : Call :=
  if keywords.any fun keyword => keyword.kind.keywordClass = .validation then
    let types := (Keywords.types? keywords).getD PrimitiveType.all
    let typed := oneOfBranches (types.map (Branch.ofType anyType keywords))
    match Keywords.schema? .not keywords with
    | some sub => .intersection [typed, .not sub]
    | none => typed
  else .unknown

mutual

/-- The call of a schema. -/
def ofSchema : Schema → Call
  | .mk keywords _ _ => ofKeywords (keywordCalls keywords)

/-- The keywords of a schema, with calls for the sub-schemas. -/
def keywordCalls : List (Located (Keyword Schema)) → List (Keyword Call)
  | [] => []
  | ⟨keyword, _⟩ :: rest =>
    (match keyword with
      | .schema k schema => .schema k (ofSchema schema)
      | .schemas k schemas => .schemas k (schemaCalls schemas)
      | .entries k entries => .entries k (entryCalls entries)
      | .text k text => .text k text
      | .types types => .types types
      | .enum values => .enum values
      | .data k value => .data k value
      | .number k n => .number k n
      | .count k n => .count k n
      | .flag k b => .flag k b
      | .required names => .required names
      | .dependentRequired dependencies => .dependentRequired dependencies) :: keywordCalls rest

def schemaCalls : List Schema → List Call
  | [] => []
  | schema :: schemas => ofSchema schema :: schemaCalls schemas

def entryCalls : List (Entry Schema) → List (Entry Call)
  | [] => []
  | ⟨key, schema, span⟩ :: entries => ⟨key, ofSchema schema, span⟩ :: entryCalls entries

end

end Call

/-- The definition of a schema, named after its anchor or else after `rootName`. -/
def Definition.ofSchema (alphabet : Alphabet) (schema : Schema) (rootName : String) :
    Definition :=
  { name := String.ofList (pascalCase alphabet (schema.anchor?.getD rootName).toList)
    body := Call.ofSchema schema }

end SchemaCompiler
