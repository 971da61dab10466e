/-
  File:      SchemaCompiler/Pattern/Understood.lean
  Subject:   Which regular expressions the local engine understands.

  A pattern is understood if it can be read, nests at most `nestLimit` deep, names no group twice,
  names only known properties, asks outside Unicode mode for nothing that could match a part of a
  character, and does not grow too large when its repetitions are written out.
-/
import SchemaCompiler.Pattern.Reader

namespace SchemaCompiler

namespace Pattern

/-! ## 1. Nesting -/

mutual

/-- How deep the sets of a class nest. -/
def CharSet.depth : CharSet → Nat
  | .bracketed _ set => set.depth + 1
  | .union sets => depthOfSets sets + 1
  | .operation _ left right => max left.depth right.depth + 1
  | _ => 0

/-- The greatest depth among some sets. -/
def depthOfSets : List CharSet → Nat
  | [] => 0
  | set :: sets => max set.depth (depthOfSets sets)

end

mutual

/-- How deep a pattern nests. -/
def Regex.depth : Regex → Nat
  | .bracketed _ set => set.depth + 1
  | .repeated r _ => r.depth + 1
  | .group _ r => r.depth + 1
  | .alternation rs => depthOfAll rs + 1
  | .concatenation rs => depthOfAll rs + 1
  | _ => 0

/-- The greatest depth among some patterns. -/
def depthOfAll : List Regex → Nat
  | [] => 0
  | r :: rs => max r.depth (depthOfAll rs)

end

/-- How deep a pattern may nest. -/
def nestLimit : Nat := 250

/-! ## 2. Group names -/

mutual

/-- The names of the groups. -/
def Regex.names : Regex → List (List Char)
  | .group kind r => kind.name?.toList ++ r.names
  | .repeated r _ => r.names
  | .alternation rs => namesOfAll rs
  | .concatenation rs => namesOfAll rs
  | _ => []

def namesOfAll : List Regex → List (List Char)
  | [] => []
  | r :: rs => r.names ++ namesOfAll rs

end

/-! ## 3. Characters and bytes -/

mutual

/-- In Unicode mode, whether a class names only known properties. -/
def CharSet.isKnown : CharSet → Bool
  | .property query => query.isKnown
  | .bracketed _ set => set.isKnown
  | .union sets => areKnown sets
  | .operation _ left right => left.isKnown && right.isKnown
  | _ => true

def areKnown : List CharSet → Bool
  | [] => true
  | set :: sets => set.isKnown && areKnown sets

end

/-- Whether a class shorthand stands for a complement. -/
def isComplement (letter : Char) : Bool := isAsciiUpper letter

mutual

/-- Outside Unicode mode, whether a class holds the bytes beyond ASCII: it holds all of them or
    none. A bracketed class that holds them is refused, as is what is no single byte. -/
def CharSet.holdsHigh? : CharSet → Option Bool
  | .empty => some false
  | .literal l => if isAscii l.char then some false else none
  | .range first last => if isAscii first.char && isAscii last.char then some false else none
  | .named negated => some negated
  | .shorthand letter => if isComplement letter then none else some false
  | .property _ => none
  | .bracketed negated set =>
    match set.holdsHigh? with
    | some high => if high != negated then none else some false
    | none => none
  | .union sets => anyHoldsHigh? sets
  | .operation op left right =>
    match left.holdsHigh?, right.holdsHigh? with
    | some l, some r =>
      some <| match op with
        | .intersection => l && r
        | .difference => l && !r
        | .symmetricDifference => l != r
    | _, _ => none

def anyHoldsHigh? : List CharSet → Option Bool
  | [] => some false
  | set :: sets =>
    match set.holdsHigh?, anyHoldsHigh? sets with
    | some a, some b => some (a || b)
    | _, _ => none

end

/-- Whether a class is allowed in the mode that holds. -/
def CharSet.isAllowed (unicode : Bool) (set : CharSet) : Bool :=
  if unicode then set.isKnown else set.holdsHigh?.isSome

mutual

/-- Whether all parts are allowed, from left to right: `none` if one is not, else whether Unicode
    mode holds after the last. A group keeps its changes to itself. -/
def Regex.allowed? (unicode : Bool) : Regex → Option Bool
  | .empty => some unicode
  | .flags change => some (change.apply .unicode unicode)
  | .literal l => if unicode || !l.isByte || isAscii l.char then some unicode else none
  | .dot => if unicode then some unicode else none
  | .assertion => some unicode
  | .shorthand letter => if unicode || !isComplement letter then some unicode else none
  | .property query => if unicode && query.isKnown then some unicode else none
  | .bracketed negated set =>
    if (CharSet.bracketed negated set).isAllowed unicode then some unicode else none
  | .repeated r _ => r.allowed? unicode
  | .group kind r =>
    match r.allowed? (kind.change.apply .unicode unicode) with
    | some _ => some unicode
    | none => none
  | .alternation rs => allAllowed? unicode rs
  | .concatenation rs => allAllowed? unicode rs

def allAllowed? (unicode : Bool) : List Regex → Option Bool
  | [] => some unicode
  | r :: rs =>
    match r.allowed? unicode with
    | some unicode => allAllowed? unicode rs
    | none => none

end

/-! ## 4. Size

The weight estimates the bytes of the automaton. A state takes `stateWeight`; a class takes a state
and an arm for each of its ranges, and much more beyond ASCII. -/

/-- The weight of a state. -/
def stateWeight : Nat := 32

/-- The weight of a class beyond ASCII that lacks only a few characters. -/
def wideWeight : Nat := 1000

/-- The weight of a property. -/
def propertyWeight : Nat := 20000

/-- The weight of a class by its shorthand. -/
def shorthandWeight (letter : Char) : Nat :=
  if letter = 'd' then 5125
  else if letter = 'D' then 12756
  else if letter = 'w' then 50171
  else if letter = 'W' then 46603
  else if letter = 's' then 680
  else 1924

mutual

/-- What a class adds to the weight of its states. -/
def CharSet.weight : CharSet → Nat
  | .empty => 0
  | .literal l => if isAscii l.char then 8 else stateWeight
  | .range _ last => if isAscii last.char then 8 else 2 * stateWeight
  | .named negated => if negated then wideWeight else 16
  | .shorthand letter => shorthandWeight letter
  | .property _ => propertyWeight
  | .bracketed negated set => if negated then max wideWeight set.weight else set.weight
  | .union sets => weightOfSets sets
  | .operation _ left right => max left.weight right.weight

def weightOfSets : List CharSet → Nat
  | [] => 0
  | set :: sets => set.weight + weightOfSets sets

end

mutual

/-- Whether a pattern matches nothing but the empty text. -/
def Regex.isWidthless : Regex → Bool
  | .empty | .flags _ | .assertion => true
  | .repeated r times => times.most = some 0 || r.isWidthless
  | .group _ r => r.isWidthless
  | .alternation rs => areWidthless rs
  | .concatenation rs => areWidthless rs
  | _ => false

def areWidthless : List Regex → Bool
  | [] => true
  | r :: rs => r.isWidthless && areWidthless rs

end

/-- The weight of a repetition of something of weight `once`. -/
def Repetition.weight (times : Repetition) (once : Nat) : Nat :=
  match times.most with
  | none => max 1 times.least * once + stateWeight + 8
  | some most =>
    let options := most - times.least
    times.least * once +
      if options = 0 then 0 else options * (once + stateWeight + 8) + stateWeight

mutual

/-- The weight of a pattern with its repetitions written out. -/
def Regex.weight : Regex → Nat
  | .empty => stateWeight
  | .flags _ => 0
  | .literal l => stateWeight * l.char.utf8Size
  | .dot => wideWeight
  | .assertion => stateWeight
  | .shorthand letter => shorthandWeight letter
  | .property _ => propertyWeight
  | .bracketed negated set => 2 * stateWeight + (CharSet.bracketed negated set).weight
  | .repeated r times => if r.isWidthless then r.weight else times.weight r.weight
  | .group (.captured _) r => r.weight + 2 * stateWeight
  | .group (.scoped _) r => r.weight
  | .alternation rs => weightOfAll rs + 2 * stateWeight + 4 * rs.length
  | .concatenation rs => weightOfAll rs

def weightOfAll : List Regex → Nat
  | [] => 0
  | r :: rs => r.weight + weightOfAll rs

end

/-- How large the automaton of a pattern may grow. -/
def weightLimit : Nat := 10485760

/-! ## 5. The test -/

/-- Whether some texts are all different. -/
def areDistinct (names : List (List Char)) : Bool :=
  match names with
  | [] => true
  | name :: rest => !rest.contains name && areDistinct rest

/-- Whether the local engine understands a pattern. -/
def isUnderstood (pattern : List Char) : Bool :=
  match Regex.read? pattern with
  | none => false
  | some r =>
    r.depth ≤ nestLimit && areDistinct r.names && (r.allowed? true).isSome &&
      r.weight ≤ weightLimit

end Pattern

end SchemaCompiler
